import MissionOs.Core.VersionOrder
import MissionOs.Core.VersionText
import MissionOs.Driverd.Selection
import MissionOs.Driverd.VersionText
import MissionOs.Rust.Cut

/-!
# The laws of the two version types

Releases have the `Version` of mission-core, and drivers a `DriverVersion`.  Both are printed so
that they are read again, and both are ordered by a total preorder; two driver versions are
equal in theirs only if they are the same.
-/

namespace MissionOs.Driverd

open Std MissionOs.Rust MissionOs.Lib MissionOs.Core

namespace DriverVersion

section Display

variable {s : String} {v : DriverVersion}

theorem toList_display (v : DriverVersion) : v.display.toList =
    (Nat.toDigits 10 v.major.toNat ++ '.' :: (Nat.toDigits 10 v.minor.toNat ++ '.' ::
      Nat.toDigits 10 v.patch.toNat)) ++ preReleaseText v.preRelease := by
  rw [display, String.toList_append]
  congr 1
  · simp [toList_toString_u64]
  · cases v.preRelease with
    | none => rfl
    | some pre =>
        show ("-" ++ pre).toList = '-' :: pre.toList
        rw [String.toList_append]
        rfl

/-- A prerelease that was read is not empty and does not end with white space. -/
theorem preRelease_of_parse (h : parse s = .ok v) {pre : String} (hpre : v.preRelease = some pre) :
    pre.toList ≠ [] ∧ ∀ c, pre.toList.getLast? = some c → isWhitespace c = false := by
  obtain ⟨-, -, -, -, -, -, -, -, hsplit⟩ := parse_eq_ok_iff.mp h
  rw [hpre, splitPreRelease] at hsplit
  split at hsplit
  · cases hsplit
  · rename_i c right hdrop
    dsimp only at hsplit
    split at hsplit
    · cases hsplit
    · rename_i hright
      cases hsplit
      rw [String.toList_ofList]
      have hne : right ≠ [] := by simpa using hright
      refine ⟨hne, fun d hd => isWhitespace_getLast_trim (s := s.toList) ?_⟩
      have hsuffix : right <:+ trim s.toList :=
        (List.suffix_cons c right).trans (hdrop ▸ List.dropWhile_suffix _)
      obtain ⟨before, hbefore⟩ := hsuffix
      rw [← hbefore, List.getLast?_append_of_ne_nil _ hne, hd]

/-- The printed text has no white space at its ends. -/
theorem trim_display (h : parse s = .ok v) : trim v.display.toList = v.display.toList := by
  have hmajor := isDecimal_toDigits v.major.toNat
  have hpatch := isDecimal_toDigits v.patch.toNat
  apply trim_eq_self
  · intro c hc
    rw [toList_display, List.append_assoc, List.head?_append_of_ne_nil _ hmajor.1] at hc
    exact isWhitespace_of_isDigit (hmajor.2 c (List.mem_of_head? hc))
  · intro c hc
    rw [toList_display] at hc
    cases hpre : v.preRelease with
    | none =>
        rw [hpre, preReleaseText, List.append_nil, List.getLast?_append_of_ne_nil _ (by simp),
          List.getLast?_cons_of_ne_nil (by simp), List.getLast?_append_of_ne_nil _ (by simp),
          List.getLast?_cons_of_ne_nil hpatch.1] at hc
        exact isWhitespace_of_isDigit (hpatch.2 c (List.mem_of_getLast? hc))
    | some pre =>
        obtain ⟨hne, hlast⟩ := preRelease_of_parse h hpre
        rw [hpre, preReleaseText, List.getLast?_append_of_ne_nil _ (by simp),
          List.getLast?_cons_of_ne_nil hne] at hc
        exact hlast c hc

/-- A driver version that was read is printed so that it is read again. -/
theorem parse_display (h : parse s = .ok v) : parse v.display = .ok v := by
  apply parse_of_denotes
  refine ⟨Nat.toDigits 10 v.major.toNat, Nat.toDigits 10 v.minor.toNat,
    Nat.toDigits 10 v.patch.toNat, ?_, ?_, ?_, ?_, ?_⟩
  · rw [trim_display h]
    exact toList_display v
  · exact ⟨isDecimal_toDigits _, decimal_toDigits _⟩
  · exact ⟨isDecimal_toDigits _, decimal_toDigits _⟩
  · exact ⟨isDecimal_toDigits _, decimal_toDigits _⟩
  · intro hempty
    exact (preRelease_of_parse h hempty).1 rfl

end Display

end DriverVersion

/-- Printing and then parsing is the identity on the versions that were read. -/
theorem parse_display_of_parse :
    (∀ (s : String) (v : Version), Version.parse s = .ok v → Version.parse v.display = .ok v) ∧
      ∀ (s : String) (v : DriverVersion), DriverVersion.parse s = .ok v →
        DriverVersion.parse v.display = .ok v :=
  ⟨fun _ _ h => Version.parse_display h, fun _ _ h => DriverVersion.parse_display h⟩

theorem parse_display_of_candidate :
    Version.parse (Version.display ⟨1, 0, 0, ["rc", "1"], ["5"]⟩) =
        .ok ⟨1, 0, 0, ["rc", "1"], ["5"]⟩ ∧
      DriverVersion.parse (DriverVersion.display ⟨1, 0, 0, some "rc.1"⟩) =
        .ok ⟨1, 0, 0, some "rc.1"⟩ :=
  ⟨parse_display_of_parse.1 "1.0.0-rc.1+5" _ (by decide),
    parse_display_of_parse.2 "1.0.0-rc.1" _ (by decide)⟩

/-- Both orders are total preorders, and that of driver versions is one of their values. -/
theorem cmp_total_preorder :
    (∀ a b : Version, a.cmp b = (b.cmp a).swap) ∧
      (∀ a b c : Version, (a.cmp b).isLE = true → (b.cmp c).isLE = true →
        (a.cmp c).isLE = true) ∧
      (∀ a b : DriverVersion, a.cmp b = (b.cmp a).swap) ∧
      (∀ a b c : DriverVersion, (a.cmp b).isLE = true → (b.cmp c).isLE = true →
        (a.cmp c).isLE = true) ∧
      ∀ a b : DriverVersion, a.cmp b = .eq ↔ a = b :=
  ⟨fun _ _ => OrientedCmp.eq_swap, fun _ _ _ hab hbc => TransCmp.isLE_trans hab hbc,
    fun _ _ => OrientedCmp.eq_swap, fun _ _ _ hab hbc => TransCmp.isLE_trans hab hbc,
    fun _ _ => DriverSelector.cmp_eq_iff⟩

theorem cmp_total_preorder_candidates :
    (Version.cmp ⟨1, 0, 0, ["rc", "2"], []⟩ ⟨1, 0, 0, [], []⟩).isLE = true ∧
      (DriverVersion.cmp ⟨1, 0, 0, some "rc.1"⟩ ⟨1, 0, 0, none⟩).isLE = true :=
  ⟨cmp_total_preorder.2.1 _ ⟨1, 0, 0, ["rc", "10"], []⟩ _ (by decide) (by decide),
    cmp_total_preorder.2.2.2.1 _ ⟨1, 0, 0, some "rc.2"⟩ _ (by decide) (by decide)⟩

end MissionOs.Driverd
