import MissionOs.Core.VersionGrammar
import MissionOs.Core.VersionOrder

/-!
# The precedence of versions

The order of `Version` is meant to be the precedence of semantic versions.  It tells numbers
from other identifiers by reading them as a `u64`, so an identifier of digits that is too large
for that is compared as a text.  `Misjudged` says for which identifiers this is the wrong order.
-/

namespace MissionOs.Core

open Std MissionOs.Rust MissionOs.Lib

namespace Version

/-- Digits whose number fits into the type by which numbers are told. -/
def IsU64 (s : List Char) : Prop := IsDigits s ∧ number s < 2 ^ 64

instance (s : List Char) : Decidable (IsU64 s) := inferInstanceAs (Decidable (_ ∧ _))

/-- Digits whose number does not. -/
def IsHuge (s : List Char) : Prop := IsDigits s ∧ 2 ^ 64 ≤ number s

instance (s : List Char) : Decidable (IsHuge s) := inferInstanceAs (Decidable (_ ∧ _))

/-- Two identifiers that are in another order as texts than by precedence: a huge number and a
longer one, or a huge number and an identifier that is no number. -/
def Misjudged (x y : List Char) : Prop :=
  (IsHuge x ∧ IsHuge y ∧ (x.length < y.length ∧ asciiOrder x y = .gt ∨
      y.length < x.length ∧ asciiOrder x y = .lt)) ∨
    (IsHuge x ∧ ¬IsDigits y ∧ asciiOrder x y = .gt) ∨
    (¬IsDigits x ∧ IsHuge y ∧ asciiOrder x y = .lt)

/-! ## Identifiers -/

section Identifiers

variable {x y : List Char}

theorem strCmp_eq_asciiOrder : strCmp = asciiOrder := strCmp_eq

/-- A valid identifier is read as a number exactly if it is digits and the number fits. -/
theorem parseU64_cases (h : IsBuild x) :
    (∃ n, parseU64 x = .ok n ∧ IsU64 x ∧ number x = n.toNat) ∨
      (∃ e, parseU64 x = .error e) ∧ ¬IsU64 x := by
  cases hparse : parseU64 x with
  | ok n =>
      have hplus : '+' ∉ x := not_mem_of_isBuild h (by decide)
      obtain ⟨hdigits, hnumber⟩ := isDecimal_of_parseU64 hparse hplus
      refine Or.inl ⟨n, rfl, ⟨hdigits, ?_⟩, hnumber⟩
      rw [number_eq_decimal, hnumber]
      exact n.toNat_lt
  | error e =>
      refine Or.inr ⟨⟨e, rfl⟩, fun hfits => ?_⟩
      have hok := parseU64_of_isDecimal hfits.1 hfits.2
      rw [hparse] at hok
      cases hok

theorem compare_u64 (m n : UInt64) : compare m n = compare m.toNat n.toNat := by
  show compareOfLessAndEq m n = compareOfLessAndEq m.toNat n.toNat
  simp only [compareOfLessAndEq, UInt64.lt_iff_toNat_lt, UInt64.toNat_inj]

/-- Identifiers are compared as by their precedence, but only those that fit are numbers. -/
theorem comparePreReleaseId_ofList (hx : IsBuild x) (hy : IsBuild y) :
    comparePreReleaseId (String.ofList x) (String.ofList y) =
      if IsU64 x then
        if IsU64 y then compare (number x) (number y) else .lt
      else if IsU64 y then .gt
      else asciiOrder x y := by
  rw [comparePreReleaseId, String.toList_ofList, String.toList_ofList]
  rcases parseU64_cases hx with ⟨m, hm, hxu, hxn⟩ | ⟨⟨e, he⟩, hxu⟩
  · rcases parseU64_cases hy with ⟨n, hn, hyu, hyn⟩ | ⟨⟨e, he⟩, hyu⟩
    · rw [hm, hn, if_pos hxu, if_pos hyu, hxn, hyn]
      exact compare_u64 m n
    · rw [hm, he, if_pos hxu, if_neg hyu]
  · rcases parseU64_cases hy with ⟨n, hn, hyu, hyn⟩ | ⟨⟨e', he'⟩, hyu⟩
    · rw [he, hn, if_neg hxu, if_pos hyu]
    · rw [he, he', if_neg hxu, if_neg hyu, strCmp_eq_asciiOrder]

theorem isHuge_iff (hx : IsDigits x) : IsHuge x ↔ ¬IsU64 x := by
  rw [IsHuge, IsU64]
  simp [hx]

/-- Different identifiers are in the order of their precedence unless they are misjudged. -/
theorem comparePreReleaseId_eq_iff (hx : IsPreRelease x) (hy : IsPreRelease y) (hne : x ≠ y) :
    comparePreReleaseId (String.ofList x) (String.ofList y) = identifierPrecedence x y ↔
      ¬Misjudged x y := by
  rw [comparePreReleaseId_ofList hx.isBuild hy.isBuild, identifierPrecedence, Misjudged]
  by_cases hxd : IsDigits x
  · by_cases hyd : IsDigits y
    · rw [if_pos hxd, if_pos hyd, isHuge_iff hxd, isHuge_iff hyd]
      by_cases hxu : IsU64 x
      · by_cases hyu : IsU64 y
        · simp [hxu, hyu, hxd]
        · have hlt : number x < number y :=
            Nat.lt_of_lt_of_le hxu.2 ((isHuge_iff hyd).mpr hyu).2
          rw [Nat.compare_eq_lt.mpr hlt]
          simp [hxu, hyu, hxd]
      · by_cases hyu : IsU64 y
        · have hlt : number y < number x :=
            Nat.lt_of_lt_of_le hyu.2 ((isHuge_iff hxd).mpr hxu).2
          rw [Nat.compare_eq_gt.mpr hlt]
          simp [hxu, hyu, hyd]
        · rw [if_neg hxu, if_neg hyu,
            asciiOrder_eq_compare_iff (hx.isNumeric hxd) (hy.isNumeric hyd)]
          simp [hxu, hyu, hxd, hyd]
    · have hyu : ¬IsU64 y := fun h => hyd h.1
      have hyh : ¬IsHuge y := fun h => hyd h.1
      rw [if_pos hxd, if_neg hyd, isHuge_iff hxd, if_neg hyu, if_neg hyu]
      by_cases hxu : IsU64 x
      · simp [hxu, hxd]
      · rw [if_neg hxu, asciiOrder_eq_lt_iff hne]
        simp [hxu, hyh, hyd, hxd]
  · have hxu : ¬IsU64 x := fun h => hxd h.1
    have hxh : ¬IsHuge x := fun h => hxd h.1
    rw [if_neg hxd, if_neg hxu]
    by_cases hyd : IsDigits y
    · rw [if_pos hyd, isHuge_iff hyd]
      by_cases hyu : IsU64 y
      · simp [hyu, hxh]
      · rw [if_neg hyu, asciiOrder_eq_gt_iff hne]
        simp [hyu, hxh, hxd]
    · have hyu : ¬IsU64 y := fun h => hyd h.1
      have hyh : ¬IsHuge y := fun h => hyd h.1
      rw [if_neg hyd, if_neg hyu]
      simp [hxh, hyh]

theorem comparePreReleaseId_self (a : String) : comparePreReleaseId a a = .eq :=
  ReflCmp.compare_self

/-- Different identifiers differ in the order. -/
theorem comparePreReleaseId_ne_eq (hx : IsPreRelease x) (hy : IsPreRelease y) (hne : x ≠ y) :
    comparePreReleaseId (String.ofList x) (String.ofList y) ≠ .eq := by
  rw [comparePreReleaseId_ofList hx.isBuild hy.isBuild]
  intro h
  split_ifs at h with hxu hyu hyu
  · exact hne (number_inj (hx.isNumeric hxu.1) (hy.isNumeric hyu.1) (Nat.compare_eq_eq.mp h))
  · exact hne (eq_of_asciiOrder h)

end Identifiers

/-! ## Versions -/

section Versions

/-- Two lists of identifiers are in the order of their precedence exactly if the identifiers in
which they first differ are not misjudged. -/
theorem comparePreRelease_eq_iff {a b : List (List Char)} (ha : ∀ id ∈ a, IsPreRelease id)
    (hb : ∀ id ∈ b, IsPreRelease id) :
    comparePreRelease (a.map String.ofList) (b.map String.ofList) =
        List.compareLex identifierPrecedence a b ↔
      ∀ x xs y ys, FirstDiffer a b x xs y ys → ¬Misjudged x y := by
  rw [comparePreRelease_eq, compareLex_map, compareLex_eq_compareLex_iff]
  · refine forall₄_congr fun x xs y ys => forall_congr' fun h => ?_
    exact comparePreReleaseId_eq_iff (ha x h.mem_left) (hb y h.mem_right) h.1
  · exact fun x _ => comparePreReleaseId_self _
  · exact fun x _ => identifierPrecedence_self x
  · exact fun x hx y hy hne => comparePreReleaseId_ne_eq (ha x hx) (hb y hy) hne
  · exact fun x hx y hy hne h => hne (eq_of_identifierPrecedence (ha x hx) (hb y hy) h)

theorem cmpPre_eq_iff {a b : List (List Char)} (ha : ∀ id ∈ a, IsPreRelease id)
    (hb : ∀ id ∈ b, IsPreRelease id) :
    cmpPre (a.map String.ofList) (b.map String.ofList) = SemVer.preReleasePrecedence a b ↔
      ∀ x xs y ys, FirstDiffer a b x xs y ys → ¬Misjudged x y := by
  cases a with
  | nil =>
      refine iff_of_true ?_ fun x xs y ys h => absurd h FirstDiffer.not_nil_left
      cases b with
      | nil => rfl
      | cons y b => rfl
  | cons x a =>
      cases b with
      | nil => exact iff_of_true rfl fun x xs y ys h => absurd h FirstDiffer.not_nil_right
      | cons y b => exact comparePreRelease_eq_iff ha hb

/-- The numbers of two versions are in the same order. -/
theorem compare_ofNat {m n : Nat} (hm : m < 2 ^ 64) (hn : n < 2 ^ 64) :
    compare (UInt64.ofNat m) (UInt64.ofNat n) = compare m n := by
  rw [compare_u64, UInt64.toNat_ofNat_of_lt' hm, UInt64.toNat_ofNat_of_lt' hn]

theorem compare_number_eq_iff {s t : List Char} (hs : IsNumeric s) (ht : IsNumeric t) :
    compare (number s) (number t) = .eq ↔ s = t := by
  rw [Nat.compare_eq_eq]
  constructor
  · exact number_inj hs ht
  · intro h
    rw [h]

/-- Comparing two semantic versions that are read gives their precedence, except that huge
numbers among the first identifiers in which they differ are misjudged. -/
theorem cmp_eq_precedence_iff (v w : SemVer) :
    (∃ a b, Version.parse (String.ofList v.text) = .ok a ∧
        Version.parse (String.ofList w.text) = .ok b ∧ a.cmp b = v.precedence w) ↔
      (Fits v ∧ Fits w) ∧ (v.SameNumbers w → ∀ x xs y ys,
        FirstDiffer v.preRelease w.preRelease x xs y ys → ¬Misjudged x y) := by
  have hcmp (hv : Fits v) (hw : Fits w) : (ofSemVer v).cmp (ofSemVer w) = v.precedence w ↔
      (v.SameNumbers w → ∀ x xs y ys,
        FirstDiffer v.preRelease w.preRelease x xs y ys → ¬Misjudged x y) := by
    rw [cmp, SemVer.precedence, ofSemVer, ofSemVer, compare_ofNat hv.1 hw.1,
      compare_ofNat hv.2.1 hw.2.1, compare_ofNat hv.2.2 hw.2.2, then_eq_then_iff,
      then_eq_then_iff, then_eq_then_iff,
      compare_number_eq_iff v.major_numeric w.major_numeric,
      compare_number_eq_iff v.minor_numeric w.minor_numeric,
      compare_number_eq_iff v.patch_numeric w.patch_numeric,
      cmpPre_eq_iff v.preRelease_valid w.preRelease_valid, SemVer.SameNumbers, and_imp, and_imp]
  simp only [parse_text_iff]
  constructor
  · intro h
    obtain ⟨a, b, ⟨hv, rfl⟩, ⟨hw, rfl⟩, h⟩ := h
    exact ⟨⟨hv, hw⟩, (hcmp hv hw).mp h⟩
  · intro h
    obtain ⟨⟨hv, hw⟩, h⟩ := h
    exact ⟨_, _, ⟨hv, rfl⟩, ⟨hw, rfl⟩, (hcmp hv hw).mpr h⟩

/-- `1.0.0-18446744073709551616` is put above `1.0.0-100000000000000000000`. -/
theorem huge_identifier_above_larger :
    ¬ ∀ v w : SemVer, Fits v → Fits w → ∃ a b, Version.parse (String.ofList v.text) = .ok a ∧
      Version.parse (String.ofList w.text) = .ok b ∧ a.cmp b = v.precedence w := by
  intro h
  obtain ⟨a, b, ha, hb, hcmp⟩ := h
    (preReleaseOfOne ["18446744073709551616".toList] (by decide))
    (preReleaseOfOne ["100000000000000000000".toList] (by decide)) (by decide) (by decide)
  rw [(parse_text_iff.mp ha).2, (parse_text_iff.mp hb).2] at hcmp
  revert hcmp
  decide

end Versions

end Version

end MissionOs.Core
