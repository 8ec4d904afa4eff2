import MissionOs.Core.Version
import MissionOs.Lib.SemVer

/-!
# The texts of a version of a release

`Version::parse` cuts a text at its first `+`, and what stands before that at its first `-`.
`Reads` says what it takes from the parts, so that `parse_eq_ok_iff` is all that is needed of
it.  The printed text of a version that was read is cut at the same places.
-/

namespace MissionOs.Core

open MissionOs.Rust MissionOs.Lib

namespace Version

/-! ## What the parser reads -/

/-- A text is made of three decimal numbers, and perhaps of a text after a dash and one after
a plus. -/
structure Parts (input major minor patch : List Char) (pre build : Option (List Char)) :
    Prop where
  text_eq : input = (dotted major minor patch ++ afterMark '-' pre) ++ afterMark '+' build
  major_decimal : IsDecimal major
  minor_decimal : IsDecimal minor
  patch_decimal : IsDecimal patch
  plus_not_mem : ∀ p, pre = some p → '+' ∉ p

/-- The version is what the parts of the input stand for. -/
structure Reads (input major minor patch : List Char) (pre build : Option (List Char))
    (v : Version) : Prop extends Parts input major minor patch pre build where
  major_eq : decimal major = v.major.toNat
  minor_eq : decimal minor = v.minor.toNat
  patch_eq : decimal patch = v.patch.toNat
  pre_eq : v.pre = identifiers pre
  build_eq : v.build = identifiers build

theorem not_mem_dotted {major minor patch : List Char} {c : Char} (hdot : c ≠ '.')
    (hmajor : c ∉ major) (hminor : c ∉ minor) (hpatch : c ∉ patch) :
    c ∉ dotted major minor patch := by
  simp [dotted, hdot, hmajor, hminor, hpatch]

/-- The numbers have neither mark. -/
theorem mark_not_mem_dotted {major minor patch : List Char} (hmajor : IsDecimal major)
    (hminor : IsDecimal minor) (hpatch : IsDecimal patch) {c : Char} (hdot : c ≠ '.')
    (hc : c.isDigit = false) : c ∉ dotted major minor patch :=
  not_mem_dotted hdot (not_mem_of_isDecimal hmajor hc) (not_mem_of_isDecimal hminor hc)
    (not_mem_of_isDecimal hpatch hc)

theorem splitOn_dotted {major minor patch : List Char} (hmajor : IsDecimal major)
    (hminor : IsDecimal minor) (hpatch : IsDecimal patch) :
    (dotted major minor patch).splitOn '.' = [major, minor, patch] := by
  have hdot : ∀ {digits : List Char}, IsDecimal digits → '.' ∉ digits := fun h =>
    not_mem_of_isDecimal h (by decide)
  rw [dotted, List.splitOn_append_cons_self_of_not_mem (hdot hmajor),
    List.splitOn_append_cons_self_of_not_mem (hdot hminor),
    List.splitOn_eq_singleton (hdot hpatch)]

theorem eq_dotted_of_splitOn {s major minor patch : List Char}
    (h : s.splitOn '.' = [major, minor, patch]) : s = dotted major minor patch := by
  have hjoin : ['.'].intercalate (s.splitOn '.') = s := List.intercalate_splitOn '.'
  rw [h] at hjoin
  rw [← hjoin]
  simp [dotted, List.intercalate]

theorem parseComponent_eq_ok_iff {input : String} {kind : String → VersionParseErrorKind}
    {part : List Char} {n : UInt64} :
    parseComponent input kind part = .ok n ↔ parseU64 part = .ok n := by
  rw [parseComponent]
  cases parseU64 part with
  | ok m =>
      show Except.ok m = Except.ok n ↔ Except.ok m = Except.ok n
      rw [Except.ok.injEq, Except.ok.injEq]
  | error e =>
      constructor
      · intro h
        cases h
      · intro h
        cases h

section Parse

variable {s : String} {v : Version} {input major minor patch : List Char}
  {pre build : Option (List Char)}

namespace Parts

theorem splitAtFirst_plus (h : Parts input major minor patch pre build) :
    splitAtFirst '+' input = (dotted major minor patch ++ afterMark '-' pre, build) := by
  rw [h.text_eq]
  apply splitAtFirst_append
  have hnumbers : '+' ∉ dotted major minor patch :=
    mark_not_mem_dotted h.major_decimal h.minor_decimal h.patch_decimal (by decide) (by decide)
  have hpre := h.plus_not_mem
  cases pre with
  | none => simpa [afterMark] using hnumbers
  | some p => simpa [afterMark, hnumbers] using hpre p rfl

theorem splitAtFirst_dash (h : Parts input major minor patch pre build) :
    splitAtFirst '-' (dotted major minor patch ++ afterMark '-' pre) =
      (dotted major minor patch, pre) := by
  apply splitAtFirst_append
  exact mark_not_mem_dotted h.major_decimal h.minor_decimal h.patch_decimal (by decide) (by decide)

/-- The parts of a text are where it is cut. -/
theorem unique (h : Parts input major minor patch pre build)
    {major' minor' patch' : List Char} {pre' build' : Option (List Char)}
    (h' : Parts input major' minor' patch' pre' build') :
    [major', minor', patch'] = [major, minor, patch] ∧ pre' = pre ∧ build' = build := by
  have hplus := h.splitAtFirst_plus
  rw [h'.splitAtFirst_plus, Prod.mk.injEq] at hplus
  have hdash := h.splitAtFirst_dash
  rw [← hplus.1, h'.splitAtFirst_dash, Prod.mk.injEq] at hdash
  have hdots := splitOn_dotted h.major_decimal h.minor_decimal h.patch_decimal
  rw [← hdash.1, splitOn_dotted h'.major_decimal h'.minor_decimal h'.patch_decimal] at hdots
  exact ⟨hdots, hdash.2, hplus.2⟩

end Parts

theorem Reads.parse (h : Reads s.toList major minor patch pre build v) :
    Version.parse s = .ok v := by
  have hne : s.toList.isEmpty = false := by
    rw [h.text_eq, dotted]
    simp
  simp only [Version.parse, hne, h.splitAtFirst_plus, h.splitAtFirst_dash,
    splitOn_dotted h.major_decimal h.minor_decimal h.patch_decimal, bind_eq_ok_iff,
    parseComponent_eq_ok_iff, Bool.false_eq_true, if_false]
  refine ⟨_, parseU64_of_number ⟨h.major_decimal, h.major_eq⟩,
    _, parseU64_of_number ⟨h.minor_decimal, h.minor_eq⟩,
    _, parseU64_of_number ⟨h.patch_decimal, h.patch_eq⟩, ?_⟩
  rw [← h.pre_eq, ← h.build_eq]
  rfl

/-- A component without a `+` that is read is a decimal number. -/
theorem isDecimal_of_mem_dotted {part : List Char} {n : UInt64} (h : parseU64 part = .ok n)
    (hplus : '+' ∉ dotted major minor patch) (hpart : part ∈ [major, minor, patch]) :
    IsDecimal part ∧ decimal part = n.toNat := by
  apply isDecimal_of_parseU64 h
  simp only [dotted, List.mem_append, List.mem_cons, not_or] at hplus
  simp only [List.mem_cons, List.not_mem_nil, or_false] at hpart
  rcases hpart with rfl | rfl | rfl
  · exact hplus.1
  · exact hplus.2.2.1
  · exact hplus.2.2.2.2

theorem reads_of_parse (h : Version.parse s = .ok v) :
    ∃ major minor patch pre build, Reads s.toList major minor patch pre build v := by
  obtain ⟨hplus, htext⟩ := splitAtFirst_spec '+' s.toList
  obtain ⟨-, hcore⟩ := splitAtFirst_spec '-' (splitAtFirst '+' s.toList).1
  rw [Version.parse] at h
  split at h
  · cases h
  · dsimp only at h
    split at h
    · rename_i p0 p1 p2 hparts
      rw [eq_dotted_of_splitOn hparts] at hcore
      rw [hcore] at hplus htext
      have hnumbers : '+' ∉ dotted p0 p1 p2 := fun hmem =>
        hplus (List.mem_append_left _ hmem)
      simp only [bind_eq_ok_iff, parseComponent_eq_ok_iff] at h
      obtain ⟨major, hmajor, minor, hminor, patch, hpatch, hv⟩ := h
      cases hv
      obtain ⟨hp0, hmajor⟩ := isDecimal_of_mem_dotted hmajor hnumbers (by simp)
      obtain ⟨hp1, hminor⟩ := isDecimal_of_mem_dotted hminor hnumbers (by simp)
      obtain ⟨hp2, hpatch⟩ := isDecimal_of_mem_dotted hpatch hnumbers (by simp)
      refine ⟨p0, p1, p2, _, _, ⟨htext, hp0, hp1, hp2, ?_⟩, hmajor, hminor, hpatch, rfl, rfl⟩
      intro p hp hmem
      rw [hp] at hplus
      exact hplus (List.mem_append_right _ (List.mem_cons_of_mem _ hmem))
    · cases h
    · cases h

/-- What `Version::parse` accepts, and what it returns. -/
theorem parse_eq_ok_iff :
    Version.parse s = .ok v ↔
      ∃ major minor patch pre build, Reads s.toList major minor patch pre build v := by
  constructor
  · exact reads_of_parse
  · intro h
    obtain ⟨major, minor, patch, pre, build, h⟩ := h
    exact h.parse

end Parse

/-! ## Printing what was read -/

/-- The text after a mark, if there are identifiers in it. -/
def nonempty (rest : Option (List Char)) : Option (List Char) := rest.filter (!·.isEmpty)

theorem identifiers_nonempty (rest : Option (List Char)) :
    identifiers (nonempty rest) = identifiers rest := by
  cases rest with
  | none => rfl
  | some s =>
      cases s with
      | nil => rfl
      | cons c s => rfl

/-- Identifiers are printed as the text that they were read from. -/
theorem printed_identifiers (mark : String) {c : Char} (hmark : mark.toList = [c])
    (rest : Option (List Char)) :
    (if (identifiers rest).isEmpty then "" else mark ++ join "." (identifiers rest)).toList =
      afterMark c (nonempty rest) := by
  cases rest with
  | none => rfl
  | some s =>
      cases s with
      | nil => rfl
      | cons d s =>
          have hne : (identifiers (some (d :: s))).isEmpty = false := by
            rw [identifiers, List.isEmpty_map, List.isEmpty_eq_false_iff]
            exact List.splitOn_ne_nil _ _
          have htexts : (identifiers (some (d :: s))).map String.toList =
              (d :: s).splitOn '.' := by
            rw [identifiers, List.map_map]
            exact (List.map_congr_left fun l _ => String.toList_ofList).trans (List.map_id _)
          rw [if_neg (by rw [hne]; decide), String.toList_append, hmark, join,
            String.toList_intercalate, htexts]
          show c :: ['.'].intercalate ((d :: s).splitOn '.') = c :: (d :: s)
          rw [List.intercalate_splitOn]

/-- A version that was read is printed so that it is read again. -/
theorem parse_display {s : String} {v : Version} (h : Version.parse s = .ok v) :
    Version.parse v.display = .ok v := by
  obtain ⟨major, minor, patch, pre, build, h⟩ := reads_of_parse h
  refine parse_eq_ok_iff.mpr ⟨_, _, _, nonempty pre, nonempty build,
    ⟨?_, isDecimal_toDigits v.major.toNat, isDecimal_toDigits v.minor.toNat,
      isDecimal_toDigits v.patch.toNat, ?_⟩, decimal_toDigits _, decimal_toDigits _,
    decimal_toDigits _, ?_, ?_⟩
  · rw [display, String.toList_append, String.toList_append, h.pre_eq, h.build_eq,
      printed_identifiers (c := '-') "-" rfl, printed_identifiers (c := '+') "+" rfl]
    simp [toList_toString_u64, dotted]
  · intro p hp
    rw [nonempty, Option.filter_eq_some_iff] at hp
    exact h.plus_not_mem p hp.1
  · rw [h.pre_eq, identifiers_nonempty]
  · rw [h.build_eq, identifiers_nonempty]

end Version

end MissionOs.Core
