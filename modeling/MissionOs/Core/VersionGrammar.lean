import MissionOs.Core.VersionText

/-!
# Which texts are versions

`Version::parse` cuts a text into its parts and reads three numbers, but it looks into no
identifier.  So it reads every semantic version whose numbers fit into their type
(`parse_text_iff`), and the texts of `IsSlack`: a zero before another digit, a mark with
nothing after it, and identifiers that are empty or have other characters than letters, digits
and dashes.
-/

namespace MissionOs.Core

open MissionOs.Rust MissionOs.Lib

namespace Version

/-! ## Semantic versions -/

/-- The numbers of a semantic version fit into their type. -/
def Fits (v : SemVer) : Prop :=
  number v.major < 2 ^ 64 ∧ number v.minor < 2 ^ 64 ∧ number v.patch < 2 ^ 64

instance (v : SemVer) : Decidable (Fits v) := inferInstanceAs (Decidable (_ ∧ _ ∧ _))

theorem number_eq_decimal (s : List Char) : number s = decimal s := rfl

/-- The version that a semantic version is read as. -/
def ofSemVer (v : SemVer) : Version where
  major := .ofNat (number v.major)
  minor := .ofNat (number v.minor)
  patch := .ofNat (number v.patch)
  pre := v.preRelease.map String.ofList
  build := v.build.map String.ofList

/-- The prerelease of `1.0.0` with the given identifiers. -/
def preReleaseOfOne (ids : List (List Char)) (hids : ∀ id ∈ ids, IsPreRelease id) : SemVer where
  major := ['1']
  minor := ['0']
  patch := ['0']
  preRelease := ids
  build := []
  major_numeric := by decide
  minor_numeric := by decide
  patch_numeric := by decide
  preRelease_valid := hids
  build_valid := List.forall_mem_nil _

/-- Identifiers with dots between them, if there are any. -/
def joined (ids : List (List Char)) : Option (List Char) :=
  if ids = [] then none else some (['.'].intercalate ids)

section Identifiers

variable {ids : List (List Char)}

theorem afterMark_joined (mark : Char) (ids : List (List Char)) :
    afterMark mark (joined ids) = marked mark ids := by
  rw [joined, marked]
  split
  · rfl
  · rfl

theorem not_mem_of_isBuild {id : List Char} (h : IsBuild id) {c : Char}
    (hc : isIdentifierChar c = false) : c ∉ id := by
  intro hmem
  rw [h.identifierChar c hmem] at hc
  cases hc

/-- Valid identifiers are found again. -/
theorem splitOn_intercalate (hids : ∀ id ∈ ids, IsBuild id) (hne : ids ≠ []) :
    (['.'].intercalate ids).splitOn '.' = ids :=
  List.splitOn_intercalate '.' (fun id hid => not_mem_of_isBuild (hids id hid) (by decide)) hne

/-- The text of valid identifiers is not empty. -/
theorem intercalate_ne_nil (hids : ∀ id ∈ ids, IsBuild id) (hne : ids ≠ []) :
    ['.'].intercalate ids ≠ [] := by
  intro hnil
  have hsplit := splitOn_intercalate hids hne
  rw [hnil] at hsplit
  have hmem : [] ∈ ids := by
    rw [← hsplit]
    exact List.mem_singleton_self _
  exact (hids [] hmem).ne_nil rfl

theorem identifiers_joined (hids : ∀ id ∈ ids, IsBuild id) :
    identifiers (joined ids) = ids.map String.ofList := by
  rw [joined]
  split
  · rename_i hnil
    rw [hnil]
    rfl
  · rename_i hne
    have hsplit := splitOn_intercalate hids hne
    cases htext : ['.'].intercalate ids with
    | nil => exact absurd htext (intercalate_ne_nil hids hne)
    | cons c s =>
        rw [htext] at hsplit
        rw [identifiers, hsplit]

end Identifiers

section Texts

variable {v : SemVer}

theorem parts_text (v : SemVer) :
    Parts v.text v.major v.minor v.patch (joined v.preRelease) (joined v.build) where
  text_eq := by rw [SemVer.text, afterMark_joined, afterMark_joined]
  major_decimal := v.major_numeric.1
  minor_decimal := v.minor_numeric.1
  patch_decimal := v.patch_numeric.1
  plus_not_mem := by
    intro p hp hmem
    rw [joined] at hp
    split at hp
    · cases hp
    · cases hp
      rcases mem_intercalate hmem with hdot | ⟨id, hid, hc⟩
      · exact absurd hdot (by decide)
      · exact not_mem_of_isBuild (v.preRelease_valid id hid).isBuild (by decide) hc

theorem reads_text (h : Fits v) :
    Reads v.text v.major v.minor v.patch (joined v.preRelease) (joined v.build)
      (ofSemVer v) where
  toParts := parts_text v
  major_eq := (UInt64.toNat_ofNat_of_lt' h.1).symm
  minor_eq := (UInt64.toNat_ofNat_of_lt' h.2.1).symm
  patch_eq := (UInt64.toNat_ofNat_of_lt' h.2.2).symm
  pre_eq := (identifiers_joined fun id hid => (v.preRelease_valid id hid).isBuild).symm
  build_eq := (identifiers_joined v.build_valid).symm

/-- A semantic version is read exactly if its numbers fit. -/
theorem parse_text_iff {a : Version} :
    Version.parse (String.ofList v.text) = .ok a ↔ Fits v ∧ a = ofSemVer v := by
  constructor
  · intro h
    obtain ⟨major, minor, patch, pre, build, hreads⟩ := reads_of_parse h
    rw [String.toList_ofList] at hreads
    obtain ⟨hnumbers, -, -⟩ := (parts_text v).unique hreads.toParts
    simp only [List.cons.injEq, and_true] at hnumbers
    obtain ⟨rfl, rfl, rfl⟩ := hnumbers
    have hfits : Fits v := by
      refine ⟨?_, ?_, ?_⟩
      · rw [number_eq_decimal, hreads.major_eq]
        exact a.major.toNat_lt
      · rw [number_eq_decimal, hreads.minor_eq]
        exact a.minor.toNat_lt
      · rw [number_eq_decimal, hreads.patch_eq]
        exact a.patch.toNat_lt
    refine ⟨hfits, ?_⟩
    have hparse : Version.parse (String.ofList v.text) = .ok (ofSemVer v) := by
      apply Reads.parse
      rw [String.toList_ofList]
      exact reads_text hfits
    rw [h] at hparse
    exact Except.ok.inj hparse
  · intro h
    obtain ⟨hfits, rfl⟩ := h
    apply Reads.parse
    rw [String.toList_ofList]
    exact reads_text hfits

end Texts

/-! ## Other texts -/

/-- A zero stands before other digits. -/
def HasLeadingZero (s : List Char) : Prop := s.head? = some '0' ∧ 1 < s.length

instance (s : List Char) : Decidable (HasLeadingZero s) := inferInstanceAs (Decidable (_ ∧ _))

/-- A text that is read, but has a zero before another digit, a mark with nothing after it, an
empty identifier, or one with another character than a letter, a digit or a dash. -/
def IsSlack (s : List Char) : Prop :=
  ∃ major minor patch pre build, Parts s major minor patch pre build ∧
    (∀ n ∈ [major, minor, patch], decimal n < 2 ^ 64) ∧
    ((∃ n ∈ [major, minor, patch], HasLeadingZero n) ∨
      (∃ p, pre = some p ∧ ∃ id ∈ p.splitOn '.', id = [] ∨
        (∃ c ∈ id, isIdentifierChar c = false) ∨ IsDecimal id ∧ HasLeadingZero id) ∨
      ∃ b, build = some b ∧ ∃ id ∈ b.splitOn '.', id = [] ∨
        ∃ c ∈ id, isIdentifierChar c = false)

section Slack

variable {s : List Char} {input : String}

theorem isNumeric_iff : IsNumeric s ↔ IsDecimal s ∧ ¬HasLeadingZero s := by
  refine and_congr_right fun hs => ?_
  cases s with
  | nil => exact absurd rfl hs.1
  | cons c s =>
      rw [HasLeadingZero, List.head?_cons, Option.some.injEq, List.cons.injEq, not_and,
        List.length_cons, Nat.lt_add_left_iff_pos, List.length_pos_iff, not_not]
      refine forall_congr' fun hc => ?_
      simp [hc]

theorem not_isBuild_iff : ¬IsBuild s ↔ s = [] ∨ ∃ c ∈ s, isIdentifierChar c = false := by
  rw [isBuild_iff, not_and_or, not_not]
  simp

theorem not_isPreRelease_iff : ¬IsPreRelease s ↔
    s = [] ∨ (∃ c ∈ s, isIdentifierChar c = false) ∨ IsDecimal s ∧ HasLeadingZero s := by
  have hzero : (IsDigits s → s.head? = some '0' → s = ['0']) ↔
      ¬(IsDecimal s ∧ HasLeadingZero s) := by
    have hnumeric := isNumeric_iff (s := s)
    constructor
    · intro h h'
      obtain ⟨hdigits, hzero⟩ := h'
      exact (hnumeric.mp ⟨hdigits, h hdigits⟩).2 hzero
    · intro h hdigits
      exact (hnumeric.mpr ⟨hdigits, fun hzero => h ⟨hdigits, hzero⟩⟩).2
  rw [isPreRelease_iff, not_and_or, not_isBuild_iff, hzero, not_not, or_assoc]

/-- What the parser accepts. -/
theorem exists_parse_iff : (∃ v, Version.parse input = .ok v) ↔
    ∃ major minor patch pre build, Parts input.toList major minor patch pre build ∧
      ∀ n ∈ [major, minor, patch], decimal n < 2 ^ 64 := by
  simp only [List.mem_cons, List.not_mem_nil, or_false, forall_eq_or_imp, forall_eq]
  constructor
  · intro h
    obtain ⟨v, h⟩ := h
    obtain ⟨major, minor, patch, pre, build, h⟩ := reads_of_parse h
    refine ⟨major, minor, patch, pre, build, h.toParts, ?_, ?_, ?_⟩
    · rw [h.major_eq]
      exact v.major.toNat_lt
    · rw [h.minor_eq]
      exact v.minor.toNat_lt
    · rw [h.patch_eq]
      exact v.patch.toNat_lt
  · intro h
    obtain ⟨major, minor, patch, pre, build, h, hmajor, hminor, hpatch⟩ := h
    let v : Version := ⟨.ofNat (decimal major), .ofNat (decimal minor), .ofNat (decimal patch),
      identifiers pre, identifiers build⟩
    have hreads : Reads input.toList major minor patch pre build v :=
      ⟨h, (UInt64.toNat_ofNat_of_lt' hmajor).symm, (UInt64.toNat_ofNat_of_lt' hminor).symm,
        (UInt64.toNat_ofNat_of_lt' hpatch).symm, rfl, rfl⟩
    exact ⟨v, hreads.parse⟩

/-- A semantic version has nothing that the grammar does not allow. -/
theorem not_isSlack_text (v : SemVer) : ¬IsSlack v.text := by
  intro h
  obtain ⟨major, minor, patch, pre, build, h, -, hdefect⟩ := h
  obtain ⟨hnumbers, rfl, rfl⟩ := (parts_text v).unique h
  rw [hnumbers] at hdefect
  rcases hdefect with ⟨n, hn, hzero⟩ | ⟨p, hp, id, hid, hbad⟩ | ⟨b, hb, id, hid, hbad⟩
  · have hnumeric : IsNumeric n := by
      simp only [List.mem_cons, List.not_mem_nil, or_false] at hn
      rcases hn with rfl | rfl | rfl
      · exact v.major_numeric
      · exact v.minor_numeric
      · exact v.patch_numeric
    exact (isNumeric_iff.mp hnumeric).2 hzero
  · rw [joined] at hp
    split at hp
    · cases hp
    · rename_i hne
      cases hp
      rw [splitOn_intercalate (fun id hid => (v.preRelease_valid id hid).isBuild) hne] at hid
      exact not_isPreRelease_iff.mpr hbad (v.preRelease_valid id hid)
  · rw [joined] at hb
    split at hb
    · cases hb
    · rename_i hne
      cases hb
      rw [splitOn_intercalate v.build_valid hne] at hid
      exact not_isBuild_iff.mpr hbad (v.build_valid id hid)

/-- The identifiers after a mark, written again. -/
theorem marked_splitOn (mark : Char) (rest : Option (List Char)) :
    marked mark (rest.elim [] (·.splitOn '.')) = afterMark mark rest := by
  cases rest with
  | none => rfl
  | some s =>
      rw [marked, Option.elim_some, if_neg (List.splitOn_ne_nil _ _), List.intercalate_splitOn]
      rfl

/-- A text that is read and not slack is a semantic version. -/
theorem exists_text_of_not_isSlack {major minor patch : List Char}
    {pre build : Option (List Char)} (h : Parts s major minor patch pre build)
    (hlt : ∀ n ∈ [major, minor, patch], decimal n < 2 ^ 64) (hslack : ¬IsSlack s) :
    ∃ v : SemVer, v.text = s ∧ Fits v := by
  have hnumbers : ∀ n ∈ [major, minor, patch], IsDecimal n → IsNumeric n := by
    intro n hn hdecimal
    refine isNumeric_iff.mpr ⟨hdecimal, fun hzero => hslack ?_⟩
    exact ⟨major, minor, patch, pre, build, h, hlt, Or.inl ⟨n, hn, hzero⟩⟩
  have hpre : ∀ id ∈ pre.elim [] (·.splitOn '.'), IsPreRelease id := by
    intro id hid
    cases pre with
    | none => cases hid
    | some p =>
        by_contra hbad
        refine hslack ⟨major, minor, patch, some p, build, h, hlt, Or.inr (Or.inl ?_)⟩
        exact ⟨p, rfl, id, hid, not_isPreRelease_iff.mp hbad⟩
  have hbuild : ∀ id ∈ build.elim [] (·.splitOn '.'), IsBuild id := by
    intro id hid
    cases build with
    | none => cases hid
    | some b =>
        by_contra hbad
        refine hslack ⟨major, minor, patch, pre, some b, h, hlt, Or.inr (Or.inr ?_)⟩
        exact ⟨b, rfl, id, hid, not_isBuild_iff.mp hbad⟩
  let v : SemVer := ⟨major, minor, patch, _, _, hnumbers major (by simp) h.major_decimal,
    hnumbers minor (by simp) h.minor_decimal, hnumbers patch (by simp) h.patch_decimal,
    hpre, hbuild⟩
  refine ⟨v, ?_, hlt major (by simp), hlt minor (by simp), hlt patch (by simp)⟩
  rw [SemVer.text, marked_splitOn, marked_splitOn]
  exact h.text_eq.symm

/-- The parser accepts a text exactly if it is a semantic version whose numbers fit, but for
the slack texts. -/
theorem accepts_semVer_iff (input : String) :
    ((∃ a, Version.parse input = .ok a) ↔ ∃ v : SemVer, v.text = input.toList ∧ Fits v) ↔
      ¬IsSlack input.toList := by
  constructor
  · intro hiff hslack
    obtain ⟨major, minor, patch, pre, build, h, hlt, -⟩ := id hslack
    obtain ⟨v, htext, -⟩ := hiff.mp (exists_parse_iff.mpr ⟨major, minor, patch, pre, build, h, hlt⟩)
    exact not_isSlack_text v (htext ▸ hslack)
  · intro hslack
    rw [exists_parse_iff]
    constructor
    · intro h
      obtain ⟨major, minor, patch, pre, build, h, hlt⟩ := h
      exact exists_text_of_not_isSlack h hlt hslack
    · intro h
      obtain ⟨v, htext, hfits⟩ := h
      refine ⟨v.major, v.minor, v.patch, _, _, htext ▸ parts_text v, ?_⟩
      simp only [List.mem_cons, List.not_mem_nil, or_false, forall_eq_or_imp, forall_eq]
      exact hfits

/-- A leading zero is read. -/
theorem leading_zero_accepted :
    ¬ ∀ input : String, (∃ a, Version.parse input = .ok a) ↔
      ∃ v : SemVer, v.text = input.toList ∧ Fits v := by
  intro h
  obtain ⟨v, htext, -⟩ := (h "01.2.3").mp ⟨.mk 1 2 3 [] [], by decide⟩
  apply not_isSlack_text v
  rw [htext]
  refine ⟨['0', '1'], ['2'], ['3'], none, none, ?_, by decide, Or.inl ⟨['0', '1'], by decide⟩⟩
  refine ⟨rfl, by decide, by decide, by decide, ?_⟩
  intro p hp
  cases hp

end Slack

end Version

end MissionOs.Core
