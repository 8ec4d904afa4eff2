import MissionOs.Driverd.Inventory
import MissionOs.Rust.Decimal

/-!
# The texts of a driver version

The comment of `DriverVersion::parse` names two formats: three decimal numbers with dots
between them, and these with a dash and a prerelease after them.  `Denotes` says which version
a text in one of these formats stands for.

The parser reads these texts, and others: it drops a fourth number and what follows it, a `+`
before a number, and a dash with nothing after it (`parse_denotes_iff`).
-/

namespace MissionOs.Driverd

open MissionOs.Rust

namespace DriverVersion

/-! ## The formats -/

/-- What follows the numbers in the text of a version. -/
def preReleaseText : Option String → List Char
  | none => []
  | some pre => '-' :: pre.toList

/-- The text of a version, with the digits of its three numbers. -/
structure Spells (text major minor patch : List Char) (v : DriverVersion) : Prop where
  text_eq : text = (major ++ '.' :: (minor ++ '.' :: patch)) ++ preReleaseText v.preRelease
  major : IsDecimal major ∧ decimal major = v.major.toNat
  minor : IsDecimal minor ∧ decimal minor = v.minor.toNat
  patch : IsDecimal patch ∧ decimal patch = v.patch.toNat
  preRelease : v.preRelease ≠ some ""

/-- A text stands for a version, but for white space around it. -/
def Denotes (s : String) (v : DriverVersion) : Prop :=
  ∃ major minor patch, Spells (trim s.toList) major minor patch v

/-- A text before whose first dash stand three numbers that are read, but that has more than
the formats: a fourth part, a `+`, or a dash at its end. -/
def HasMore (s : String) : Prop :=
  ∃ major minor patch more,
    ((trim s.toList).takeWhile (· ≠ '-')).splitOn '.' = major :: minor :: patch :: more ∧
      (∀ part ∈ [major, minor, patch], ∃ n, parseU64 part = .ok n) ∧
      (more ≠ [] ∨ (∃ part ∈ [major, minor, patch], '+' ∈ part) ∨
        (trim s.toList).dropWhile (· ≠ '-') = ['-'])

/-! ## What the parser reads -/

section Parse

variable {s : String} {v : DriverVersion}

theorem parseComponent_eq_ok_iff {name : String} {part : List Char} {n : UInt64} :
    parseComponent name part = .ok n ↔ parseU64 part = .ok n := by
  rw [parseComponent]
  cases parseU64 part with
  | ok m =>
      dsimp only
      rw [Except.ok.injEq, Except.ok.injEq]
  | error e => exact iff_of_false (fun h => nomatch h) (fun h => nomatch h)

theorem splitPreRelease_fst (input : List Char) :
    (splitPreRelease input).1 = input.takeWhile (· ≠ '-') := by
  rw [splitPreRelease]
  split
  · rename_i hdrop
    have hsplit := List.takeWhile_append_dropWhile (p := fun c => decide (c ≠ '-')) (l := input)
    rw [hdrop, List.append_nil] at hsplit
    exact hsplit.symm
  · rfl

/-- The parser reads the first three parts before the first dash. -/
theorem parse_eq_ok_iff :
    parse s = .ok v ↔ ∃ major minor patch more,
      ((trim s.toList).takeWhile (· ≠ '-')).splitOn '.' = major :: minor :: patch :: more ∧
        parseU64 major = .ok v.major ∧ parseU64 minor = .ok v.minor ∧
        parseU64 patch = .ok v.patch ∧
        v.preRelease = (splitPreRelease (trim s.toList)).2 := by
  rw [parse]
  dsimp only
  by_cases hempty : (trim s.toList).isEmpty = true
  · rw [if_pos hempty, List.isEmpty_iff.mp hempty]
    refine iff_of_false (fun h => nomatch h) ?_
    intro h
    obtain ⟨major, minor, patch, more, hsplit, -⟩ := h
    cases hsplit
  · rw [if_neg hempty, splitPreRelease_fst]
    split
    · rename_i p0 p1 p2 more hsplit
      rw [hsplit]
      simp only [bind_eq_ok_iff, parseComponent_eq_ok_iff]
      constructor
      · intro h
        obtain ⟨major, hmajor, minor, hminor, patch, hpatch, hv⟩ := h
        cases hv
        exact ⟨p0, p1, p2, more, rfl, hmajor, hminor, hpatch, rfl⟩
      · intro h
        obtain ⟨_, _, _, _, hparts, hmajor, hminor, hpatch, hpre⟩ := h
        cases hparts
        refine ⟨_, hmajor, _, hminor, _, hpatch, ?_⟩
        rw [← hpre]
        rfl
    · rename_i hshort
      refine iff_of_false (fun h => nomatch h) ?_
      intro h
      obtain ⟨major, minor, patch, more, hsplit, -⟩ := h
      exact hshort _ _ _ _ hsplit

end Parse

/-! ## Texts in the formats -/

namespace Spells

variable {text major minor patch : List Char} {v : DriverVersion}

/-- The first dash of the text is the one before the prerelease. -/
theorem numbers_eq (h : Spells text major minor patch v) :
    text.takeWhile (· ≠ '-') = major ++ '.' :: (minor ++ '.' :: patch) ∧
      text.dropWhile (· ≠ '-') = preReleaseText v.preRelease := by
  have hdash : ∀ c ∈ major ++ '.' :: (minor ++ '.' :: patch), decide (c ≠ '-') = true := by
    intro c hc
    have hne : c ≠ '-' := by
      intro heq
      subst heq
      have hnot : ∀ {digits : List Char}, IsDecimal digits → '-' ∉ digits := fun hdigits =>
        not_mem_of_isDecimal hdigits (by decide)
      simp [hnot h.major.1, hnot h.minor.1, hnot h.patch.1] at hc
    exact decide_eq_true hne
  have hpre : (preReleaseText v.preRelease).takeWhile (· ≠ '-') = [] ∧
      (preReleaseText v.preRelease).dropWhile (· ≠ '-') = preReleaseText v.preRelease := by
    cases v.preRelease <;> simp [preReleaseText]
  rw [h.text_eq, List.takeWhile_append_of_pos hdash, List.dropWhile_append_of_pos hdash, hpre.1,
    hpre.2, List.append_nil]
  exact ⟨rfl, rfl⟩

theorem splitOn_eq (h : Spells text major minor patch v) :
    (text.takeWhile (· ≠ '-')).splitOn '.' = [major, minor, patch] := by
  have hnot : ∀ {digits : List Char}, IsDecimal digits → '.' ∉ digits := fun hdigits =>
    not_mem_of_isDecimal hdigits (by decide)
  rw [h.numbers_eq.1, List.splitOn_append_cons_self_of_not_mem (hnot h.major.1),
    List.splitOn_append_cons_self_of_not_mem (hnot h.minor.1),
    List.splitOn_eq_singleton (hnot h.patch.1)]

theorem splitPreRelease_snd (h : Spells text major minor patch v) :
    (splitPreRelease text).2 = v.preRelease := by
  have hne := h.preRelease
  rw [splitPreRelease, h.numbers_eq.2]
  cases hv : v.preRelease with
  | none => rfl
  | some pre =>
      rw [hv] at hne
      have hpre : pre.toList ≠ [] := fun hnil =>
        hne (congrArg some (String.toList_eq_nil_iff.mp hnil))
      simp [preReleaseText, hpre]

end Spells

section Formats

variable {s : String} {v : DriverVersion}

/-- A text in one of the formats is read as the version that it stands for. -/
theorem parse_of_denotes (h : Denotes s v) : parse s = .ok v := by
  obtain ⟨major, minor, patch, h⟩ := h
  rw [parse_eq_ok_iff]
  exact ⟨major, minor, patch, [], h.splitOn_eq, parseU64_of_number h.major,
    parseU64_of_number h.minor, parseU64_of_number h.patch, h.splitPreRelease_snd.symm⟩

/-- A text in one of the formats has nothing more. -/
theorem not_hasMore_of_denotes (h : Denotes s v) : ¬HasMore s := by
  obtain ⟨major, minor, patch, h⟩ := h
  intro h
  obtain ⟨major', minor', patch', more, hsplit, -, hmore⟩ := h
  rw [h.splitOn_eq] at hsplit
  cases hsplit
  rcases hmore with hmore | ⟨part, hpart, hplus⟩ | hdash
  · exact hmore rfl
  · have hdecimal : IsDecimal part := by
      simp only [List.mem_cons, List.not_mem_nil, or_false] at hpart
      rcases hpart with rfl | rfl | rfl
      · exact h.major.1
      · exact h.minor.1
      · exact h.patch.1
    exact not_mem_of_isDecimal hdecimal (by decide) hplus
  · have hne := h.preRelease
    rw [h.numbers_eq.2] at hdash
    cases hv : v.preRelease with
    | none =>
        rw [hv] at hdash
        cases hdash
    | some pre =>
        rw [hv] at hdash hne
        have hnil : pre.toList = [] := (List.cons.inj hdash).2
        exact hne (congrArg some (String.toList_eq_nil_iff.mp hnil))

/-- A text that is read and has nothing more is in one of the formats. -/
theorem denotes_of_parse (h : parse s = .ok v) (hmore : ¬HasMore s) : Denotes s v := by
  obtain ⟨major, minor, patch, more, hsplit, hmajor, hminor, hpatch, hpre⟩ :=
    parse_eq_ok_iff.mp h
  have hread : ∀ part ∈ [major, minor, patch], ∃ n, parseU64 part = .ok n := by
    simp [hmajor, hminor, hpatch]
  have hrest : ¬(more ≠ [] ∨ (∃ part ∈ [major, minor, patch], '+' ∈ part) ∨
      (trim s.toList).dropWhile (· ≠ '-') = ['-']) := fun hextra =>
    hmore ⟨major, minor, patch, more, hsplit, hread, hextra⟩
  obtain ⟨hthree, hplus, hdash⟩ : more = [] ∧
      (∀ part ∈ [major, minor, patch], '+' ∉ part) ∧
      (trim s.toList).dropWhile (· ≠ '-') ≠ ['-'] := by
    simpa only [not_or, not_not, not_exists, not_and, ne_eq] using hrest
  subst hthree
  have hnumbers : (trim s.toList).takeWhile (· ≠ '-') =
      major ++ '.' :: (minor ++ '.' :: patch) := by
    have hjoin : ['.'].intercalate (((trim s.toList).takeWhile (· ≠ '-')).splitOn '.') =
        (trim s.toList).takeWhile (· ≠ '-') := List.intercalate_splitOn '.'
    rw [hsplit] at hjoin
    rw [← hjoin]
    simp [List.intercalate]
  have htail : preReleaseText v.preRelease = (trim s.toList).dropWhile (· ≠ '-') ∧
      v.preRelease ≠ some "" := by
    rw [hpre, splitPreRelease]
    split
    · rename_i hdrop
      exact ⟨hdrop.symm, fun h => nomatch h⟩
    · rename_i c pre hdrop
      have hc : c = '-' := by
        have hhead := List.head?_dropWhile_not (fun c => decide (c ≠ '-')) (trim s.toList)
        rw [hdrop] at hhead
        simpa using hhead
      subst hc
      have hpre : pre ≠ [] := by
        intro heq
        subst heq
        exact hdash hdrop
      rw [hdrop]
      simp [preReleaseText, hpre]
  refine ⟨major, minor, patch, ?_, ?_, ?_, ?_, htail.2⟩
  · rw [← hnumbers, htail.1, List.takeWhile_append_dropWhile]
  · exact isDecimal_of_parseU64 hmajor (hplus major (by simp))
  · exact isDecimal_of_parseU64 hminor (hplus minor (by simp))
  · exact isDecimal_of_parseU64 hpatch (hplus patch (by simp))

theorem parse_of_hasMore (h : HasMore s) : ∃ v, parse s = .ok v := by
  obtain ⟨major, minor, patch, more, hsplit, hread, -⟩ := h
  obtain ⟨⟨a, ha⟩, ⟨b, hb⟩, ⟨c, hc⟩, -⟩ : (∃ n, parseU64 major = .ok n) ∧
      (∃ n, parseU64 minor = .ok n) ∧ (∃ n, parseU64 patch = .ok n) ∧ True := by
    simpa using hread
  exact ⟨⟨a, b, c, (splitPreRelease (trim s.toList)).2⟩,
    parse_eq_ok_iff.mpr ⟨major, minor, patch, more, hsplit, ha, hb, hc, rfl⟩⟩

end Formats

/-- The parser reads a text as what it stands for, and refuses it if it stands for nothing,
exactly unless the text has more than the formats. -/
theorem parse_denotes_iff (s : String) :
    (∀ v, parse s = .ok v ↔ Denotes s v) ↔ ¬HasMore s := by
  constructor
  · intro h hmore
    obtain ⟨v, hv⟩ := parse_of_hasMore hmore
    exact not_hasMore_of_denotes ((h v).mp hv) hmore
  · intro hmore v
    constructor
    · intro h
      exact denotes_of_parse h hmore
    · exact parse_of_denotes

/-- Two texts with different fourth numbers are read as the same version, though neither is in
one of the formats. -/
theorem fourth_number_dropped :
    parse "1.2.3.4" = parse "1.2.3.5" ∧ ¬∀ s v, parse s = .ok v ↔ Denotes s v := by
  constructor
  · decide
  · intro h
    have hread : parse "1.2.3.4" = .ok (.new 1 2 3) := by decide
    refine not_hasMore_of_denotes ((h _ _).mp hread) ?_
    refine ⟨['1'], ['2'], ['3'], [['4']], by decide, ?_, Or.inl (List.cons_ne_nil _ _)⟩
    intro part hpart
    simp only [List.mem_cons, List.not_mem_nil, or_false] at hpart
    rcases hpart with rfl | rfl | rfl
    · exact ⟨1, by decide⟩
    · exact ⟨2, by decide⟩
    · exact ⟨3, by decide⟩

end DriverVersion

end MissionOs.Driverd
