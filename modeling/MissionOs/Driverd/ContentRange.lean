import MissionOs.Driverd.Download
import MissionOs.Rust.Decimal

/-!
# The header of a partial response

`validate_content_range` splits the header by hand.  This file says which headers it
accepts, and compares them with the ranges that the header is meant to carry: three decimal
numbers, the first of them the offset that was asked for, in order and the total above the
last position.

The header is looser in two ways.  `str::parse` also reads a number after a `+`, and nothing
compares the end of the range with the total.
-/

namespace MissionOs.Driverd

open MissionOs.Rust

/-- The text `bytes {start}-{end}/{total}`. -/
def rangeText (start «end» total : List Char) : List Char :=
  "bytes ".toList ++ (start ++ '-' :: «end» ++ '/' :: total)

/-- A numeral that `str::parse::<u64>` reads as `n`. -/
def IsNumeral (part : List Char) (n : Nat) : Prop :=
  ∃ digits, (part = digits ∨ part = '+' :: digits) ∧ IsDecimal digits ∧
    decimal digits = n ∧ n < 2 ^ 64

/-- Decimal digits of a number below 2^64. -/
def IsU64Text (part : List Char) (n : Nat) : Prop :=
  IsDecimal part ∧ decimal part = n ∧ n < 2 ^ 64

/-- A header that carries the range from `start` to `end` of `total` bytes, when the bytes
from `expected` on were asked for. -/
def IsContentRange (header : String) (expected start «end» total : Nat) : Prop :=
  ∃ startPart endPart totalPart,
    trim header.toList = rangeText startPart endPart totalPart ∧
      IsU64Text startPart start ∧ IsU64Text endPart «end» ∧ IsU64Text totalPart total ∧
      start = expected ∧ start ≤ «end» ∧ «end» < total

/-! ## What is accepted -/

theorem parseUnsigned_iff_isNumeral {part : List Char} {n : Nat} :
    parseUnsigned (2 ^ 64) part = .ok n ↔ IsNumeral part n :=
  parseUnsigned_eq_ok_iff (by decide)

theorem IsU64Text.isNumeral {part : List Char} {n : Nat} (h : IsU64Text part n) :
    IsNumeral part n :=
  ⟨part, Or.inl rfl, h⟩

/-- A numeral without a sign is a decimal number. -/
theorem IsNumeral.isU64Text {part : List Char} {n : Nat} (h : IsNumeral part n)
    (hplus : '+' ∉ part) : IsU64Text part n := by
  obtain ⟨digits, rfl | rfl, hdigits⟩ := h
  · exact hdigits
  · exact absurd List.mem_cons_self hplus

/-- Nothing but digits and the sign stands in a numeral. -/
theorem IsNumeral.not_mem {part : List Char} {n : Nat} (h : IsNumeral part n) {c : Char}
    (hdigit : c.isDigit = false) (hplus : c ≠ '+') : c ∉ part := by
  obtain ⟨digits, rfl | rfl, hdigits, -⟩ := h
  · exact not_mem_of_isDecimal hdigits hdigit
  · intro hmem
    rcases List.mem_cons.mp hmem with hc | hc
    · exact hplus hc
    · exact not_mem_of_isDecimal hdigits hdigit hc

theorem IsU64Text.not_plus {part : List Char} {n : Nat} (h : IsU64Text part n) :
    '+' ∉ part :=
  not_mem_of_isDecimal h.1 (by decide)

theorem IsNumeral.unique {part : List Char} {m n : Nat} (hm : IsNumeral part m)
    (hn : IsNumeral part n) : m = n := by
  have hread := parseUnsigned_iff_isNumeral.mpr hm
  rw [parseUnsigned_iff_isNumeral.mpr hn] at hread
  exact (Except.ok.inj hread).symm

/-- A header that is read as a range: its numerals, the offset at the start, and an end that
is not before the start. -/
structure ReadsRange (header : String) (expected : Nat) (startPart endPart totalPart : List Char)
    (start «end» total : Nat) : Prop where
  text : trim header.toList = rangeText startPart endPart totalPart
  start_numeral : IsNumeral startPart start
  end_numeral : IsNumeral endPart «end»
  total_numeral : IsNumeral totalPart total
  start_expected : start = expected
  start_le_end : start ≤ «end»

namespace ReadsRange

variable {header : String} {expected start «end» total start' end' total' : Nat}
variable {startPart endPart totalPart startPart' endPart' totalPart' : List Char}

/-- The parts of a range by the two separators. -/
theorem splitOn (h : ReadsRange header expected startPart endPart totalPart start «end» total) :
    ((trim header.toList).drop 6).splitOn '/' = [startPart ++ '-' :: endPart, totalPart] ∧
      (startPart ++ '-' :: endPart).splitOn '-' = [startPart, endPart] := by
  have hslash : '/' ∉ startPart ++ '-' :: endPart := by
    intro hmem
    rcases List.mem_append.mp hmem with hmem | hmem
    · exact h.start_numeral.not_mem (by decide) (by decide) hmem
    · rcases List.mem_cons.mp hmem with hmem | hmem
      · exact absurd hmem (by decide)
      · exact h.end_numeral.not_mem (by decide) (by decide) hmem
  constructor
  · rw [h.text]
    show (startPart ++ '-' :: endPart ++ '/' :: totalPart).splitOn '/' = _
    exact splitOn_eq_pair_iff.mpr
      ⟨rfl, hslash, h.total_numeral.not_mem (by decide) (by decide)⟩
  · exact splitOn_eq_pair_iff.mpr
      ⟨rfl, h.start_numeral.not_mem (by decide) (by decide),
        h.end_numeral.not_mem (by decide) (by decide)⟩

/-- A header is read in one way only. -/
theorem unique (h : ReadsRange header expected startPart endPart totalPart start «end» total)
    (h' : ReadsRange header expected startPart' endPart' totalPart' start' end' total') :
    (startPart = startPart' ∧ endPart = endPart' ∧ totalPart = totalPart') ∧
      start = start' ∧ «end» = end' ∧ total = total' := by
  have hslash := h.splitOn.1
  rw [h'.splitOn.1] at hslash
  obtain ⟨hrange, htotal⟩ := List.cons.inj hslash
  have hdash := h.splitOn.2
  rw [← hrange, h'.splitOn.2] at hdash
  obtain ⟨hstart, hend⟩ := List.cons.inj hdash
  obtain rfl := hstart
  obtain rfl := (List.cons.inj hend).1
  obtain rfl := (List.cons.inj htotal).1
  exact ⟨⟨rfl, rfl, rfl⟩, h.start_numeral.unique h'.start_numeral,
    h.end_numeral.unique h'.end_numeral, h.total_numeral.unique h'.total_numeral⟩

end ReadsRange

/-- A range starts after `bytes ` and does not start with `*/`. -/
theorem rangeText_eq_iff {trimmed startPart endPart totalPart : List Char} :
    trimmed = rangeText startPart endPart totalPart ↔
      "bytes ".toList.isPrefixOf trimmed = true ∧
        trimmed.drop 6 = startPart ++ '-' :: endPart ++ '/' :: totalPart := by
  rw [List.isPrefixOf_iff_prefix, rangeText]
  constructor
  · intro h
    subst h
    exact ⟨List.prefix_append _ _, rfl⟩
  · intro h
    obtain ⟨⟨rest, rfl⟩, hdrop⟩ := h
    rw [← hdrop]
    rfl

/-- A range does not start as the header of a server without ranges. -/
theorem ReadsRange.not_star {header : String} {expected start «end» total : Nat}
    {startPart endPart totalPart : List Char}
    (h : ReadsRange header expected startPart endPart totalPart start «end» total) :
    "*/".toList.isPrefixOf ((trim header.toList).drop 6) = false := by
  rw [(rangeText_eq_iff.mp h.text).2]
  cases hpart : startPart with
  | nil => rfl
  | cons c rest =>
      have hc : '*' ≠ c := by
        intro hc
        have hmem := h.start_numeral.not_mem (c := '*') (by decide) (by decide)
        exact hmem (by rw [hpart, hc]; exact List.mem_cons_self)
      show ('*' == c && _) = false
      rw [beq_eq_false_iff_ne.mpr hc, Bool.false_and]

/-- The header is accepted exactly if it is read as a range from the offset on. -/
theorem validateContentRange_eq_ok_iff {header : String} {expected start «end» total : Nat} :
    validateContentRange header expected = .ok (start, «end», total) ↔
      ∃ startPart endPart totalPart,
        ReadsRange header expected startPart endPart totalPart start «end» total := by
  constructor
  · intro h
    simp only [validateContentRange] at h
    split_ifs at h with hbytes hstar hstar
    · cases h
    · cases h
    · cases h
    split at h
    case h_2 => cases h
    rename_i range totalPart hslash
    obtain ⟨total', htotal, h⟩ := bind_eq_ok_iff.mp h
    split at h
    case h_2 => cases h
    rename_i startPart endPart hdash
    obtain ⟨start', hstart, h⟩ := bind_eq_ok_iff.mp h
    obtain ⟨end', hend, h⟩ := bind_eq_ok_iff.mp h
    split_ifs at h with hne hlt hlt
    · cases h
    · cases h
    · cases h
    cases h
    obtain ⟨hdrop, -⟩ := splitOn_eq_pair_iff.mp hslash
    obtain ⟨rfl, -⟩ := splitOn_eq_pair_iff.mp hdash
    refine ⟨startPart, endPart, totalPart, ?_⟩
    exact
      { text := rangeText_eq_iff.mpr ⟨by simpa using hbytes, hdrop⟩
        start_numeral := parseUnsigned_iff_isNumeral.mp (mapError_eq_ok_iff.mp hstart)
        end_numeral := parseUnsigned_iff_isNumeral.mp (mapError_eq_ok_iff.mp hend)
        total_numeral := parseUnsigned_iff_isNumeral.mp (mapError_eq_ok_iff.mp htotal)
        start_expected := not_not.mp hne
        start_le_end := Nat.not_lt.mp hlt }
  · intro h
    obtain ⟨startPart, endPart, totalPart, h⟩ := h
    have hread : ∀ {part : List Char} {n : Nat} (e : ParseIntError → ServiceError),
        IsNumeral part n → (parseUnsigned (2 ^ 64) part).mapError e = .ok n := by
      intro part n e hpart
      exact mapError_eq_ok_iff.mpr (parseUnsigned_iff_isNumeral.mpr hpart)
    simp only [validateContentRange, (rangeText_eq_iff.mp h.text).1, h.not_star, h.splitOn.1,
      hread _ h.total_numeral, h.splitOn.2, hread _ h.start_numeral, hread _ h.end_numeral,
      Bool.not_true, Bool.false_eq_true, if_false]
    show (if _ then _ else _) = _
    rw [if_neg (not_not.mpr h.start_expected), if_neg (Nat.not_lt.mpr h.start_le_end)]
    rfl

/-! ## Which headers are judged as ranges -/

/-- The two ways in which the header is looser than a range: a number after a `+`, and a
total that the end of the range is not below. -/
def IsLoose (header : String) (expected : Nat) : Prop :=
  ∃ startPart endPart totalPart start «end» total,
    ReadsRange header expected startPart endPart totalPart start «end» total ∧
      ('+' ∈ startPart ++ endPart ++ totalPart ∨ total ≤ «end»)

/-- The header is accepted exactly when it carries a range, and as that range. -/
def JudgedAsRange (header : String) (expected : Nat) : Prop :=
  ∀ start «end» total,
    validateContentRange header expected = .ok (start, «end», total) ↔
      IsContentRange header expected start «end» total

/-- What is a range is read as one. -/
theorem IsContentRange.readsAs {header : String} {expected start «end» total : Nat}
    (h : IsContentRange header expected start «end» total) :
    ∃ startPart endPart totalPart,
      ReadsRange header expected startPart endPart totalPart start «end» total ∧
        '+' ∉ startPart ++ endPart ++ totalPart ∧ «end» < total := by
  obtain ⟨startPart, endPart, totalPart, htext, hstart, hend, htotal, hexpected, hle, hlt⟩ := h
  refine ⟨startPart, endPart, totalPart,
    ⟨htext, hstart.isNumeral, hend.isNumeral, htotal.isNumeral, hexpected, hle⟩, ?_, hlt⟩
  intro hmem
  rcases List.mem_append.mp hmem with hmem | hmem
  · rcases List.mem_append.mp hmem with hmem | hmem
    · exact hstart.not_plus hmem
    · exact hend.not_plus hmem
  · exact htotal.not_plus hmem

/-- A header is judged as a range exactly if it is not a loose one. -/
theorem judgedAsRange_iff_not_isLoose (header : String) (expected : Nat) :
    JudgedAsRange header expected ↔ ¬ IsLoose header expected := by
  constructor
  · intro hjudged hloose
    obtain ⟨startPart, endPart, totalPart, start, «end», total, hreads, hloose⟩ := hloose
    have haccept := validateContentRange_eq_ok_iff.mpr ⟨_, _, _, hreads⟩
    obtain ⟨_, _, _, hreads', hplus, hlt⟩ := ((hjudged start «end» total).mp haccept).readsAs
    obtain ⟨⟨rfl, rfl, rfl⟩, -⟩ := hreads.unique hreads'
    rcases hloose with hloose | hle
    · exact hplus hloose
    · omega
  · intro hstrict start «end» total
    rw [validateContentRange_eq_ok_iff]
    constructor
    · intro h
      obtain ⟨startPart, endPart, totalPart, hreads⟩ := h
      have hstrict : ¬ ('+' ∈ startPart ++ endPart ++ totalPart ∨ total ≤ «end») := by
        intro hloose
        exact hstrict ⟨startPart, endPart, totalPart, start, «end», total, hreads, hloose⟩
      obtain ⟨hplus, hlt⟩ := not_or.mp hstrict
      simp only [List.mem_append, not_or] at hplus
      obtain ⟨⟨hstart, hend⟩, htotal⟩ := hplus
      refine ⟨startPart, endPart, totalPart, hreads.text, ?_, ?_, ?_, hreads.start_expected,
        hreads.start_le_end, Nat.not_le.mp hlt⟩
      · exact hreads.start_numeral.isU64Text hstart
      · exact hreads.end_numeral.isU64Text hend
      · exact hreads.total_numeral.isU64Text htotal
    · intro h
      obtain ⟨startPart, endPart, totalPart, hreads, -⟩ := h.readsAs
      exact ⟨startPart, endPart, totalPart, hreads⟩

/-- The position after the last byte of a partial response may lie beyond the total. -/
theorem not_judgedAsRange_beyond_total : ¬ JudgedAsRange "bytes 0-5/3" 0 := by
  intro h
  have haccept : validateContentRange "bytes 0-5/3" 0 = .ok (0, 5, 3) := by decide +kernel
  obtain ⟨-, -, -, -, -, -, -, -, -, hlt⟩ := (h 0 5 3).mp haccept
  omega

example : validateContentRange "bytes +0-1/2" 0 = .ok (0, 1, 2) := by decide +kernel

end MissionOs.Driverd
