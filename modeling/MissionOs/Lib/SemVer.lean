import Mathlib.Algebra.GroupWithZero.Nat
import MissionOs.Lib.FirstDifference

/-!
# Semantic versions

The grammar of SemVer 2.0 and the precedence of its section 11, for texts of any length.

A `SemVer` is a valid version, by the texts of its parts, so that no number is bounded.
`SemVer.text` is how it is written.  `SemVer.precedence` compares the three numbers, puts a
release above its prereleases, and then compares the identifiers one by one: numeric ones by
their numbers and below the others, the others in ASCII order, and a longer list above its
beginning.  Build metadata does not take part.
-/

namespace MissionOs.Lib

/-! ## Identifiers -/

/-- `<identifier character>`: a letter, a digit or a dash. -/
def isIdentifierChar (c : Char) : Bool := c.isAlphanum || c == '-'

/-- `<digits>`. -/
def IsDigits (s : List Char) : Prop := s ≠ [] ∧ ∀ c ∈ s, c.isDigit = true

/-- `<numeric identifier>`: digits, with no zero before the others. -/
def IsNumeric (s : List Char) : Prop := IsDigits s ∧ (s.head? = some '0' → s = ['0'])

/-- `<alphanumeric identifier>`: identifier characters, of which one is not a digit. -/
def IsAlphanumeric (s : List Char) : Prop :=
  (∀ c ∈ s, isIdentifierChar c = true) ∧ ∃ c ∈ s, c.isDigit = false

/-- `<pre-release identifier>`. -/
def IsPreRelease (s : List Char) : Prop := IsAlphanumeric s ∨ IsNumeric s

/-- `<build identifier>`. -/
def IsBuild (s : List Char) : Prop := IsAlphanumeric s ∨ IsDigits s

-- The characters of the list are looked at, not all that there are.
instance (s : List Char) : Decidable (IsDigits s) :=
  @instDecidableAnd _ _ _ (List.decidableBAll _ s)

instance (s : List Char) : Decidable (IsNumeric s) := inferInstanceAs (Decidable (_ ∧ _))

instance (s : List Char) : Decidable (IsAlphanumeric s) :=
  @instDecidableAnd _ _ (List.decidableBAll _ s) (List.decidableBEx _ s)

instance (s : List Char) : Decidable (IsPreRelease s) := inferInstanceAs (Decidable (_ ∨ _))

instance (s : List Char) : Decidable (IsBuild s) := inferInstanceAs (Decidable (_ ∨ _))

/-- The number that digits stand for. -/
def number (s : List Char) : Nat := Nat.ofDigitChars 10 s 0

/-- The order of the ASCII characters, one by one. -/
def asciiOrder : List Char → List Char → Ordering := List.compareLex (compareOn Char.toNat)

/-- The precedence of two prerelease identifiers. -/
def identifierPrecedence (a b : List Char) : Ordering :=
  if IsDigits a then
    if IsDigits b then compare (number a) (number b) else .lt
  else if IsDigits b then .gt
  else asciiOrder a b

/-! ## Versions -/

/-- A valid semantic version.  An empty list of identifiers stands for none. -/
structure SemVer where
  major : List Char
  minor : List Char
  patch : List Char
  preRelease : List (List Char)
  build : List (List Char)
  major_numeric : IsNumeric major
  minor_numeric : IsNumeric minor
  patch_numeric : IsNumeric patch
  preRelease_valid : ∀ id ∈ preRelease, IsPreRelease id
  build_valid : ∀ id ∈ build, IsBuild id

/-- Three texts with dots between them. -/
def dotted (major minor patch : List Char) : List Char :=
  major ++ '.' :: (minor ++ '.' :: patch)

/-- Identifiers with dots between them after a mark, and nothing if there are none. -/
def marked (mark : Char) (ids : List (List Char)) : List Char :=
  if ids = [] then [] else mark :: ['.'].intercalate ids

namespace SemVer

/-- How a version is written. -/
def text (v : SemVer) : List Char :=
  (dotted v.major v.minor v.patch ++ marked '-' v.preRelease) ++ marked '+' v.build

/-- The precedence of what follows the numbers: a release is above its prereleases. -/
def preReleasePrecedence : List (List Char) → List (List Char) → Ordering
  | [], [] => .eq
  | [], _ :: _ => .gt
  | _ :: _, [] => .lt
  | a, b => List.compareLex identifierPrecedence a b

/-- The precedence of two versions. -/
def precedence (v w : SemVer) : Ordering :=
  (compare (number v.major) (number w.major)).then <|
    (compare (number v.minor) (number w.minor)).then <|
      (compare (number v.patch) (number w.patch)).then <|
        preReleasePrecedence v.preRelease w.preRelease

/-- Two versions have the same three numbers. -/
def SameNumbers (v w : SemVer) : Prop :=
  v.major = w.major ∧ v.minor = w.minor ∧ v.patch = w.patch

end SemVer

/-! ## Numbers -/

section Numbers

variable {s t : List Char}

instance : Std.TransCmp asciiOrder := by
  unfold asciiOrder
  infer_instance

theorem asciiOrder_cons (c d : Char) (s t : List Char) :
    asciiOrder (c :: s) (d :: t) = (compare c.toNat d.toNat).then (asciiOrder s t) :=
  List.compareLex_cons_cons

theorem asciiOrder_self (s : List Char) : asciiOrder s s = .eq := Std.ReflCmp.compare_self

theorem asciiOrder_swap (s t : List Char) : asciiOrder s t = (asciiOrder t s).swap :=
  Std.OrientedCmp.eq_swap

theorem eq_of_asciiOrder (h : asciiOrder s t = .eq) : s = t := by
  induction s generalizing t with
  | nil =>
      cases t with
      | nil => rfl
      | cons d t => cases h
  | cons c s ih =>
      cases t with
      | nil => cases h
      | cons d t =>
          rw [asciiOrder_cons, Ordering.then_eq_eq, Nat.compare_eq_eq, Char.toNat_inj] at h
          rw [h.1, ih h.2]

/-- A digit is a number below ten. -/
theorem digit_lt_ten {c : Char} (h : c.isDigit = true) : c.toNat - '0'.toNat < 10 := by
  simp only [Char.isDigit, Bool.and_eq_true, decide_eq_true_eq] at h
  have hle : c.toNat ≤ '9'.toNat := h.2
  have hnine : '9'.toNat = 57 := rfl
  have hzero : '0'.toNat = 48 := rfl
  omega

theorem zero_le_digit {c : Char} (h : c.isDigit = true) : '0'.toNat ≤ c.toNat := by
  simp only [Char.isDigit, Bool.and_eq_true, decide_eq_true_eq] at h
  exact h.1

/-- The number of `n` digits is below `10 ^ n`. -/
theorem ofDigitChars_lt (h : ∀ c ∈ s, c.isDigit = true) (acc : Nat) :
    Nat.ofDigitChars 10 s acc < (acc + 1) * 10 ^ s.length := by
  induction s generalizing acc with
  | nil =>
      rw [Nat.ofDigitChars_nil, List.length_nil]
      omega
  | cons c s ih =>
      rw [List.forall_mem_cons] at h
      rw [Nat.ofDigitChars_cons, List.length_cons, Nat.pow_succ]
      have hdigit := digit_lt_ten h.1
      calc Nat.ofDigitChars 10 s (10 * acc + (c.toNat - '0'.toNat))
          < (10 * acc + (c.toNat - '0'.toNat) + 1) * 10 ^ s.length := ih h.2 _
        _ ≤ ((acc + 1) * 10) * 10 ^ s.length := Nat.mul_le_mul_right _ (by omega)
        _ = (acc + 1) * (10 ^ s.length * 10) := by rw [Nat.mul_assoc, Nat.mul_comm 10]

theorem mul_pow_le_ofDigitChars (s : List Char) (acc : Nat) :
    acc * 10 ^ s.length ≤ Nat.ofDigitChars 10 s acc := by
  induction s generalizing acc with
  | nil =>
      rw [Nat.ofDigitChars_nil, List.length_nil]
      omega
  | cons c s ih =>
      rw [Nat.ofDigitChars_cons, List.length_cons, Nat.pow_succ]
      calc acc * (10 ^ s.length * 10)
          = (10 * acc) * 10 ^ s.length := by
            rw [Nat.mul_comm _ 10, ← Nat.mul_assoc, Nat.mul_comm acc]
        _ ≤ (10 * acc + (c.toNat - '0'.toNat)) * 10 ^ s.length :=
            Nat.mul_le_mul_right _ (by omega)
        _ ≤ Nat.ofDigitChars 10 s (10 * acc + (c.toNat - '0'.toNat)) := ih _

/-- With no zero before it, a longer number is larger. -/
theorem number_lt_of_length_lt (hs : IsNumeric s) (ht : IsNumeric t)
    (hlength : s.length < t.length) : number s < number t := by
  cases t with
  | nil => simp at hlength
  | cons c t =>
      have hlength' : s.length ≤ t.length := by simpa [Nat.lt_succ_iff] using hlength
      have hpos : 0 < s.length := List.length_pos_of_ne_nil hs.1.1
      have hc : c ≠ '0' := by
        intro heq
        subst heq
        have ht' := ht.2 rfl
        rw [List.cons.injEq] at ht'
        rw [ht'.2, List.length_nil] at hlength'
        omega
      have hdigit : 1 ≤ c.toNat - '0'.toNat := by
        have hzero := zero_le_digit (ht.1.2 c List.mem_cons_self)
        have hne : c.toNat ≠ '0'.toNat := fun h => hc (Char.toNat_inj.mp h)
        omega
      calc number s < (0 + 1) * 10 ^ s.length := ofDigitChars_lt hs.1.2 0
        _ ≤ (c.toNat - '0'.toNat) * 10 ^ t.length :=
            Nat.mul_le_mul (by omega) (Nat.pow_le_pow_right (by omega) hlength')
        _ ≤ Nat.ofDigitChars 10 t (c.toNat - '0'.toNat) := mul_pow_le_ofDigitChars t _
        _ = number (c :: t) := by
            rw [number, Nat.ofDigitChars_cons, Nat.mul_zero, Nat.zero_add]

/-- As many digits are in the order of their numbers. -/
theorem compare_ofDigitChars (hs : ∀ c ∈ s, c.isDigit = true) (ht : ∀ c ∈ t, c.isDigit = true)
    (hlength : s.length = t.length) (m n : Nat) :
    compare (Nat.ofDigitChars 10 s m) (Nat.ofDigitChars 10 t n) =
      (compare m n).then (asciiOrder s t) := by
  induction s generalizing t m n with
  | nil =>
      have ht : t = [] := List.length_eq_zero_iff.mp hlength.symm
      rw [ht, Nat.ofDigitChars_nil, Nat.ofDigitChars_nil, asciiOrder_self, Ordering.then_eq]
  | cons c s ih =>
      cases t with
      | nil => simp at hlength
      | cons d t =>
          rw [List.forall_mem_cons] at hs ht
          rw [Nat.ofDigitChars_cons, Nat.ofDigitChars_cons,
            ih hs.2 ht.2 (by simpa using hlength)]
          have hc := digit_lt_ten hs.1
          have hd := digit_lt_ten ht.1
          have hc' := zero_le_digit hs.1
          have hd' := zero_le_digit ht.1
          have hstep : compare (10 * m + (c.toNat - '0'.toNat)) (10 * n + (d.toNat - '0'.toNat)) =
              (compare m n).then (compare c.toNat d.toNat) := by
            rcases Nat.lt_trichotomy m n with hmn | rfl | hmn
            · rw [Nat.compare_eq_lt.mpr hmn, Ordering.lt_then, Nat.compare_eq_lt]
              omega
            · rw [Nat.compare_eq_eq.mpr rfl, Ordering.eq_then]
              rcases Nat.lt_trichotomy c.toNat d.toNat with hcd | hcd | hcd
              · rw [Nat.compare_eq_lt.mpr hcd, Nat.compare_eq_lt]
                omega
              · rw [Nat.compare_eq_eq.mpr hcd, Nat.compare_eq_eq]
                omega
              · rw [Nat.compare_eq_gt.mpr hcd, Nat.compare_eq_gt]
                omega
            · rw [Nat.compare_eq_gt.mpr hmn, Ordering.gt_then, Nat.compare_eq_gt]
              omega
          rw [hstep, asciiOrder_cons, Ordering.then_assoc]

theorem compare_number_of_length_eq (hs : IsDigits s) (ht : IsDigits t)
    (hlength : s.length = t.length) : compare (number s) (number t) = asciiOrder s t := by
  rw [number, number, compare_ofDigitChars hs.2 ht.2 hlength, Nat.compare_eq_eq.mpr rfl,
    Ordering.eq_then]

/-- Different numeric identifiers have different numbers. -/
theorem number_inj (hs : IsNumeric s) (ht : IsNumeric t) (h : number s = number t) : s = t := by
  rcases Nat.lt_trichotomy s.length t.length with hlt | heq | hgt
  · have := number_lt_of_length_lt hs ht hlt
    omega
  · have hcompare := compare_number_of_length_eq hs.1 ht.1 heq
    rw [Nat.compare_eq_eq.mpr h] at hcompare
    exact eq_of_asciiOrder hcompare.symm
  · have := number_lt_of_length_lt ht hs hgt
    omega

/-- Numeric identifiers are in the order of the texts unless the longer one is below as a
text. -/
theorem asciiOrder_eq_compare_iff (hs : IsNumeric s) (ht : IsNumeric t) :
    asciiOrder s t = compare (number s) (number t) ↔
      ¬(s.length < t.length ∧ asciiOrder s t = .gt ∨
        t.length < s.length ∧ asciiOrder s t = .lt) := by
  rcases Nat.lt_trichotomy s.length t.length with hlt | heq | hgt
  · rw [Nat.compare_eq_lt.mpr (number_lt_of_length_lt hs ht hlt)]
    cases h : asciiOrder s t with
    | lt => simp [Nat.le_of_lt hlt]
    | eq =>
        rw [eq_of_asciiOrder h] at hlt
        exact absurd hlt (Nat.lt_irrefl _)
    | gt => simp [hlt]
  · rw [compare_number_of_length_eq hs.1 ht.1 heq]
    simp [heq]
  · rw [Nat.compare_eq_gt.mpr (number_lt_of_length_lt ht hs hgt)]
    cases h : asciiOrder s t with
    | lt => simp [hgt]
    | eq =>
        rw [eq_of_asciiOrder h] at hgt
        exact absurd hgt (Nat.lt_irrefl _)
    | gt => simp [Nat.le_of_lt hgt]

theorem asciiOrder_eq_lt_iff (hne : s ≠ t) : asciiOrder s t = .lt ↔ ¬asciiOrder s t = .gt := by
  cases h : asciiOrder s t with
  | lt => simp
  | eq => exact absurd (eq_of_asciiOrder h) hne
  | gt => simp

theorem asciiOrder_eq_gt_iff (hne : s ≠ t) : asciiOrder s t = .gt ↔ ¬asciiOrder s t = .lt := by
  rw [asciiOrder_eq_lt_iff hne, not_not]

end Numbers

/-! ## Valid identifiers -/

section Identifiers

variable {s t : List Char}

theorem isIdentifierChar_of_isDigit {c : Char} (h : c.isDigit = true) :
    isIdentifierChar c = true := by
  simp [isIdentifierChar, Char.isAlphanum, h]

/-- A dash, a digit, an upper case or a lower case letter. -/
theorem toNat_of_isIdentifierChar {c : Char} (h : isIdentifierChar c = true) :
    c.toNat = 45 ∨ 48 ≤ c.toNat ∧ c.toNat ≤ 57 ∨ 65 ≤ c.toNat ∧ c.toNat ≤ 90 ∨
      97 ≤ c.toNat ∧ c.toNat ≤ 122 := by
  have hranges : (decide ('A'.val ≤ c.val ∧ c.val ≤ 'Z'.val) ||
      (decide ('a'.val ≤ c.val) && decide (c.val ≤ 'z'.val)) ||
      (decide ('0'.val ≤ c.val) && decide (c.val ≤ '9'.val)) || c == '-') = true := h
  simp only [Bool.or_eq_true, Bool.and_eq_true, decide_eq_true_eq, beq_iff_eq] at hranges
  rcases hranges with ((hupper | hlower) | hdigit) | rfl
  · exact Or.inr (Or.inr (Or.inl hupper))
  · exact Or.inr (Or.inr (Or.inr hlower))
  · exact Or.inr (Or.inl hdigit)
  · exact Or.inl rfl

theorem IsPreRelease.isBuild (h : IsPreRelease s) : IsBuild s :=
  h.imp_right (·.1)

/-- A prerelease identifier of digits has no zero before the others. -/
theorem IsPreRelease.isNumeric (h : IsPreRelease s) (hdigits : IsDigits s) : IsNumeric s := by
  rcases h with ⟨-, c, hc, hnot⟩ | hnumeric
  · rw [hdigits.2 c hc] at hnot
    cases hnot
  · exact hnumeric

theorem IsBuild.identifierChar (h : IsBuild s) : ∀ c ∈ s, isIdentifierChar c = true := by
  rcases h with ⟨hchars, -⟩ | ⟨-, hdigits⟩
  · exact hchars
  · intro c hc
    exact isIdentifierChar_of_isDigit (hdigits c hc)

theorem IsBuild.ne_nil (h : IsBuild s) : s ≠ [] := by
  rcases h with ⟨-, c, hc, -⟩ | ⟨hne, -⟩
  · exact List.ne_nil_of_mem hc
  · exact hne

/-- Build identifiers are the texts of identifier characters that are not empty. -/
theorem isBuild_iff : IsBuild s ↔ s ≠ [] ∧ ∀ c ∈ s, isIdentifierChar c = true := by
  constructor
  · intro h
    exact ⟨h.ne_nil, h.identifierChar⟩
  · intro h
    obtain ⟨hne, hchars⟩ := h
    by_cases hdigits : ∀ c ∈ s, c.isDigit = true
    · exact Or.inr ⟨hne, hdigits⟩
    · exact Or.inl ⟨hchars, by simpa using hdigits⟩

/-- Prerelease identifiers are those that, if they are digits, have no zero before the
others. -/
theorem isPreRelease_iff :
    IsPreRelease s ↔ IsBuild s ∧ (IsDigits s → s.head? = some '0' → s = ['0']) := by
  constructor
  · intro h
    exact ⟨h.isBuild, fun hdigits => (h.isNumeric hdigits).2⟩
  · intro h
    obtain ⟨halpha | hdigits, hzero⟩ := h
    · exact Or.inl halpha
    · exact Or.inr ⟨hdigits, hzero hdigits⟩

theorem identifierPrecedence_self (s : List Char) : identifierPrecedence s s = .eq := by
  rw [identifierPrecedence]
  split
  · exact Nat.compare_eq_eq.mpr rfl
  · exact asciiOrder_self s

/-- Different identifiers differ in precedence. -/
theorem eq_of_identifierPrecedence (hs : IsPreRelease s) (ht : IsPreRelease t)
    (h : identifierPrecedence s t = .eq) : s = t := by
  rw [identifierPrecedence] at h
  split_ifs at h with hsd htd htd
  · exact number_inj (hs.isNumeric hsd) (ht.isNumeric htd) (Nat.compare_eq_eq.mp h)
  · exact eq_of_asciiOrder h

end Identifiers

end MissionOs.Lib
