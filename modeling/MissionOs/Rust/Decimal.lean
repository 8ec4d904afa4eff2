import MissionOs.Rust.Text

/-!
# Decimal numbers

Which texts `str::parse` reads as an unsigned number, and as which one: a text of decimal
digits, perhaps after a `+`.
-/

namespace MissionOs.Rust

/-- A text of decimal digits. -/
def IsDecimal (s : List Char) : Prop := s ≠ [] ∧ ∀ c ∈ s, c.isDigit = true

instance (s : List Char) : Decidable (IsDecimal s) :=
  @instDecidableAnd _ _ _ (List.decidableBAll _ s)

/-- The number that decimal digits stand for. -/
def decimal (s : List Char) : Nat := Nat.ofDigitChars 10 s 0

theorem le_ofDigitChars (s : List Char) (n : Nat) : n ≤ Nat.ofDigitChars 10 s n := by
  induction s generalizing n with
  | nil => exact Nat.le_of_eq Nat.ofDigitChars_nil.symm
  | cons c s ih =>
      rw [Nat.ofDigitChars_cons]
      have hrest := ih (10 * n + (c.toNat - '0'.toNat))
      omega

/-- The digit loop reads digits whose number is below the bound, and nothing else. -/
theorem parseDigits_eq_ok_iff {bound acc n : Nat} {s : List Char} (hacc : acc < bound) :
    parseDigits bound acc s = .ok n ↔
      (∀ c ∈ s, c.isDigit = true) ∧ Nat.ofDigitChars 10 s acc = n ∧ n < bound := by
  induction s generalizing acc with
  | nil =>
      rw [parseDigits, Nat.ofDigitChars_nil, Except.ok.injEq]
      constructor
      · intro heq
        subst heq
        exact ⟨by simp, rfl, hacc⟩
      · intro h
        obtain ⟨-, rfl, -⟩ := h
        rfl
  | cons c s ih =>
      rw [parseDigits, Nat.ofDigitChars_cons, List.forall_mem_cons]
      by_cases hdigit : c.isDigit = true
      · rw [hdigit, Bool.not_true, if_neg Bool.false_ne_true]
        by_cases hbound : bound ≤ 10 * acc + (c.toNat - '0'.toNat)
        · rw [if_pos hbound]
          refine iff_of_false (fun h => nomatch h) ?_
          intro h
          obtain ⟨-, rfl, hlt⟩ := h
          have hle := le_ofDigitChars s (10 * acc + (c.toNat - '0'.toNat))
          omega
        · rw [if_neg hbound, ih (by omega)]
          simp
      · rw [Bool.eq_false_iff.mpr hdigit, Bool.not_false, if_pos rfl]
        refine iff_of_false (fun h => nomatch h) ?_
        intro h
        obtain ⟨⟨hc, -⟩, -⟩ := h
        cases hc

/-- What `str::parse` reads into an unsigned type: decimal digits, perhaps after a `+`. -/
theorem parseUnsigned_eq_ok_iff {bound n : Nat} {s : List Char} (hbound : 0 < bound) :
    parseUnsigned bound s = .ok n ↔
      ∃ digits, (s = digits ∨ s = '+' :: digits) ∧ IsDecimal digits ∧ decimal digits = n ∧
        n < bound := by
  have hplus : ∀ {digits : List Char}, ¬ IsDecimal ('+' :: digits) := by
    intro digits h
    exact absurd (h.2 '+' List.mem_cons_self) (by decide)
  fun_cases parseUnsigned bound s with
  | case1 =>
      refine iff_of_false (fun h => nomatch h) ?_
      intro h
      obtain ⟨digits, rfl | h, hdigits, -⟩ := h
      · exact hdigits.1 rfl
      · cases h
  | case2 =>
      refine iff_of_false (fun h => nomatch h) ?_
      intro h
      obtain ⟨digits, rfl | h, hdigits, -⟩ := h
      · exact hplus hdigits
      · cases h
        exact hdigits.1 rfl
  | case3 digits hne =>
      rw [parseDigits_eq_ok_iff hbound]
      constructor
      · intro h
        obtain ⟨hdigits, hvalue, hlt⟩ := h
        exact ⟨digits, Or.inr rfl, ⟨fun h => hne (by rw [h]), hdigits⟩, hvalue, hlt⟩
      · intro h
        obtain ⟨digits', rfl | h, hdigits, hvalue, hlt⟩ := h
        · exact absurd hdigits hplus
        · cases h
          exact ⟨hdigits.2, hvalue, hlt⟩
  | case4 digits hnil _ hhead =>
      rw [parseDigits_eq_ok_iff hbound]
      constructor
      · intro h
        obtain ⟨hdigits, hvalue, hlt⟩ := h
        exact ⟨s, Or.inl rfl, ⟨hnil, hdigits⟩, hvalue, hlt⟩
      · intro h
        obtain ⟨digits', rfl | h, hdigits, hvalue, hlt⟩ := h
        · exact ⟨hdigits.2, hvalue, hlt⟩
        · exact absurd h (hhead _)

theorem parseU64_eq_ok_iff {n : UInt64} {s : List Char} :
    parseU64 s = .ok n ↔
      ∃ digits, (s = digits ∨ s = '+' :: digits) ∧ IsDecimal digits ∧
        decimal digits = n.toNat := by
  have hread : parseU64 s = .ok n ↔ parseUnsigned (2 ^ 64) s = .ok n.toNat := by
    rw [parseU64]
    cases hparse : parseUnsigned (2 ^ 64) s with
    | error e => exact iff_of_false (fun h => nomatch h) (fun h => nomatch h)
    | ok k =>
        obtain ⟨-, -, -, -, hk⟩ := (parseUnsigned_eq_ok_iff (by decide)).mp hparse
        show Except.ok (UInt64.ofNat k) = Except.ok n ↔ _
        rw [Except.ok.injEq, Except.ok.injEq]
        constructor
        · intro heq
          subst heq
          exact (UInt64.toNat_ofNat_of_lt' hk).symm
        · intro heq
          subst heq
          exact UInt64.ofNat_toNat
  rw [hread, parseUnsigned_eq_ok_iff (by decide)]
  constructor
  · intro h
    obtain ⟨digits, htext, hdigits, hvalue, -⟩ := h
    exact ⟨digits, htext, hdigits, hvalue⟩
  · intro h
    obtain ⟨digits, htext, hdigits, hvalue⟩ := h
    exact ⟨digits, htext, hdigits, hvalue, n.toNat_lt⟩

/-- Decimal digits are read exactly if their number fits. -/
theorem parseU64_of_isDecimal {s : List Char} (h : IsDecimal s) (hlt : decimal s < 2 ^ 64) :
    parseU64 s = .ok (UInt64.ofNat (decimal s)) := by
  rw [parseU64_eq_ok_iff]
  refine ⟨s, Or.inl rfl, h, ?_⟩
  exact (UInt64.toNat_ofNat_of_lt' hlt).symm

/-- A part that is read and has no `+` is a decimal number. -/
theorem isDecimal_of_parseU64 {part : List Char} {n : UInt64} (h : parseU64 part = .ok n)
    (hplus : '+' ∉ part) : IsDecimal part ∧ decimal part = n.toNat := by
  obtain ⟨digits, rfl | rfl, hdigits, hvalue⟩ := parseU64_eq_ok_iff.mp h
  · exact ⟨hdigits, hvalue⟩
  · exact absurd List.mem_cons_self hplus

theorem parseU64_of_number {part : List Char} {n : UInt64}
    (h : IsDecimal part ∧ decimal part = n.toNat) : parseU64 part = .ok n :=
  parseU64_eq_ok_iff.mpr ⟨part, Or.inl rfl, h⟩

theorem not_mem_of_isDecimal {digits : List Char} (h : IsDecimal digits) {c : Char}
    (hc : c.isDigit = false) : c ∉ digits := by
  intro hmem
  rw [h.2 c hmem] at hc
  cases hc

/-- A hexadecimal digit is not white space. -/
theorem isWhitespace_of_isHexDigit {c : Char} (h : isHexDigit c = true) :
    isWhitespace c = false := by
  have hrange : 48 ≤ c.toNat ∧ c.toNat ≤ 102 := by
    simp only [isHexDigit, Char.isDigit, Bool.or_eq_true, Bool.and_eq_true,
      decide_eq_true_eq] at h
    rcases h with (⟨hlow, hhigh⟩ | ⟨hlow, hhigh⟩) | ⟨hlow, hhigh⟩
    · have hlow' : 48 ≤ c.toNat := hlow
      have hhigh' : c.toNat ≤ 57 := hhigh
      omega
    · have hlow' : 97 ≤ c.toNat := hlow
      have hhigh' : c.toNat ≤ 102 := hhigh
      omega
    · have hlow' : 65 ≤ c.toNat := hlow
      have hhigh' : c.toNat ≤ 70 := hhigh
      omega
  simp only [isWhitespace, Bool.or_eq_false_iff, Bool.and_eq_false_iff, decide_eq_false_iff_not,
    beq_eq_false_iff_ne]
  omega

theorem isWhitespace_of_isDigit {c : Char} (h : c.isDigit = true) : isWhitespace c = false :=
  isWhitespace_of_isHexDigit (by simp [isHexDigit, h])

/-! ## Printed numbers -/

theorem isDecimal_toDigits (n : Nat) : IsDecimal (Nat.toDigits 10 n) :=
  ⟨Nat.toDigits_ne_nil, fun _ hc => Nat.isDigit_of_mem_toDigits (by decide) (by decide) hc⟩

theorem decimal_toDigits (n : Nat) : decimal (Nat.toDigits 10 n) = n :=
  Nat.ofDigitChars_ten_toDigits

/-- The digits of a number are read back as the number. -/
theorem parseU64_toDigits (n : UInt64) : parseU64 (Nat.toDigits 10 n.toNat) = .ok n :=
  parseU64_of_number ⟨isDecimal_toDigits n.toNat, decimal_toDigits n.toNat⟩

theorem parseU32_toDigits (n : UInt32) : parseU32 (Nat.toDigits 10 n.toNat) = .ok n := by
  have hread : parseUnsigned (2 ^ 32) (Nat.toDigits 10 n.toNat) = .ok n.toNat :=
    (parseUnsigned_eq_ok_iff (by decide)).mpr
      ⟨_, Or.inl rfl, isDecimal_toDigits n.toNat, decimal_toDigits n.toNat, n.toNat_lt⟩
  rw [parseU32, hread]
  show Except.ok (UInt32.ofNat n.toNat) = _
  rw [UInt32.ofNat_toNat]

theorem toList_toString_u64 (n : UInt64) : (toString n).toList = Nat.toDigits 10 n.toNat :=
  Nat.toList_repr

end MissionOs.Rust
