import Mathlib.Order.PiLex

/-!
# Lists in zero-padded lexicographic order

`padded l` is a list as an infinite sequence, filled up with the least element, in the
lexicographic order of sequences.  Lists of different lengths are compared so, and two lists
are equal in this order exactly if they are equal up to least elements at their ends.

`padded_le_iff` compares two lists by their first elements and their tails; it is the rule by
which a loop over two lists is related to the order.
-/

namespace MissionOs.Lib

variable {α : Type*} [LinearOrder α] [OrderBot α]

/-- A list, filled up with the least element. -/
def padded (l : List α) : Lex (ℕ → α) := toLex fun i => l.getD i ⊥

@[simp] theorem padded_apply (l : List α) (i : ℕ) : padded l i = l.getD i ⊥ := rfl

theorem getD_zero (l : List α) : l.getD 0 ⊥ = l.headD ⊥ := by
  cases l <;> rfl

theorem getD_succ (l : List α) (i : ℕ) : l.getD (i + 1) ⊥ = l.tail.getD i ⊥ := by
  cases l <;> rfl

theorem padded_lt_iff {l m : List α} :
    padded l < padded m ↔
      l.headD ⊥ < m.headD ⊥ ∨ l.headD ⊥ = m.headD ⊥ ∧ padded l.tail < padded m.tail := by
  constructor
  · intro h
    obtain ⟨i, heq, hlt⟩ := h
    cases i with
    | zero =>
        left
        simpa only [padded_apply, getD_zero] using hlt
    | succ i =>
        right
        constructor
        · simpa only [padded_apply, getD_zero] using heq 0 (Nat.succ_pos i)
        · refine ⟨i, fun j hj => ?_, ?_⟩
          · simpa only [padded_apply, getD_succ] using heq (j + 1) (Nat.succ_lt_succ hj)
          · simpa only [padded_apply, getD_succ] using hlt
  · intro h
    rcases h with hlt | ⟨hhead, i, heq, hlt⟩
    · refine ⟨0, fun j hj => absurd hj (Nat.not_lt_zero j), ?_⟩
      simpa only [padded_apply, getD_zero] using hlt
    · refine ⟨i + 1, fun j hj => ?_, ?_⟩
      · cases j with
        | zero => simpa only [padded_apply, getD_zero] using hhead
        | succ j => simpa only [padded_apply, getD_succ] using heq j (Nat.lt_of_succ_lt_succ hj)
      · simpa only [padded_apply, getD_succ] using hlt

theorem padded_le_iff_not_lt {l m : List α} : padded l ≤ padded m ↔ ¬padded m < padded l :=
  not_lt.symm

/-- Two lists are compared by their first elements, and by their tails if these are equal. -/
theorem padded_le_iff {l m : List α} :
    padded l ≤ padded m ↔
      l.headD ⊥ < m.headD ⊥ ∨ l.headD ⊥ = m.headD ⊥ ∧ padded l.tail ≤ padded m.tail := by
  rw [padded_le_iff_not_lt, padded_lt_iff, padded_le_iff_not_lt]
  constructor
  · intro h
    obtain ⟨hhead, htail⟩ := not_or.mp h
    rcases lt_or_eq_of_le (not_lt.mp hhead) with hlt | heq
    · exact Or.inl hlt
    · exact Or.inr ⟨heq, fun hlt => htail ⟨heq.symm, hlt⟩⟩
  · intro hle hafter
    rcases hafter with hlt' | ⟨heq', htail'⟩
    · rcases hle with hlt | ⟨heq, htail⟩
      · exact lt_asymm hlt hlt'
      · exact hlt'.ne heq.symm
    · rcases hle with hlt | ⟨heq, htail⟩
      · exact hlt.ne heq'.symm
      · exact htail htail'

/-- The empty list is the least. -/
theorem padded_nil_le (l : List α) : padded [] ≤ padded l := by
  rw [padded_le_iff_not_lt]
  intro h
  obtain ⟨i, -, hlt⟩ := h
  exact not_lt_bot hlt

/-- The order is kept when two lists are cut off at the same length. -/
theorem padded_take_le {l m : List α} (h : padded l ≤ padded m) (n : ℕ) :
    padded (l.take n) ≤ padded (m.take n) := by
  induction n generalizing l m with
  | zero =>
      rw [List.take_zero, List.take_zero]
  | succ n ih =>
      have hhead : ∀ k : List α, (k.take (n + 1)).headD ⊥ = k.headD ⊥ := by
        intro k
        cases k <;> rfl
      have htail : ∀ k : List α, (k.take (n + 1)).tail = k.tail.take n := by
        intro k
        cases k <;> simp
      rw [padded_le_iff, hhead, hhead, htail, htail]
      rcases padded_le_iff.mp h with hlt | ⟨heq, hrest⟩
      · exact Or.inl hlt
      · exact Or.inr ⟨heq, ih hrest⟩

end MissionOs.Lib
