import Mathlib.Data.List.Basic

/-!
# Sorting and dropping repeated entries

A list that is sorted and then freed of entries equal to the one before has the members of the
list, each once, in increasing order.
-/

namespace MissionOs.Lib

variable {α : Type} [DecidableEq α]

/-- Of equal entries in a row, one is kept, as `Vec::dedup`. -/
def dropRepeats : List α → List α
  | [] => []
  | [a] => [a]
  | a :: b :: rest =>
      if a = b then dropRepeats (b :: rest) else a :: dropRepeats (b :: rest)

theorem mem_dropRepeats {a : α} {l : List α} : a ∈ dropRepeats l ↔ a ∈ l := by
  fun_induction dropRepeats l with
  | case1 => exact Iff.rfl
  | case2 b => exact Iff.rfl
  | case3 b rest ih =>
      rw [ih, List.mem_cons, List.mem_cons, List.mem_cons, or_self_left]
  | case4 b c rest hne ih =>
      rw [List.mem_cons, ih, List.mem_cons (b := b)]

/-- In a sorted list every entry that is kept is below those behind it. -/
theorem pairwise_dropRepeats {le : α → α → Prop} {l : List α}
    (hantisymm : ∀ a b, le a b → le b a → a = b) (h : l.Pairwise le) :
    (dropRepeats l).Pairwise fun a b => le a b ∧ a ≠ b := by
  fun_induction dropRepeats l with
  | case1 => exact List.Pairwise.nil
  | case2 a => exact List.pairwise_singleton _ a
  | case3 b rest ih => exact ih (List.pairwise_cons.mp h).2
  | case4 a b rest hne ih =>
      obtain ⟨ha, hrest⟩ := List.pairwise_cons.mp h
      apply List.pairwise_cons.mpr
      constructor
      · intro c hc
        have hmem : c ∈ b :: rest := mem_dropRepeats.mp hc
        refine ⟨ha c hmem, ?_⟩
        intro heq
        subst heq
        -- The entry would stand on both sides of `b`.
        rcases List.mem_cons.mp hmem with heq | hmem
        · exact hne heq
        · have hba := (List.pairwise_cons.mp hrest).1 a hmem
          exact hne (hantisymm a b (ha b List.mem_cons_self) hba)
      · exact ih hrest

/-- The members of a list, each once and in increasing order. -/
def sortDedup (le : α → α → Bool) (l : List α) : List α := dropRepeats (l.mergeSort le)

section Order

variable {le : α → α → Bool} {l : List α}

theorem mem_sortDedup {a : α} : a ∈ sortDedup le l ↔ a ∈ l := by
  rw [sortDedup, mem_dropRepeats, List.mem_mergeSort]

theorem pairwise_sortDedup (htrans : ∀ a b c, le a b = true → le b c = true → le a c = true)
    (htotal : ∀ a b, (le a b || le b a) = true)
    (hantisymm : ∀ a b, le a b = true → le b a = true → a = b) :
    (sortDedup le l).Pairwise fun a b => le a b = true ∧ a ≠ b :=
  pairwise_dropRepeats hantisymm (List.pairwise_mergeSort htrans htotal l)

end Order

end MissionOs.Lib
