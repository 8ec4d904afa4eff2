import Mathlib.Algebra.BigOperators.Group.List.Basic
import Mathlib.Algebra.GroupWithZero.Nat

/-!
# Making room

A store has a bound on the size of its items and one on their number.  Items are given up in
the order of a list until the rest fits: `evicted` is what goes, `kept` what stays.
`length_evicted_le` says that no shorter part of the list would do.
-/

namespace MissionOs.Lib

variable {α : Type}

/-- The bounds of a store. -/
structure Bounds where
  size : Nat
  number : Nat
deriving DecidableEq, Repr

namespace Bounds

variable (b : Bounds) (size : α → Nat)

/-- The items of a list are not too large and not too many. -/
def Fits (l : List α) : Prop := (l.map size).sum ≤ b.size ∧ l.length ≤ b.number

instance (l : List α) : Decidable (b.Fits size l) := inferInstanceAs (Decidable (_ ∧ _))

/-- The items that go. -/
def evicted : List α → List α
  | [] => []
  | a :: l => if b.Fits size (a :: l) then [] else a :: evicted l

/-- The items that stay. -/
def kept : List α → List α
  | [] => []
  | a :: l => if b.Fits size (a :: l) then a :: l else kept l

variable {b size}

theorem fits_nil : b.Fits size [] := ⟨Nat.zero_le _, Nat.zero_le _⟩

theorem evicted_of_fits {l : List α} (h : b.Fits size l) : b.evicted size l = [] := by
  cases l with
  | nil => rfl
  | cons a l => rw [evicted, if_pos h]

/-- What goes depends on the sizes of the items in the list only. -/
theorem evicted_congr {size' : α → Nat} {l : List α} (h : ∀ a ∈ l, size' a = size a) :
    b.evicted size' l = b.evicted size l := by
  induction l with
  | nil => rfl
  | cons a l ih =>
      have hfits : b.Fits size' (a :: l) ↔ b.Fits size (a :: l) := by
        rw [Fits, Fits, List.map_congr_left h]
      rw [evicted, evicted, ih fun x hx => h x (List.mem_cons_of_mem _ hx)]
      simp only [hfits]

theorem evicted_append_kept (l : List α) : b.evicted size l ++ b.kept size l = l := by
  induction l with
  | nil => rfl
  | cons a l ih =>
      unfold evicted kept
      split_ifs with h
      · rfl
      · rw [List.cons_append, ih]

theorem fits_kept (l : List α) : b.Fits size (b.kept size l) := by
  induction l with
  | nil => exact fits_nil
  | cons a l ih =>
      unfold kept
      split_ifs with h
      · exact h
      · exact ih

/-- What goes is not longer than any part without which the rest fits. -/
theorem length_evicted_le {l pre post : List α} (hsplit : l = pre ++ post)
    (hpost : b.Fits size post) : (b.evicted size l).length ≤ pre.length := by
  induction pre generalizing l with
  | nil =>
      rw [List.nil_append] at hsplit
      have hnone : b.evicted size l = [] := evicted_of_fits (hsplit ▸ hpost)
      exact Nat.le_of_eq (congrArg List.length hnone)
  | cons a pre ih =>
      rw [hsplit, List.cons_append, evicted]
      split_ifs
      · exact Nat.zero_le _
      · exact Nat.succ_le_succ (ih rfl)

end Bounds

end MissionOs.Lib
