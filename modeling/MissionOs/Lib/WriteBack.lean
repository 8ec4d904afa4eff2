import MissionOs.Lib.Runs

/-!
# A cell whose writes are kept back

A cell is read and written, and what is written is seen at once.  It may be lost again: until
the cell is flushed, a loss leaves any of the values that it had since it was flushed last.
-/

namespace MissionOs.Lib

/-- The value of a cell, and those that a loss may leave. -/
structure WriteBack (α : Type) where
  now : α
  kept : List α
deriving DecidableEq, Repr

namespace WriteBack

variable {α : Type}

/-- What can happen to a cell. -/
inductive Change (α : Type) where
  | nothing
  | put (a : α)
  | flush
  | lose (a : α)
deriving DecidableEq, Repr

def next : Change α → WriteBack α → WriteBack α
  | .nothing, c => c
  | .put a, c => ⟨a, a :: c.kept⟩
  | .flush, c => ⟨c.now, [c.now]⟩
  | .lose a, _ => ⟨a, [a]⟩

/-- A loss leaves a value that is kept. -/
def Possible (c : WriteBack α) : Change α → Prop
  | .lose a => a ∈ c.kept
  | _ => True

/-- What is put has a property. -/
def Change.Puts (P : α → Prop) : Change α → Prop
  | .put a => P a
  | _ => True

/-- Whatever may be read, before a loss or after it, has a property. -/
structure Holds (P : α → Prop) (c : WriteBack α) : Prop where
  now : P c.now
  kept : ∀ a ∈ c.kept, P a

variable {P : α → Prop} {c : WriteBack α} {change : Change α}

theorem Holds.next (h : c.Holds P) (hpossible : c.Possible change) (hputs : change.Puts P) :
    (WriteBack.next change c).Holds P := by
  cases change with
  | nothing => exact h
  | put a => exact ⟨hputs, List.forall_mem_cons.mpr ⟨hputs, h.kept⟩⟩
  | flush => exact ⟨h.now, List.forall_mem_singleton.mpr h.now⟩
  | lose a => exact ⟨h.kept a hpossible, List.forall_mem_singleton.mpr (h.kept a hpossible)⟩

/-- As long as nothing is lost it is enough that the value has it that is there now. -/
theorem now_next (h : P c.now) (hlose : ∀ a, change ≠ .lose a) (hputs : change.Puts P) :
    P (WriteBack.next change c).now := by
  cases change with
  | put a => exact hputs
  | lose a => exact absurd rfl (hlose a)
  | nothing | flush => exact h

end WriteBack

end MissionOs.Lib
