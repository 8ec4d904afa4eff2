import Mathlib.Data.List.Induction

/-!
# The last word about a key

A log of values that are put under their keys and of keys that are dropped.  What stands under a
key after the log is what the last entry about the key says (`Latest`), whatever the entries about
other keys are; `current` computes it.  A map that follows `put` and `drop` entry by entry is
`current` of its log.
-/

namespace MissionOs.Lib

/-- An entry of the log. -/
inductive Change (κ α : Type) where
  | put (a : α)
  | drop (k : κ)
deriving DecidableEq, Repr

variable {κ α : Type} [DecidableEq κ] (key : α → κ)

/-- The key that an entry is about. -/
def Change.about : Change κ α → κ
  | .put a => key a
  | .drop k => k

/-- What an entry leaves under a key. -/
def Change.apply (k : κ) (held : Option α) : Change κ α → Option α
  | .put a => if key a = k then some a else held
  | .drop k' => if k' = k then none else held

/-- What stands under a key after a log. -/
def current (log : List (Change κ α)) (k : κ) : Option α := log.foldl (Change.apply key k) none

omit [DecidableEq κ] in
/-- The log puts a value under its key and says nothing more about the key. -/
def Latest (log : List (Change κ α)) (a : α) : Prop :=
  ∃ before after, log = before ++ .put a :: after ∧ ∀ c ∈ after, c.about key ≠ key a

variable {key}

theorem current_concat (log : List (Change κ α)) (c : Change κ α) (k : κ) :
    current key (log ++ [c]) k = c.apply key k (current key log k) := by
  rw [current, List.foldl_append]
  rfl

/-- An entry about another key. -/
theorem Change.apply_of_ne {c : Change κ α} {k : κ} (h : c.about key ≠ k) (held : Option α) :
    c.apply key k held = held := by
  cases c with
  | put a => exact if_neg h
  | drop k' => exact if_neg h

theorem current_append_of_forall {log after : List (Change κ α)} {k : κ}
    (h : ∀ c ∈ after, c.about key ≠ k) : current key (log ++ after) k = current key log k := by
  induction after using List.reverseRecOn with
  | nil => rw [List.append_nil]
  | append_singleton after c ih =>
      rw [← List.append_assoc, current_concat, Change.apply_of_ne (h c (by simp))]
      exact ih fun c' hc' => h c' (List.mem_append_left _ hc')

/-- The value under a key is the last that was put there. -/
theorem current_eq_some_iff {log : List (Change κ α)} {k : κ} {a : α} :
    current key log k = some a ↔ Latest key log a ∧ key a = k := by
  constructor
  · intro h
    induction log using List.reverseRecOn with
    | nil => cases h
    | append_singleton log c ih =>
        rw [current_concat] at h
        by_cases hc : c.about key = k
        · cases c with
          | put a' =>
              replace h : some a' = some a := (if_pos hc).symm.trans h
              cases h
              exact ⟨⟨log, [], rfl, by simp⟩, hc⟩
          | drop k' =>
              replace h : none = some a := (if_pos hc).symm.trans h
              cases h
        · rw [Change.apply_of_ne hc] at h
          obtain ⟨⟨before, after, rfl, hafter⟩, rfl⟩ := ih h
          refine ⟨⟨before, after ++ [c], by simp, ?_⟩, rfl⟩
          intro c' hc'
          rcases List.mem_append.mp hc' with hc' | hc'
          · exact hafter c' hc'
          · rwa [List.mem_singleton.mp hc']
  · rintro ⟨⟨before, after, rfl, hafter⟩, rfl⟩
    have hsplit : before ++ Change.put a :: after = (before ++ [.put a]) ++ after := by simp
    rw [hsplit, current_append_of_forall hafter, current_concat]
    exact if_pos rfl

end MissionOs.Lib
