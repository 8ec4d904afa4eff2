import Mathlib.Data.List.Basic

/-!
# Runs of a transition function

A system is a function `next : ι → σ → σ` from an input and a state to the
next state.  `transitions next s is` lists the steps of the run that reads the
inputs `is` from the state `s`, each with the state before, the input and the
state after.  A property of a run is a property of every element of that list.

`transitions_forall` is for properties of single steps.
`transitions_invariant` is for properties that hold of every state reached:
the step lemma is the hypothesis, and the run lemma is the conclusion.
`transitions_iff` says which runs have a property, where a step lemma says which
steps have it.
-/

namespace MissionOs.Lib

variable {σ ι : Type}

/-- One step of a run: the state before, the input, and the state after. -/
structure Transition (σ ι : Type) where
  before : σ
  input : ι
  after : σ

/-- The steps of the run that reads the inputs `is` from `s`. -/
def transitions (next : ι → σ → σ) : σ → List ι → List (Transition σ ι)
  | _, [] => []
  | s, i :: is => ⟨s, i, next i s⟩ :: transitions next (next i s) is

/-- The state at the end of a run. -/
def final (next : ι → σ → σ) (s : σ) (is : List ι) : σ :=
  is.foldl (fun s i => next i s) s

@[simp] theorem transitions_nil (next : ι → σ → σ) (s : σ) :
    transitions next s [] = [] := rfl

@[simp] theorem transitions_cons (next : ι → σ → σ) (s : σ) (i : ι) (is : List ι) :
    transitions next s (i :: is) = ⟨s, i, next i s⟩ :: transitions next (next i s) is := rfl

@[simp] theorem final_nil (next : ι → σ → σ) (s : σ) : final next s [] = s := rfl

@[simp] theorem final_cons (next : ι → σ → σ) (s : σ) (i : ι) (is : List ι) :
    final next s (i :: is) = final next (next i s) is := rfl

/-- Every step of a run is a step of the system. -/
theorem after_eq_of_mem_transitions {next : ι → σ → σ} {s : σ} {is : List ι}
    {t : Transition σ ι} (ht : t ∈ transitions next s is) :
    t.after = next t.input t.before := by
  induction is generalizing s with
  | nil => simp at ht
  | cons i is ih =>
      rw [transitions_cons, List.mem_cons] at ht
      rcases ht with rfl | ht
      · rfl
      · exact ih ht

/-- An invariant that each step keeps, under a condition on the step, holds
before and after every step of a run whose steps meet the condition. -/
theorem transitions_invariant {next : ι → σ → σ} {C : σ → ι → Prop}
    {I : σ → Prop} (step : ∀ s i, I s → C s i → I (next i s))
    {s : σ} {is : List ι} (hs : I s)
    (hC : ∀ t ∈ transitions next s is, C t.before t.input) :
    ∀ t ∈ transitions next s is, I t.before ∧ I t.after := by
  induction is generalizing s with
  | nil => simp
  | cons i is ih =>
      rw [transitions_cons, List.forall_mem_cons] at hC ⊢
      have hnext : I (next i s) := step s i hs hC.1
      exact ⟨⟨hs, hnext⟩, ih hnext hC.2⟩

/-- Where a step with an input in `A` has the property `P` exactly if it meets the
condition `C`, every step of a run has the property exactly if every step meets the
condition. -/
theorem transitions_iff {next : ι → σ → σ} {A : ι → Prop} {C : σ → ι → Prop}
    {P : σ → ι → σ → Prop} {I : σ → Prop}
    (step : ∀ s i, I s → A i → (P s i (next i s) ↔ C s i))
    (keep : ∀ s i, I s → A i → P s i (next i s) → I (next i s)) {s : σ} {is : List ι}
    (hs : I s) (hA : ∀ i ∈ is, A i) :
    (∀ t ∈ transitions next s is, P t.before t.input t.after) ↔
      ∀ t ∈ transitions next s is, C t.before t.input := by
  induction is generalizing s with
  | nil => simp
  | cons i is ih =>
      rw [transitions_cons, List.forall_mem_cons, List.forall_mem_cons]
      rw [List.forall_mem_cons] at hA
      obtain ⟨hi, his⟩ := hA
      constructor
      · intro h
        exact ⟨(step s i hs hi).mp h.1, (ih (keep s i hs hi h.1) his).mp h.2⟩
      · intro h
        have hP : P s i (next i s) := (step s i hs hi).mpr h.1
        exact ⟨hP, (ih (keep s i hs hi hP) his).mpr h.2⟩

/-- An invariant that each step keeps holds at the end of a run, too. -/
theorem final_invariant {next : ι → σ → σ} {C : σ → ι → Prop}
    {I : σ → Prop} (step : ∀ s i, I s → C s i → I (next i s))
    {s : σ} {is : List ι} (hs : I s)
    (hC : ∀ t ∈ transitions next s is, C t.before t.input) : I (final next s is) := by
  induction is generalizing s with
  | nil => exact hs
  | cons i is ih =>
      rw [transitions_cons, List.forall_mem_cons] at hC
      exact ih (step s i hs hC.1) hC.2

/-- The inputs of the steps of a run are the inputs of the run. -/
theorem input_mem_of_mem_transitions {next : ι → σ → σ} {s : σ} {is : List ι}
    {t : Transition σ ι} (ht : t ∈ transitions next s is) : t.input ∈ is := by
  induction is generalizing s with
  | nil => simp at ht
  | cons i is ih =>
      rw [transitions_cons, List.mem_cons] at ht
      rcases ht with rfl | ht
      · exact List.mem_cons_self
      · exact List.mem_cons_of_mem _ (ih ht)

/-- A condition on the inputs holds at every step of a run exactly if every input meets it. -/
theorem forall_input_iff (next : ι → σ → σ) (s : σ) (is : List ι) {P : ι → Prop} :
    (∀ t ∈ transitions next s is, P t.input) ↔ ∀ i ∈ is, P i := by
  induction is generalizing s with
  | nil => simp
  | cons i is ih => rw [transitions_cons, List.forall_mem_cons, List.forall_mem_cons, ih]

/-! ## Runs of two systems -/

section Simulation

variable {τ κ : Type} {next : ι → σ → σ} {next' : κ → τ → τ} {C : σ → ι → Prop} {I : σ → Prop}
  {view : σ → τ} {label : ι → σ → κ} {s : σ} {is : List ι}

/-- The inputs that another system reads in the same run. -/
def labels (next : ι → σ → σ) (label : ι → σ → κ) (s : σ) (is : List ι) : List κ :=
  (transitions next s is).map fun t => label t.input t.before

/-- Where each step is a step of the other system, the run is a run of it. -/
theorem transitions_labels (keep : ∀ s i, I s → C s i → I (next i s))
    (step : ∀ s i, I s → C s i → view (next i s) = next' (label i s) (view s)) (hs : I s)
    (hC : ∀ t ∈ transitions next s is, C t.before t.input) :
    transitions next' (view s) (labels next label s is) =
      (transitions next s is).map fun t =>
        ⟨view t.before, label t.input t.before, view t.after⟩ := by
  induction is generalizing s with
  | nil => rfl
  | cons i is ih =>
      rw [transitions_cons, List.forall_mem_cons] at hC
      rw [labels, transitions_cons, List.map_cons, transitions_cons, List.map_cons,
        ← step s i hs hC.1]
      exact congrArg _ (ih (keep s i hs hC.1) hC.2)

end Simulation

/-- The steps of a run in two parts. -/
theorem transitions_append (next : ι → σ → σ) (s : σ) (is js : List ι) :
    transitions next s (is ++ js) =
      transitions next s is ++ transitions next (final next s is) js := by
  induction is generalizing s with
  | nil => rfl
  | cons i is ih => rw [List.cons_append, transitions_cons, ih, transitions_cons, final_cons]; rfl

theorem final_append (next : ι → σ → σ) (s : σ) (is js : List ι) :
    final next s (is ++ js) = final next (final next s is) js := List.foldl_append

end MissionOs.Lib
