import MissionOs.Driverd.EngineCalls
import MissionOs.Rust.Decimal
import Mathlib.Logic.Function.Basic

/-!
# Operations that run at the same time

The operations of an engine share its tracker, which is locked for one step at a time, and
the sequence counter, from which signals and downloads draw too.  `Phase` is where an
operation stands between two of its steps on them, and `Phase.step` is one such step;
`perform_phases` says that the engine's operations take these steps.

As long as the counter does not come around, the ids of the saved states are distinct, so an
operation finds and removes its own state and no other (`isolated_of_run`).
-/

namespace MissionOs.Driverd

open MissionOs.Rust MissionOs.Lib

/-! ## One operation -/

/-- The correlation id that is made of a sequence number. -/
def operationId (seq : UInt64) : String := "op-" ++ toString seq

namespace OperationTracker

/-- The ids of the saved states. -/
def ids (tracker : OperationTracker) : List String :=
  tracker.savedStates.map (·.correlationId)

/-- The tracker with one more state. -/
def saving (tracker : OperationTracker) (own : SavedState) : OperationTracker :=
  ⟨tracker.savedStates ++ [own]⟩

/-- The tracker without the states of an id. -/
def removing (tracker : OperationTracker) (correlationId : String) : OperationTracker :=
  ⟨tracker.savedStates.filter (·.correlationId != correlationId)⟩

theorem mem_removing {tracker : OperationTracker} {correlationId : String}
    {state : SavedState} :
    state ∈ (tracker.removing correlationId).savedStates ↔
      state ∈ tracker.savedStates ∧ state.correlationId ≠ correlationId := by
  simp [removing]

theorem ids_saving (tracker : OperationTracker) (own : SavedState) :
    (tracker.saving own).ids = tracker.ids ++ [own.correlationId] := by
  simp [ids, saving]

theorem ids_removing_sublist (tracker : OperationTracker) (correlationId : String) :
    (tracker.removing correlationId).ids.Sublist tracker.ids :=
  List.filter_sublist.map _

/-- Where the ids are distinct, an id leads to its state. -/
theorem findState_of_mem {tracker : OperationTracker} (hnodup : tracker.ids.Nodup)
    {own : SavedState} (hmem : own ∈ tracker.savedStates) :
    tracker.findState own.correlationId = some own := by
  cases hfind : tracker.findState own.correlationId with
  | none =>
      have hnone := List.find?_eq_none.mp hfind own hmem
      simp at hnone
  | some state =>
      have hid : state.correlationId = own.correlationId := by
        simpa using List.find?_some hfind
      have hstate : state ∈ tracker.savedStates := List.mem_of_find?_eq_some hfind
      rw [List.inj_on_of_nodup_map hnodup hstate hmem hid]

end OperationTracker

/-- What the operations of an engine share. -/
structure Shared where
  tracker : OperationTracker
  sequence : UInt64
deriving DecidableEq, Repr

/-- Where an operation stands between two steps on what it shares, with the state that it
saved. -/
inductive Phase where
  | called
  /-- Its checks are running. -/
  | checking
  /-- Its state is saved and it is executed. -/
  | executing (own : SavedState)
  /-- Its execution failed. -/
  | failing (own : SavedState)
  /-- Its rollback has looked its state up. -/
  | restoring (own : SavedState) (found : Option SavedState)
  | returned (own : Option SavedState)
deriving DecidableEq, Repr

/-- The next step of an operation, as what lies before it turned out. -/
inductive Advance where
  /-- It draws a sequence number of its own. -/
  | start
  /-- Its checks refuse it. -/
  | refuse
  /-- Its checks pass with a driver: `save_state`. -/
  | save (driver : DriverEntry) (wasLoaded : Bool)
  /-- Its execution succeeds: `remove_state`. -/
  | succeed
  /-- Its execution fails. -/
  | fail
  /-- `find_state`. -/
  | find
  /-- The end of the rollback: `remove_state`, if the state was found. -/
  | finish
deriving DecidableEq, Repr

/-- One step; a step that is not the next one of the phase is passed over. -/
def Phase.step : Advance → Phase × Shared → Phase × Shared
  | .start, (.called, s) => (.checking, { s with sequence := s.sequence + 1 })
  | .refuse, (.checking, s) => (.returned none, s)
  | .save driver wasLoaded, (.checking, s) =>
    let own : SavedState := ⟨driver, wasLoaded, operationId s.sequence⟩
    (.executing own, ⟨s.tracker.saving own, s.sequence + 1⟩)
  | .succeed, (.executing own, s) =>
    (.returned (some own), { s with tracker := s.tracker.removing own.correlationId })
  | .fail, (.executing own, s) => (.failing own, s)
  | .find, (.failing own, s) => (.restoring own (s.tracker.findState own.correlationId), s)
  | .finish, (.restoring own (some _), s) =>
    (.returned (some own), { s with tracker := s.tracker.removing own.correlationId })
  | .finish, (.restoring own none, s) => (.returned (some own), s)
  | _, r => r

/-- The state that an operation has saved and not yet removed. -/
def Phase.holds : Phase → Option SavedState
  | .executing own | .failing own | .restoring own _ => some own
  | .called | .checking | .returned _ => none

/-- The state that an operation has saved, removed or not. -/
def Phase.saved : Phase → Option SavedState
  | .executing own | .failing own | .restoring own _ => some own
  | .returned own => own
  | .called | .checking => none

theorem toList_operationId (seq : UInt64) :
    (operationId seq).toList = "op-".toList ++ Nat.toDigits 10 seq.toNat := by
  rw [operationId, String.toList_append, toList_toString_u64]

/-- Two sequence numbers give two ids. -/
theorem operationId_injective : Function.Injective operationId := by
  intro a b h
  have hdigits : Nat.toDigits 10 a.toNat = Nat.toDigits 10 b.toNat := by
    have hchars := congrArg String.toList h
    rw [toList_operationId, toList_operationId] at hchars
    exact List.append_cancel_left hchars
  have hnum := congrArg (fun digits => Nat.ofDigitChars 10 digits 0) hdigits
  simp only [Nat.ofDigitChars_ten_toDigits] at hnum
  exact UInt64.toNat_inj.mp hnum

theorem Phase.saved_of_holds {p : Phase} {own : SavedState} (h : p.holds = some own) :
    p.saved = some own := by
  cases p <;> simp_all [holds, saved]

/-- What a step of an operation does to it and to what is shared. -/
inductive Phase.Stepped (p : Phase) (s : Shared) : Phase × Shared → Prop
  /-- Nothing that is shared changes. -/
  | inner (q : Phase) (hholds : q.holds = p.holds) (hsaved : q.saved = p.saved)
      (hfound : ∀ own found, q = .restoring own found → p = .restoring own found ∨
        p.holds = some own ∧ found = s.tracker.findState own.correlationId) :
      Stepped p s (q, s)
  | draws (hp : p = .called) : Stepped p s (.checking, { s with sequence := s.sequence + 1 })
  | saves (hp : p = .checking) (own : SavedState)
      (hid : own.correlationId = operationId s.sequence) :
      Stepped p s (.executing own, ⟨s.tracker.saving own, s.sequence + 1⟩)
  | removes (own : SavedState) (hp : p.holds = some own) :
      Stepped p s (.returned (some own),
        { s with tracker := s.tracker.removing own.correlationId })
  | loses (own : SavedState) (hp : p = .restoring own none) :
      Stepped p s (.returned (some own), s)

theorem Phase.step_stepped (turn : Advance) (p : Phase) (s : Shared) :
    p.Stepped s (Phase.step turn (p, s)) := by
  have hpass : p.Stepped s (p, s) := .inner p rfl rfl fun _ _ h => Or.inl h
  cases turn with
  | start =>
      cases p with
      | called => exact .draws rfl
      | _ => exact hpass
  | refuse =>
      cases p with
      | checking => exact .inner (.returned none) rfl rfl fun _ _ h => nomatch h
      | _ => exact hpass
  | save driver wasLoaded =>
      cases p with
      | checking => exact .saves rfl ⟨driver, wasLoaded, operationId s.sequence⟩ rfl
      | _ => exact hpass
  | succeed =>
      cases p with
      | executing own => exact .removes own rfl
      | _ => exact hpass
  | fail =>
      cases p with
      | executing own => exact .inner (.failing own) rfl rfl fun _ _ h => nomatch h
      | _ => exact hpass
  | find =>
      cases p with
      | failing own =>
          refine .inner (.restoring own _) rfl rfl ?_
          intro own' found hq
          cases hq
          exact Or.inr ⟨rfl, rfl⟩
      | _ => exact hpass
  | finish =>
      cases p with
      | restoring own found =>
          cases found with
          | none => exact .loses own rfl
          | some state => exact .removes own rfl
      | _ => exact hpass

/-! ## Any number of operations -/

/-- The operations of an engine, by a name for each, and what they share. -/
structure Operations (ι : Type) where
  phases : ι → Phase
  shared : Shared

/-- What can happen next: an operation takes a step, or a signal or a download draws a
sequence number. -/
inductive Happening (ι : Type) where
  | turn (i : ι) (turn : Advance)
  | draw

namespace Operations

variable {ι : Type}

/-- A new engine, before the first step of any operation. -/
def boot (sequence : UInt64) : Operations ι := ⟨fun _ => .called, .new, sequence⟩

/-- The saved states. -/
def states (s : Operations ι) : List SavedState := s.shared.tracker.savedStates

section Next

variable [DecidableEq ι]

/-- What is after a step of one operation. -/
def move (s : Operations ι) (i : ι) (after : Phase × Shared) : Operations ι :=
  ⟨Function.update s.phases i after.1, after.2⟩

@[simp] theorem phases_move_self (s : Operations ι) (i : ι) (after : Phase × Shared) :
    (s.move i after).phases i = after.1 := Function.update_self ..

@[simp] theorem shared_move (s : Operations ι) (i : ι) (after : Phase × Shared) :
    (s.move i after).shared = after.2 := rfl

theorem phases_move_of_ne (s : Operations ι) {i j : ι} (after : Phase × Shared)
    (hne : j ≠ i) : (s.move i after).phases j = s.phases j := Function.update_of_ne hne ..

/-- Whatever a step leaves as it was for the operation that takes it, it leaves for all. -/
theorem phases_move_congr {α : Type} {s : Operations ι} {i : ι} {after : Phase × Shared}
    (f : Phase → α) (h : f after.1 = f (s.phases i)) (j : ι) :
    f ((s.move i after).phases j) = f (s.phases j) := by
  by_cases hj : j = i
  · rw [hj, phases_move_self, h]
  · rw [phases_move_of_ne s _ hj]

/-- What is after the next step. -/
def next : Happening ι → Operations ι → Operations ι
  | .turn i turn, s => s.move i (Phase.step turn (s.phases i, s.shared))
  | .draw, s => { s with shared.sequence := s.shared.sequence + 1 }

/-- Whether a step draws a sequence number. -/
def draws (t : Transition (Operations ι) (Happening ι)) : Bool :=
  t.before.shared.sequence != t.after.shared.sequence

end Next

/-- What the operations can rely on. -/
structure Isolated (s : Operations ι) : Prop where
  /-- The ids in the tracker are distinct. -/
  nodup : s.shared.tracker.ids.Nodup
  /-- A state stays as long as its operation runs. -/
  held : ∀ i own, (s.phases i).holds = some own → own ∈ s.states
  /-- A rollback finds the state of its operation. -/
  found : ∀ i own found, s.phases i = .restoring own found → found = some own
  /-- Nothing is left of an operation that has returned. -/
  gone : ∀ i own, s.phases i = .returned (some own) → own.correlationId ∉ s.shared.tracker.ids

/-- What a step does to the states of the other operations: nothing. -/
structure Undisturbed (t : Transition (Operations ι) (Happening ι)) : Prop where
  /-- The state that an operation has saved is fixed. -/
  fixed : ∀ i own, (t.before.phases i).saved = some own → (t.after.phases i).saved = some own
  /-- Only its own operation removes a state. -/
  removed : ∀ state ∈ t.before.states, state ∉ t.after.states →
    ∃ i turn, t.input = .turn i turn ∧ (t.before.phases i).holds = some state

/-! ## The invariant -/

/-- What holds once so many sequence numbers are drawn, the first of them `first`: the
states in the tracker are those of the operations that run, each under a number of its own. -/
structure Numbered (first : UInt64) (drawn : Nat) (s : Operations ι) : Prop where
  sequence_eq : s.shared.sequence = first + UInt64.ofNat drawn
  number : ∀ i own, (s.phases i).saved = some own →
    ∃ n < drawn, own.correlationId = operationId (first + UInt64.ofNat n)
  apart : ∀ i j own other, i ≠ j → (s.phases i).saved = some own →
    (s.phases j).saved = some other → own.correlationId ≠ other.correlationId
  nodup : s.shared.tracker.ids.Nodup
  mem_states : ∀ state, state ∈ s.states ↔ ∃ i, (s.phases i).holds = some state
  found : ∀ i own found, s.phases i = .restoring own found → found = some own

section Numbered

variable {first : UInt64} {drawn : Nat} {s : Operations ι}

theorem numbered_boot : Numbered first 0 (boot first : Operations ι) where
  sequence_eq := by simp [boot]
  number := by simp [boot, Phase.saved]
  apart := by simp [boot, Phase.saved]
  nodup := List.nodup_nil
  mem_states := by simp [boot, states, OperationTracker.new, Phase.holds]
  found := by simp [boot]

theorem Numbered.mem_of_holds (h : Numbered first drawn s) {i : ι} {own : SavedState}
    (hown : (s.phases i).holds = some own) : own ∈ s.states :=
  (h.mem_states own).mpr ⟨i, hown⟩

theorem Numbered.findState_of_holds (h : Numbered first drawn s) {i : ι} {own : SavedState}
    (hown : (s.phases i).holds = some own) :
    s.shared.tracker.findState own.correlationId = some own :=
  OperationTracker.findState_of_mem h.nodup (h.mem_of_holds hown)

/-- A number that is not yet drawn is in no id. -/
theorem Numbered.ne_operationId (h : Numbered first drawn s) (hdrawn : drawn < 2 ^ 64) {i : ι}
    {own : SavedState} (hown : (s.phases i).saved = some own) :
    own.correlationId ≠ operationId s.shared.sequence := by
  obtain ⟨n, hn, hid⟩ := h.number i own hown
  rw [hid, h.sequence_eq]
  intro heq
  have hsum := operationId_injective heq
  have hnum : UInt64.ofNat n = UInt64.ofNat drawn := by simpa using hsum
  have hnat := congrArg UInt64.toNat hnum
  rw [UInt64.toNat_ofNat_of_lt' (hn.trans hdrawn), UInt64.toNat_ofNat_of_lt' hdrawn] at hnat
  omega

/-- An operation that has returned has left nothing. -/
theorem Numbered.isolated (h : Numbered first drawn s) : Isolated s where
  nodup := h.nodup
  held _ _ hown := h.mem_of_holds hown
  found := h.found
  gone i own hi hmem := by
    obtain ⟨state, hstate, hid⟩ := List.mem_map.mp hmem
    obtain ⟨j, hj⟩ := (h.mem_states state).mp hstate
    have hne : i ≠ j := by
      intro heq
      subst heq
      simp [hi, Phase.holds] at hj
    exact h.apart i j own state hne (by rw [hi]; rfl) (Phase.saved_of_holds hj) hid.symm

/-- A number that no operation keeps. -/
theorem Numbered.skip (h : Numbered first drawn s) :
    Numbered first (drawn + 1)
      { s with shared.sequence := s.shared.sequence + 1 } where
  sequence_eq := by
    show s.shared.sequence + 1 = first + UInt64.ofNat (drawn + 1)
    rw [h.sequence_eq, UInt64.ofNat_add, ← UInt64.add_assoc]
    rfl
  number i own hown := by
    obtain ⟨n, hn, hid⟩ := h.number i own hown
    exact ⟨n, Nat.lt_succ_of_lt hn, hid⟩
  apart := h.apart
  nodup := h.nodup
  mem_states := h.mem_states
  found := h.found

variable [DecidableEq ι]

/-- What an operation has found is its own state, after a step of another one and after a
step of its own to a phase of which this is true. -/
theorem Numbered.found_move (h : Numbered first drawn s) {i : ι} {after : Phase × Shared}
    (hafter : ∀ own found, after.1 = .restoring own found → found = some own) :
    ∀ j own found, (s.move i after).phases j = .restoring own found → found = some own := by
  intro j own found hj
  by_cases hji : j = i
  · rw [hji, phases_move_self] at hj
    exact hafter own found hj
  · rw [phases_move_of_ne s _ hji] at hj
    exact h.found j own found hj

/-- An operation that saves and removes nothing takes a step. -/
theorem Numbered.inner (h : Numbered first drawn s) {i : ι} {q : Phase}
    (hholds : q.holds = (s.phases i).holds) (hsaved : q.saved = (s.phases i).saved)
    (hfound : ∀ own found, q = .restoring own found → found = some own) :
    Numbered first drawn (s.move i (q, s.shared)) := by
  have hheld : ∀ j, ((s.move i (q, s.shared)).phases j).holds = (s.phases j).holds :=
    phases_move_congr Phase.holds hholds
  have hkept : ∀ j, ((s.move i (q, s.shared)).phases j).saved = (s.phases j).saved :=
    phases_move_congr Phase.saved hsaved
  constructor
  · exact h.sequence_eq
  · intro j own hown
    exact h.number j own (hkept j ▸ hown)
  · intro j k own other hne hown hother
    exact h.apart j k own other hne (hkept j ▸ hown) (hkept k ▸ hother)
  · exact h.nodup
  · intro state
    simp only [hheld]
    exact h.mem_states state
  · exact h.found_move hfound

/-- An operation saves its state under a new number. -/
theorem Numbered.save (h : Numbered first drawn s) (hdrawn : drawn < 2 ^ 64) {i : ι}
    (hi : s.phases i = .checking) {own : SavedState}
    (hid : own.correlationId = operationId s.shared.sequence) :
    Numbered first (drawn + 1)
      (s.move i (.executing own, ⟨s.shared.tracker.saving own, s.shared.sequence + 1⟩)) := by
  have hother : ∀ j state, (s.phases j).saved = some state →
      state.correlationId ≠ own.correlationId := by
    intro j state hstate
    rw [hid]
    exact h.ne_operationId hdrawn hstate
  have hnew : ∀ state, some own = some state → state = own := fun state hstate =>
    (Option.some.inj hstate).symm
  constructor
  · exact h.skip.sequence_eq
  · intro j state hstate
    by_cases hj : j = i
    · rw [hj, phases_move_self] at hstate
      rw [hnew state hstate]
      exact ⟨drawn, Nat.lt_succ_self drawn, hid.trans (by rw [h.sequence_eq])⟩
    · rw [phases_move_of_ne s _ hj] at hstate
      exact h.skip.number j state hstate
  · intro j k state other hne hstate hk
    by_cases hj : j = i
    · have hki : k ≠ i := fun hki => hne (hj.trans hki.symm)
      rw [hj, phases_move_self] at hstate
      rw [phases_move_of_ne s _ hki] at hk
      rw [hnew state hstate]
      exact (hother k other hk).symm
    · rw [phases_move_of_ne s _ hj] at hstate
      by_cases hki : k = i
      · rw [hki, phases_move_self] at hk
        rw [hnew other hk]
        exact hother j state hstate
      · rw [phases_move_of_ne s _ hki] at hk
        exact h.apart j k state other hne hstate hk
  · show (s.shared.tracker.saving own).ids.Nodup
    rw [OperationTracker.ids_saving, List.nodup_append]
    refine ⟨h.nodup, List.nodup_singleton _, ?_⟩
    intro id hmem id' hid' heq
    obtain ⟨state, hstate, rfl⟩ := List.mem_map.mp hmem
    obtain ⟨j, hj⟩ := (h.mem_states state).mp hstate
    exact hother j state (Phase.saved_of_holds hj) (heq.trans (List.mem_singleton.mp hid'))
  · intro state
    show state ∈ s.states ++ [own] ↔ _
    rw [List.mem_append, List.mem_singleton, h.mem_states]
    constructor
    · intro hright
      rcases hright with ⟨j, hj⟩ | rfl
      · have hne : j ≠ i := by
          intro hsame
          subst hsame
          simp [hi, Phase.holds] at hj
        exact ⟨j, by rw [phases_move_of_ne s _ hne, hj]⟩
      · exact ⟨i, by rw [phases_move_self]; rfl⟩
    · intro ⟨j, hj⟩
      by_cases hne : j = i
      · rw [hne, phases_move_self] at hj
        exact Or.inr (hnew state hj)
      · rw [phases_move_of_ne s _ hne] at hj
        exact Or.inl ⟨j, hj⟩
  · exact h.found_move fun state found hj => nomatch hj

/-- An operation removes its state and returns. -/
theorem Numbered.remove (h : Numbered first drawn s) {i : ι} {own : SavedState}
    (hi : (s.phases i).holds = some own) :
    Numbered first drawn
      (s.move i (.returned (some own),
        { s.shared with tracker := s.shared.tracker.removing own.correlationId })) := by
  have hsaved : (s.phases i).saved = some own := Phase.saved_of_holds hi
  have hkept : ∀ shared j, ((s.move i (.returned (some own), shared)).phases j).saved =
      (s.phases j).saved := by
    intro shared
    exact phases_move_congr Phase.saved hsaved.symm
  constructor
  · exact h.sequence_eq
  · intro j state hstate
    exact h.number j state (hkept _ j ▸ hstate)
  · intro j k state other hne hstate hother
    exact h.apart j k state other hne (hkept _ j ▸ hstate) (hkept _ k ▸ hother)
  · exact h.nodup.sublist (OperationTracker.ids_removing_sublist _ _)
  · intro state
    show state ∈ (s.shared.tracker.removing own.correlationId).savedStates ↔ _
    rw [OperationTracker.mem_removing]
    constructor
    · intro ⟨hmem, hid⟩
      obtain ⟨j, hj⟩ := (h.mem_states state).mp hmem
      have hne : j ≠ i := by
        intro heq
        subst heq
        rw [hi] at hj
        exact hid (by rw [Option.some.inj hj])
      exact ⟨j, by rw [phases_move_of_ne s _ hne, hj]⟩
    · intro ⟨j, hj⟩
      by_cases hne : j = i
      · rw [hne, phases_move_self] at hj
        cases hj
      · rw [phases_move_of_ne s _ hne] at hj
        exact ⟨h.mem_of_holds hj, h.apart j i state own hne (Phase.saved_of_holds hj) hsaved⟩
  · exact h.found_move fun state found hj => nomatch hj

/-- A step keeps the invariant as long as the counter does not come around. -/
theorem Numbered.next (h : Numbered first drawn s) (input : Happening ι)
    (hdrawn : draws ⟨s, input, Operations.next input s⟩ = true → drawn < 2 ^ 64) :
    Numbered first (drawn + (draws ⟨s, input, Operations.next input s⟩).toNat)
      (Operations.next input s) := by
  have hsame : (s.shared.sequence != s.shared.sequence) = false := bne_self_eq_false _
  have hother : (s.shared.sequence != s.shared.sequence + 1) = true := by simp
  cases input with
  | draw =>
      rw [show draws ⟨s, .draw, Operations.next .draw s⟩ = true from hother]
      exact h.skip
  | turn i turn =>
      simp only [Operations.next, draws] at hdrawn ⊢
      have hstep := Phase.step_stepped turn (s.phases i) s.shared
      generalize Phase.step turn (s.phases i, s.shared) = after at hstep hdrawn ⊢
      cases hstep with
      | inner q hholds hsaved hfound =>
          rw [shared_move, hsame]
          refine h.inner hholds hsaved fun own found hq => ?_
          rcases hfound own found hq with hi | ⟨hi, rfl⟩
          · exact h.found i own found hi
          · exact h.findState_of_holds hi
      | draws hp =>
          rw [shared_move, hother]
          have hidle : Numbered first drawn (s.move i (.checking, s.shared)) :=
            h.inner (by rw [hp]; rfl) (by rw [hp]; rfl) fun _ _ hq => nomatch hq
          exact hidle.skip
      | saves hp own hid =>
          rw [shared_move] at hdrawn ⊢
          rw [hother] at hdrawn ⊢
          exact h.save (hdrawn rfl) hp hid
      | removes own hp =>
          rw [shared_move, hsame]
          exact h.remove hp
      | loses own hp => cases h.found i own none hp

theorem Numbered.undisturbed (h : Numbered first drawn s) (input : Happening ι) :
    Undisturbed ⟨s, input, Operations.next input s⟩ := by
  cases input with
  | draw => exact ⟨fun _ _ hown => hown, fun _ hmem hnot => absurd hmem hnot⟩
  | turn i turn =>
      simp only [Operations.next]
      have hstep := Phase.step_stepped turn (s.phases i) s.shared
      generalize Phase.step turn (s.phases i, s.shared) = after at hstep
      constructor
      · intro j own hown
        by_cases hj : j = i
        · rw [hj] at hown ⊢
          rw [phases_move_self]
          cases hstep with
          | inner q hholds hsaved hfound => exact hsaved.trans hown
          | draws hp => simp [hp, Phase.saved] at hown
          | saves hp state hid => simp [hp, Phase.saved] at hown
          | removes state hp => exact (Phase.saved_of_holds hp).symm.trans hown
          | loses state hp => cases h.found i state none hp
        · rw [phases_move_of_ne s _ hj]
          exact hown
      · intro state hmem hnot
        cases hstep with
        | inner => exact absurd hmem hnot
        | draws => exact absurd hmem hnot
        | saves hp own hid => exact absurd (List.mem_append_left [own] hmem) hnot
        | removes own hp =>
            refine ⟨i, turn, rfl, ?_⟩
            have hid : state.correlationId = own.correlationId := by
              by_contra hne
              exact hnot (OperationTracker.mem_removing.mpr ⟨hmem, hne⟩)
            rw [List.inj_on_of_nodup_map h.nodup hmem (h.mem_of_holds hp) hid]
            exact hp
        | loses => exact absurd hmem hnot

/-- The run lemma. -/
theorem Numbered.run (h : Numbered first drawn s) {inputs : List (Happening ι)}
    (hdrawn : drawn + (transitions Operations.next s inputs).countP draws < 2 ^ 64) :
    ∀ t ∈ transitions Operations.next s inputs,
      Isolated t.before ∧ Isolated t.after ∧ Undisturbed t := by
  induction inputs generalizing s drawn with
  | nil => simp
  | cons input inputs ih =>
      rw [transitions_cons, List.countP_cons] at hdrawn
      rw [transitions_cons, List.forall_mem_cons]
      have hnext := h.next input fun _ => by omega
      refine ⟨⟨h.isolated, hnext.isolated, h.undisturbed input⟩, ih hnext ?_⟩
      cases hdraws : draws ⟨s, input, Operations.next input s⟩ <;>
        simp only [hdraws, Bool.toNat_true, Bool.toNat_false, Bool.false_eq_true, if_true,
          if_false] at hdrawn ⊢ <;> omega

end Numbered

/-- In every run of any number of operations in which fewer than `2 ^ 64` sequence numbers are
drawn, the ids in the tracker are distinct, each operation finds its own state, its own state
alone is removed by it, and nothing is left of it when it has returned. -/
theorem isolated_of_run [DecidableEq ι] (first : UInt64) (inputs : List (Happening ι))
    (hdrawn : (transitions next (boot first) inputs).countP draws < 2 ^ 64) :
    ∀ t ∈ transitions next (boot first) inputs,
      Isolated t.before ∧ Isolated t.after ∧ Undisturbed t :=
  numbered_boot.run (by rwa [Nat.zero_add])

/-- Two operations for one driver, the one rolled back while the other is executed. -/
def overlap : List (Happening Bool) :=
  let save := Advance.save (e1000eDriver .available) false
  [.turn true .start, .turn false .start, .turn true save, .draw, .turn false save,
    .turn true .fail, .turn true .find, .turn false .succeed, .turn true .finish]

theorem isolated_overlap :
    overlap.length = 9 ∧ ∀ t ∈ transitions next (boot 0) overlap,
      Isolated t.before ∧ Isolated t.after ∧ Undisturbed t :=
  ⟨rfl, isolated_of_run 0 overlap (by
    have hlength := List.countP_le_length (p := draws) (l := transitions next (boot 0) overlap)
    have hnine : (transitions next (boot 0) overlap).length = 9 := rfl
    omega)⟩

end Operations

/-! ## The engine takes these steps -/

/-- The part of the world that operations share. -/
def World.shared (w : World) : Shared := ⟨w.tracker, w.sequence⟩

/-- Nothing that operations share changes, and neither does the inventory. -/
def Idle (w w' : World) : Prop := w'.inventory = w.inventory ∧ w'.shared = w.shared

instance : Std.Refl Idle := ⟨fun _ => ⟨rfl, rfl⟩⟩

instance : IsTrans World Idle := ⟨fun _ _ _ h h' => ⟨h'.1.trans h.1, h'.2.trans h.2⟩⟩

theorem frames_idle : Frames Idle fun _ => True :=
  ⟨fun _ _ _ => ⟨rfl, rfl⟩, fun _ _ => ⟨rfl, rfl⟩, fun _ _ => ⟨rfl, rfl⟩⟩

namespace DriverExecutionEngine

variable (engine : DriverExecutionEngine) (env : Env)

/-- A rollback looks the state up, and removes it at its end if it was found. -/
theorem rollbackOperation_phases (own : SavedState) (caller : String) (w : World) :
    wp (engine.rollbackOperation env own.correlationId caller)
      (fun _ w' => final Phase.step (.failing own, w.shared) [.find, .finish] =
        (.returned (some own), w'.shared)) w := by
  have hfound : ∀ found, w.tracker.findState own.correlationId = found →
      final Phase.step (.failing own, w.shared) [.find, .finish] =
        Phase.step .finish (.restoring own found, w.shared) := by
    intro found hfind
    rw [← hfind]
    rfl
  rw [rollbackOperation, wp_bind, wp_get]
  cases hfind : w.tracker.findState own.correlationId with
  | none =>
      refine wp_mono ((frames_idle.audit (fun _ _ => trivial) ..).wp w) fun _ w' h' => ?_
      rw [hfound none hfind, h'.2]
      rfl
  | some saved =>
      rw [hfound (some saved) hfind]
      have hrest : ∀ w₁, w₁.shared = w.shared → wp
          (do
            audit env .driverInstall .warning "rollback_completed" caller
              ("Rollback completed for operation '" ++ own.correlationId ++
                "', restored driver '" ++ saved.driver.id.name ++ "'")
            OperationTracker.removeState own.correlationId)
          (fun _ w' => Phase.step .finish (.restoring own (some saved), w.shared) =
            (.returned (some own), w'.shared)) w₁ := by
        intro w₁ h₁
        refine (frames_idle.audit (fun _ _ => trivial) ..).wp_bind fun _ w₂ (h₂ : Idle w₁ w₂) => ?_
        rw [← h₁, ← h₂.2]
        exact Eq.refl _
      dsimp only
      rw [wp_bind, wp_modify, wp_ite]
      constructor
      · intro _
        rw [wp_bind, wp_get]
        refine Keeps.wp_bind (Keeps.bind (frames_idle.loadModule (fun _ _ => trivial) _)
          fun _ => Keeps.pure _) fun _ w₁ (h₁ : Idle _ w₁) => ?_
        exact hrest w₁ h₁.2
      · intro _
        exact hrest _ rfl

/-- The second stage saves a state of the driver, and removes it in the end. -/
theorem transact_phases {driver : DriverEntry} {caller : String}
    {execute : StateM World (ServiceResult Unit)} {commit : StateM World Unit}
    {success : OperationResult} {driverName failure : String} {w : World}
    (hexecute : Keeps Idle execute)
    (hcommit : ∀ w₁, wp commit (fun _ w' => w'.shared = w₁.shared) w₁) :
    wp (engine.transact env driver caller execute commit success driverName failure)
      (fun _ w' => ∃ own turns, own.driver = driver ∧
        final Phase.step (.checking, w.shared) turns = (.returned (some own), w'.shared)) w := by
  obtain ⟨own, hown⟩ : ∃ own : SavedState,
    own = ⟨driver, isLoaded w driver.id.name, operationId w.sequence⟩ := ⟨_, rfl⟩
  have hid : operationId w.sequence = own.correlationId := by rw [hown]
  have hsaved : Phase.step (.save driver (isLoaded w driver.id.name)) (.checking, w.shared) =
      (.executing own, (w.saving driver).shared) := by
    rw [hown]
    rfl
  rw [transact, wp_bind, saveState_wp]
  show wp _ _ (w.saving driver)
  refine hexecute.wp_bind fun r w₁ h₁ => ?_
  cases r with
  | ok u =>
      refine wp_bind_of (hcommit w₁) ?_
      intro _ w₂ h₂
      refine ⟨own, [.save driver (isLoaded w driver.id.name), .succeed], by rw [hown], ?_⟩
      rw [final_cons, hsaved, ← h₁.2, ← h₂]
      show (_, _) = (_, World.shared _)
      rw [← hid]
      rfl
  | error e =>
      have hback := engine.rollbackOperation_phases env own caller w₁
      rw [← hid] at hback
      refine wp_bind_of hback ?_
      intro _ w₂ h₂
      refine ⟨own, [.save driver (isLoaded w driver.id.name), .fail, .find, .finish],
        by rw [hown], ?_⟩
      rw [final_cons, hsaved, ← h₁.2]
      exact h₂

/-- A call of the engine takes the steps of an operation, from its beginning to its return.
What it saves is the driver with which it passes its checks. -/
theorem perform_phases (op : Operation) (w : World) :
    wp (engine.perform env op)
      (fun _ w' => ∃ own turns,
        final Phase.step (.called, w.shared) turns = (.returned own, w'.shared) ∧
          ∀ state, own = some state → engine.Admits env op w state.driver) w := by
  have hcheck : wp (engine.checks env op)
      (fun _ w' => Phase.step .start (.called, w.shared) = (.checking, w'.shared)) w := by
    refine wp_mono (frames_idle.checks fun _ _ => trivial) fun _ w' h' => ?_
    rw [h'.2]
    rfl
  rw [wp_def] at hcheck
  have hrefused : ∀ (res : OperationResult) w₁,
      (engine.checks env op).run w = (.error res, w₁) → ∃ own turns,
        final Phase.step (.called, w.shared) turns = (.returned own, w₁.shared) ∧
          ∀ state, own = some state → engine.Admits env op w state.driver := by
    intro res w₁ hrun
    rw [hrun] at hcheck
    refine ⟨none, [.start, .refuse], ?_, fun state hstate => ?_⟩
    · rw [final_cons, hcheck]
      rfl
    · cases hstate
  have hthen : ∀ {second : DriverEntry → StateM World OperationResult},
      (∀ d w₁, wp (second d) (fun _ w' => ∃ own turns, own.driver = d ∧
        final Phase.step (.checking, w₁.shared) turns = (.returned (some own), w'.shared)) w₁) →
      ∀ d w₁, (engine.checks env op).run w = (.ok d, w₁) →
      wp (second d) (fun _ w' => ∃ own turns,
        final Phase.step (.called, w.shared) turns = (.returned own, w'.shared) ∧
          ∀ state, own = some state → engine.Admits env op w state.driver) w₁ := by
    intro second hsecond d w₁ hrun
    rw [hrun] at hcheck
    refine wp_mono (hsecond d w₁) fun _ w' hphases => ?_
    obtain ⟨own, turns, hdriver, hturns⟩ := hphases
    refine ⟨some own, .start :: turns, by rw [final_cons, hcheck, hturns], ?_⟩
    intro state hstate
    rw [← Option.some.inj hstate, hdriver, Admits, hrun]
  have hcommit : ∀ {change : World → World} {category action caller details},
      (∀ w₁, (change w₁).shared = w₁.shared) → ∀ w₁,
      wp (do modify change; audit env category .info action caller details)
        (fun _ w' => w'.shared = w₁.shared) w₁ := by
    intro change category action caller details hchange w₁
    rw [wp_bind, wp_modify]
    refine wp_mono ((frames_idle.audit (fun _ _ => trivial) ..).wp _) fun _ w' h' => ?_
    exact h'.2.trans (hchange w₁)
  cases op with
  | install request caller devices =>
      refine engine.wp_stages env hrefused (hthen fun d w₁ => ?_)
      refine engine.transact_phases env ?_ (hcommit fun _ => rfl)
      exact frames_idle.executeInstall fun _ _ => trivial
  | remove request caller =>
      refine engine.wp_stages env hrefused (hthen fun d w₁ => ?_)
      refine engine.transact_phases env ?_ (hcommit fun _ => rfl)
      have hremove : ∀ force, Keeps Idle (executeRemove env d force) :=
        frames_idle.executeRemove fun e (_ : engine.Executes d e) => trivial
      exact hremove _
  | update request caller =>
      refine engine.wp_stages env hrefused (hthen fun d w₁ => ?_)
      refine engine.transact_phases env ?_ (hcommit fun _ => rfl)
      exact frames_idle.executeUpdate fun _ _ => trivial

end DriverExecutionEngine

end MissionOs.Driverd
