import Mathlib.Data.List.Basic
import Mathlib.Data.List.Induction

/-!
# The logger of a process

`init`, `init_force`, `set_level`, `is_initialized` and `log` of the global logger.  Each of them
holds the lock while it runs, so that a run is a list of calls, from whatever threads they come.
A backend that panics over a record poisons the lock, and nothing unlocks it again.

What counts at a moment is said by the calls before it: the backend of the last forced
initialisation or else of the first one, and the level that was set last (`word`).
`routed_by_word` says that the records go where the word says, until a backend panics.
-/

namespace MissionOs.Core.Logging

/-! ## The logger -/

/-- `Level`. -/
inductive Level where
  | error
  | warn
  | info
  | debug
  | trace
deriving DecidableEq, Repr

/-- A level `as u8`. -/
def Level.toU8 : Level → UInt8
  | error => 0
  | warn => 1
  | info => 2
  | debug => 3
  | trace => 4

/-- `Record`. -/
structure Record where
  level : Level
  message : String
  moduleName : String
  fields : List (String × String)
deriving DecidableEq, Repr

/-- `ErrorCode`, as far as the logger returns it. -/
inductive ErrorCode where
  | busy
  | internalError
deriving DecidableEq, Repr

/-- `Error` of the logger. -/
structure Error where
  code : ErrorCode
  message : String
deriving DecidableEq, Repr

variable {β : Type}

/-- `LoggerState`, with any type of backends. -/
inductive LoggerState (β : Type) where
  | uninitialized
  | initialized (backend : β) (level : Level)
deriving DecidableEq, Repr

/-- `LOGGER`: the state, and whether the lock is poisoned. -/
structure Logger (β : Type) where
  state : LoggerState β
  poisoned : Bool
deriving DecidableEq, Repr

namespace Logger

/-- `init_with`. -/
def initWith (logger : Logger β) (backend : β) (level : Level) (force : Bool) :
    Except Error Unit × Logger β :=
  if logger.poisoned then
    (.error ⟨.internalError, "logger mutex poisoned — this is a bug"⟩, logger)
  else
    match logger.state with
    | .uninitialized => (.ok (), { logger with state := .initialized backend level })
    | .initialized _ _ =>
        if force then (.ok (), { logger with state := .initialized backend level })
        else (.error ⟨.busy, "logger is already initialized; use init_force to replace"⟩, logger)

/-- `init`. -/
def init (logger : Logger β) (backend : β) (level : Level) : Except Error Unit × Logger β :=
  logger.initWith backend level false

/-- `init_force`. -/
def initForce (logger : Logger β) (backend : β) (level : Level) : Except Error Unit × Logger β :=
  logger.initWith backend level true

/-- `log`: the backend that gets the record, if there is one.  `panics` says whether that panics
over it. -/
def log (logger : Logger β) (record : Record) (panics : Bool) : Option β × Logger β :=
  if logger.poisoned then (none, logger)
  else
    match logger.state with
    | .uninitialized => (none, logger)
    | .initialized backend filterLevel =>
        if record.level.toU8 ≤ filterLevel.toU8 then
          (some backend, { logger with poisoned := panics })
        else (none, logger)

/-- `set_level`. -/
def setLevel (logger : Logger β) (level : Level) : Except Error Unit × Logger β :=
  if logger.poisoned then
    (.error ⟨.internalError, "logger mutex poisoned — cannot set level"⟩, logger)
  else
    match logger.state with
    | .initialized backend _ => (.ok (), { logger with state := .initialized backend level })
    | .uninitialized =>
        (.error ⟨.busy, "logger is not initialized — cannot set level"⟩, logger)

/-- `is_initialized`. -/
def isInitialized (logger : Logger β) : Bool :=
  if logger.poisoned then false
  else
    match logger.state with
    | .initialized _ _ => true
    | .uninitialized => false

end Logger

/-! ## Runs -/

/-- A call of the interface. -/
inductive Call (β : Type) where
  | init (backend : β) (level : Level)
  | initForce (backend : β) (level : Level)
  | setLevel (level : Level)
  | isInitialized
  | log (record : Record) (panics : Bool)
deriving DecidableEq, Repr

/-- The logger after a call. -/
def Logger.after (logger : Logger β) : Call β → Logger β
  | .init backend level => (logger.init backend level).2
  | .initForce backend level => (logger.initForce backend level).2
  | .setLevel level => (logger.setLevel level).2
  | .isInitialized => logger
  | .log record panics => (logger.log record panics).2

/-- The logger after the calls of a run. -/
def run (calls : List (Call β)) : Logger β := calls.foldl Logger.after ⟨.uninitialized, false⟩

theorem run_concat (calls : List (Call β)) (c : Call β) :
    run (calls ++ [c]) = (run calls).after c := by
  rw [run, List.foldl_append]
  rfl

/-! ## What a run says -/

namespace Call

/-- What a call initialises the logger with. -/
def start? : Call β → Option (β × Level)
  | init backend level => some (backend, level)
  | initForce backend level => some (backend, level)
  | _ => none

/-- The backend that a call forces. -/
def backend? : Call β → Option β
  | initForce backend _ => some backend
  | _ => none

/-- The level that a call sets. -/
def level? : Call β → Option Level
  | initForce _ level => some level
  | setLevel level => some level
  | _ => none

end Call

/-- What counts after the calls that follow an initialisation: the last backend that they force
and the last level that they set. -/
def settle (start : β × Level) (calls : List (Call β)) : β × Level :=
  ((calls.filterMap Call.backend?).getLastD start.1, (calls.filterMap Call.level?).getLastD start.2)

/-- What counts after a run: what it says from the first initialisation on. -/
def word : List (Call β) → Option (β × Level)
  | [] => none
  | c :: calls =>
      match c.start? with
      | none => word calls
      | some start => some (settle start calls)

theorem settle_concat (start : β × Level) (calls : List (Call β)) (c : Call β) :
    settle start (calls ++ [c]) =
      (c.backend?.getD (settle start calls).1, c.level?.getD (settle start calls).2) := by
  rw [settle, settle, List.filterMap_append, List.filterMap_append]
  cases c <;> simp [Call.backend?, Call.level?]

/-- What one more call makes of the word. -/
def further (c : Call β) : Option (β × Level) → Option (β × Level)
  | none => c.start?
  | some p => some (c.backend?.getD p.1, c.level?.getD p.2)

theorem word_concat (calls : List (Call β)) (c : Call β) :
    word (calls ++ [c]) = further c (word calls) := by
  induction calls with
  | nil => cases c <;> rfl
  | cons first calls ih =>
      rw [List.cons_append, word, word]
      cases first.start? with
      | none => exact ih
      | some start => exact congrArg some (settle_concat start calls c)

/-- The word lets a record through to a backend. -/
def Passes (calls : List (Call β)) (record : Record) (backend : β) : Prop :=
  ∃ level, word calls = some (backend, level) ∧ record.level.toU8 ≤ level.toU8

/-- A backend has panicked over a record that it got. -/
def Panicked (calls : List (Call β)) : Prop :=
  ∃ before record after, calls = before ++ .log record true :: after ∧
    ∃ backend, Passes before record backend

theorem panicked_concat {calls : List (Call β)} {c : Call β} :
    Panicked (calls ++ [c]) ↔ Panicked calls ∨
      ∃ record, c = .log record true ∧ ∃ backend, Passes calls record backend := by
  constructor
  · rintro ⟨before, record, after, hcalls, hpasses⟩
    rcases List.eq_nil_or_concat after with rfl | ⟨after, last, rfl⟩
    · obtain ⟨rfl, hc⟩ := List.append_inj' hcalls rfl
      exact Or.inr ⟨record, (List.cons.inj hc).1, hpasses⟩
    · rw [List.concat_eq_append, ← List.cons_append, ← List.append_assoc] at hcalls
      obtain ⟨rfl, -⟩ := List.append_inj' hcalls rfl
      exact Or.inl ⟨before, record, after, rfl, hpasses⟩
  · rintro (⟨before, record, after, rfl, hpasses⟩ | ⟨record, rfl, hpasses⟩)
    · exact ⟨before, record, after ++ [c], by simp, hpasses⟩
    · exact ⟨calls, record, [], rfl, hpasses⟩

/-! ## The logger follows the word -/

/-- The state that a word describes. -/
def stateOf : Option (β × Level) → LoggerState β
  | none => .uninitialized
  | some p => .initialized p.1 p.2

/-- The lock is poisoned if a backend has panicked, and up to then the state is what the word
describes. -/
structure Follows (logger : Logger β) (calls : List (Call β)) : Prop where
  poisoned : logger.poisoned = true ↔ Panicked calls
  state : ¬ Panicked calls → logger.state = stateOf (word calls)

theorem Follows.eq_of_not {logger : Logger β} {calls : List (Call β)} (h : Follows logger calls)
    (hpanicked : ¬ Panicked calls) : logger = ⟨stateOf (word calls), false⟩ := by
  have hpoisoned : logger.poisoned = false := by
    rw [← Bool.not_eq_true, h.poisoned]
    exact hpanicked
  rw [← h.state hpanicked, ← hpoisoned]

theorem Logger.after_of_poisoned {logger : Logger β} (h : logger.poisoned = true) (c : Call β) :
    logger.after c = logger := by
  cases c <;> simp [after, init, initForce, initWith, setLevel, log, h]

/-- As long as the lock is not poisoned, a call changes the state as it changes the word. -/
theorem after_stateOf (w : Option (β × Level)) (c : Call β) :
    ((⟨stateOf w, false⟩ : Logger β).after c).state = stateOf (further c w) := by
  cases w with
  | none => cases c <;> rfl
  | some p =>
      cases c with
      | log record panics =>
          simp only [Logger.after, Logger.log, stateOf]
          split_ifs <;> rfl
      | init backend level => rfl
      | initForce backend level => rfl
      | setLevel level => rfl
      | isInitialized => rfl

/-- Only a backend that gets a record and panics over it poisons the lock. -/
theorem after_poisoned {calls : List (Call β)} {c : Call β} :
    ((⟨stateOf (word calls), false⟩ : Logger β).after c).poisoned = true ↔
      ∃ record, c = .log record true ∧ ∃ backend, Passes calls record backend := by
  unfold Passes
  cases word calls with
  | none => cases c <;> simp [stateOf, Logger.after, Logger.init, Logger.initForce, Logger.initWith,
      Logger.setLevel, Logger.log]
  | some p =>
      obtain ⟨backend, level⟩ := p
      cases c with
      | log record panics =>
          by_cases hle : record.level.toU8 ≤ level.toU8
          · simp [stateOf, Logger.after, Logger.log, hle]
          · simp [stateOf, Logger.after, Logger.log, hle]
      | init backend level => simp [stateOf, Logger.after, Logger.init, Logger.initWith]
      | initForce backend level => simp [stateOf, Logger.after, Logger.initForce, Logger.initWith]
      | setLevel level => simp [stateOf, Logger.after, Logger.setLevel]
      | isInitialized => simp [stateOf, Logger.after]

theorem follows_run (calls : List (Call β)) : Follows (run calls) calls := by
  induction calls using List.reverseRecOn with
  | nil =>
      constructor
      · refine iff_of_false Bool.false_ne_true ?_
        rintro ⟨before, record, after, hcalls, -⟩
        simp at hcalls
      · exact fun _ => rfl
  | append_singleton calls c ih =>
      rw [run_concat]
      by_cases hpanicked : Panicked calls
      · have hafter := Logger.after_of_poisoned (ih.poisoned.mpr hpanicked) c
        have hnow : Panicked (calls ++ [c]) := panicked_concat.mpr (Or.inl hpanicked)
        rw [hafter]
        exact ⟨iff_of_true (ih.poisoned.mpr hpanicked) hnow, fun h => absurd hnow h⟩
      · rw [ih.eq_of_not hpanicked]
        constructor
        · rw [after_poisoned, panicked_concat, or_iff_right hpanicked]
        · intro _
          rw [after_stateOf, word_concat]

/-- The logger after a run, whatever the calls are and whatever threads make them.  A record goes
to the backend of the word if its level passes that of the word, and to nobody else; once a backend
has panicked, nothing is written, set or initialised any more, by force neither. -/
theorem routed_by_word (calls : List (Call β)) :
    (∀ record panics backend, ((run calls).log record panics).1 = some backend ↔
        ¬ Panicked calls ∧ Passes calls record backend) ∧
      ((run calls).isInitialized = true ↔ ¬ Panicked calls ∧ word calls ≠ none) ∧
      (∀ backend level, ((run calls).init backend level).1 = .ok () ↔
        ¬ Panicked calls ∧ word calls = none) ∧
      (∀ backend level, ((run calls).initForce backend level).1 = .ok () ↔ ¬ Panicked calls) ∧
      ∀ level, ((run calls).setLevel level).1 = .ok () ↔ ¬ Panicked calls ∧ word calls ≠ none := by
  have hfollows := follows_run calls
  by_cases hpanicked : Panicked calls
  · have hpoisoned := hfollows.poisoned.mpr hpanicked
    simp [Logger.log, Logger.isInitialized, Logger.init, Logger.initForce, Logger.initWith,
      Logger.setLevel, hpoisoned, hpanicked]
  · rw [hfollows.eq_of_not hpanicked]
    unfold Passes
    cases word calls with
    | none =>
        simp [Logger.log, Logger.isInitialized, Logger.init, Logger.initForce, Logger.initWith,
          Logger.setLevel, stateOf, hpanicked]
    | some p =>
        obtain ⟨backend, level⟩ := p
        refine ⟨?_, ?_, ?_, ?_, ?_⟩
        · intro record panics backend'
          by_cases hle : record.level.toU8 ≤ level.toU8
          · simp [Logger.log, stateOf, hpanicked, hle]
          · simp [Logger.log, stateOf, hpanicked, hle]
        · simp [Logger.isInitialized, stateOf, hpanicked]
        · simp [Logger.init, Logger.initWith, stateOf, hpanicked]
        · simp [Logger.initForce, Logger.initWith, stateOf, hpanicked]
        · simp [Logger.setLevel, stateOf, hpanicked]

end MissionOs.Core.Logging
