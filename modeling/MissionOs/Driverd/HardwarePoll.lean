import MissionOs.Driverd.Hwdetect
import MissionOs.Driverd.Rescan

/-!
# The poll for hardware events

`UdevMonitor::poll_events` of `hwdetect.rs` and the task of `main.rs` that calls it: the
modification times of six directories in whole seconds are compared with those at the last poll,
and if one of them is later, the inventory is scanned again.  A modification time counts as seen
also when the directory cannot be listed then.

One poll asks about each subsystem on its own (`pollEvents_eq`), and what the monitor remembers is
the last time of each subsystem that any poll has seen (`Remembers`).
-/

namespace MissionOs.Driverd

open MissionOs.Rust MissionOs.Lib

/-! ## The monitor -/

/-- What a poll finds of a subsystem: the modification time of its directory in seconds, and the
devices in it, none if the directory cannot be listed. -/
structure Reading where
  mtime : Option UInt64
  entries : Option (List SysfsDevice)

/-- What a poll finds. -/
abbrev SysfsView := String → Reading

/-- `UdevEvent`. -/
inductive UdevEvent where
  | deviceAdded (device : HardwareDevice)
  | deviceRemoved (modalias : String)
  | deviceChanged (device : HardwareDevice)

/-- `UdevMonitor`. -/
structure UdevMonitor where
  lastPoll : String → Option UInt64

/-- `UdevMonitor::new`. -/
def UdevMonitor.new : UdevMonitor := ⟨fun _ => none⟩

/-- `last_poll.insert`. -/
def UdevMonitor.saw (monitor : UdevMonitor) (subsystem : String) (mtime : UInt64) : UdevMonitor :=
  ⟨fun s => if s = subsystem then some mtime else monitor.lastPoll s⟩

/-- The device of an event for a subsystem without devices. -/
def unidentifiedDevice (subsystem : String) : HardwareDevice where
  hardwareId := {
    modalias := ""
    vendorId := ""
    deviceId := ""
    subsystemVendorId := none
    subsystemDeviceId := none
    classCode := none
    bus := subsystem
    currentDriver := none }
  deviceName := ""
  vendorName := none
  busType := .ofSubsystem subsystem
  boundDriver := none
  operational := false
  matchedDrivers := []

section Poll

variable (unicode : String → String) (view : SysfsView)

/-- The event of a subsystem. -/
def changeEvent (subsystem : String) : Panics (Option UdevEvent) :=
  match (view subsystem).entries with
  | some entries => do
    let newDevices ← enumerateSubsystem unicode subsystem entries
    return some (.deviceChanged (newDevices.head?.getD (unidentifiedDevice subsystem)))
  | none => return none

/-- One round of the loop of `poll_events`. -/
def pollSubsystem (s : UdevMonitor × List UdevEvent) (subsystem : String) :
    Panics (UdevMonitor × List UdevEvent) :=
  match (view subsystem).mtime with
  | none => return s
  | some mtime => do
    let last := (s.1.lastPoll subsystem).getD 0
    let event ← if last < mtime then changeEvent unicode view subsystem else pure none
    return (s.1.saw subsystem mtime, s.2 ++ event.toList)

/-- `poll_events`. -/
def pollEvents (monitor : UdevMonitor) : Panics (UdevMonitor × List UdevEvent) :=
  busSubsystems.foldlM (pollSubsystem unicode view) (monitor, [])

end Poll

/-! ## The task -/

/-- The daemon with its monitor.  There is none any more after an enumeration has panicked: the
task is gone, and so is the lock of the monitor. -/
structure Polling where
  monitor : Option UdevMonitor
  world : World

/-- What comes next: a round of the task, or a turn of something else. -/
inductive PollInput where
  | tick (view : SysfsView) (env : Env)
  | turn (t : Turn)

/-- One step.  The scanner's lock is not poisoned, and the rescan of a round does not panic. -/
def AppState.poll (state : AppState) (unicode : String → String) (p : Polling) :
    PollInput → Polling
  | .turn t => { p with world := state.turn t p.world }
  | .tick view env =>
    match p.monitor with
    | none => p
    | some monitor =>
      match pollEvents unicode view monitor with
      | .error _ => { p with monitor := none }
      | .ok (monitor', events) =>
        { monitor := some monitor'
          world := if events.isEmpty then p.world else state.turn (.pollHardware env) p.world }

/-- The daemon after some inputs. -/
def AppState.polling (state : AppState) (unicode : String → String) (w : World)
    (inputs : List PollInput) : Polling :=
  inputs.foldl (state.poll unicode) ⟨some .new, w⟩

/-! ## One poll -/

section OnePoll

variable {unicode : String → String} {view : SysfsView}

/-- Whether the poll asks for the devices of a subsystem. -/
def eventOf (unicode : String → String) (view : SysfsView) (monitor : UdevMonitor)
    (subsystem : String) : Panics (Option UdevEvent) :=
  match (view subsystem).mtime with
  | none => return none
  | some mtime =>
    if (monitor.lastPoll subsystem).getD 0 < mtime then changeEvent unicode view subsystem
    else return none

/-- The monitor after a look at some subsystems. -/
def UdevMonitor.after (monitor : UdevMonitor) (view : SysfsView) (subsystems : List String) :
    UdevMonitor :=
  ⟨fun s => if s ∈ subsystems then (view s).mtime.or (monitor.lastPoll s) else monitor.lastPoll s⟩

theorem pollSubsystem_eq (monitor : UdevMonitor) (events : List UdevEvent) (subsystem : String) :
    pollSubsystem unicode view (monitor, events) subsystem = do
      let event ← eventOf unicode view monitor subsystem
      return (monitor.after view [subsystem], events ++ event.toList) := by
  rw [pollSubsystem, eventOf]
  cases hmtime : (view subsystem).mtime with
  | none =>
      have hsame : monitor.after view [subsystem] = monitor := by
        rw [UdevMonitor.after]
        congr 1
        funext s
        split_ifs with hs
        · rw [List.mem_singleton.mp hs, hmtime, Option.none_or]
        · rfl
      rw [hsame]
      show pure _ = pure _
      rw [Option.toList_none, List.append_nil]
  | some mtime =>
      have hsaw : monitor.saw subsystem mtime = monitor.after view [subsystem] := by
        rw [UdevMonitor.after, UdevMonitor.saw]
        congr 1
        funext s
        simp only [List.mem_singleton]
        split_ifs with hs
        · rw [hs, hmtime, Option.some_or]
        · rfl
      dsimp only
      rw [hsaw]
      split_ifs
      · rfl
      · rfl

theorem UdevMonitor.after_after (monitor : UdevMonitor) (subsystem : String)
    (subsystems : List String) :
    (monitor.after view [subsystem]).after view subsystems =
      monitor.after view (subsystem :: subsystems) := by
  rw [UdevMonitor.after, UdevMonitor.after, UdevMonitor.after]
  congr 1
  funext s
  by_cases hs : s = subsystem
  · subst hs
    cases hmtime : (view s).mtime <;> simp [hmtime]
  · simp [hs]

/-- A look at another subsystem makes no difference. -/
theorem eventOf_after {monitor : UdevMonitor} {subsystem s : String} (h : s ≠ subsystem) :
    eventOf unicode view (monitor.after view [subsystem]) s =
      eventOf unicode view monitor s := by
  have hlast : (monitor.after view [subsystem]).lastPoll s = monitor.lastPoll s :=
    if_neg fun hmem => h (List.mem_singleton.mp hmem)
  rw [eventOf, eventOf, hlast]

theorem mapM_congr_left {α β : Type} {f g : α → Panics β} {l : List α} (h : ∀ a ∈ l, f a = g a) :
    l.mapM f = l.mapM g := by
  induction l with
  | nil => rfl
  | cons a l ih =>
      obtain ⟨ha, hl⟩ := List.forall_mem_cons.mp h
      rw [List.mapM_cons, List.mapM_cons, ha, ih hl]

open UdevMonitor in
/-- Each subsystem is asked about on its own. -/
theorem foldlM_pollSubsystem {subsystems : List String} (hnodup : subsystems.Nodup)
    (monitor : UdevMonitor) (events : List UdevEvent) :
    subsystems.foldlM (pollSubsystem unicode view) (monitor, events) = do
      let found ← subsystems.mapM (eventOf unicode view monitor)
      return (monitor.after view subsystems, events ++ found.reduceOption) := by
  induction subsystems generalizing monitor events with
  | nil =>
      show pure (monitor, events) = pure (monitor.after view [], events ++ [])
      rw [List.append_nil]
      rfl
  | cons subsystem subsystems ih =>
      obtain ⟨hnew, hrest⟩ := List.nodup_cons.mp hnodup
      rw [List.foldlM_cons, pollSubsystem_eq, List.mapM_cons]
      cases hevent : eventOf unicode view monitor subsystem with
      | error e => rfl
      | ok event =>
          have hothers : subsystems.mapM (eventOf unicode view (monitor.after view [subsystem])) =
              subsystems.mapM (eventOf unicode view monitor) := by
            apply mapM_congr_left
            intro s hs
            exact eventOf_after fun heq => hnew (heq ▸ hs)
          show subsystems.foldlM _ (monitor.after view [subsystem], events ++ event.toList) = _
          rw [ih hrest, hothers, after_after]
          cases subsystems.mapM (eventOf unicode view monitor) with
          | error e => rfl
          | ok found =>
              show Except.ok _ = Except.ok _
              rw [List.append_assoc]
              cases event <;> rfl

theorem pollEvents_eq (monitor : UdevMonitor) : pollEvents unicode view monitor = do
    let found ← busSubsystems.mapM (eventOf unicode view monitor)
    return (monitor.after view busSubsystems, found.reduceOption) :=
  foldlM_pollSubsystem (by decide) monitor []

/-- A subsystem has changed since the monitor looked last, and can be listed. -/
def UdevMonitor.Changed (monitor : UdevMonitor) (view : SysfsView) (subsystem : String) : Prop :=
  ∃ mtime entries, (view subsystem).mtime = some mtime ∧
    (view subsystem).entries = some entries ∧ (monitor.lastPoll subsystem).getD 0 < mtime

/-- An event tells of a subsystem. -/
def UdevEvent.TellsOf (event : UdevEvent) (subsystem : String) : Prop :=
  ∃ device, event = .deviceChanged device ∧ device.hardwareId.bus = subsystem

theorem bus_of_readDevice {subsystem : String} {entry : SysfsDevice} {device : HardwareDevice}
    (h : readDevice unicode subsystem entry = .ok (some device)) :
    device.hardwareId.bus = subsystem := by
  unfold readDevice at h
  dsimp only at h
  split_ifs at h
  · cases h
  · obtain ⟨vendorId, -, h⟩ := bind_eq_ok_iff.mp h
    obtain ⟨deviceId, -, h⟩ := bind_eq_ok_iff.mp h
    split at h
    · cases h
    · cases h
      rfl

theorem bus_of_enumerateSubsystem {subsystem : String} {entries : List SysfsDevice}
    {devices : List HardwareDevice}
    (h : enumerateSubsystem unicode subsystem entries = .ok devices) :
    ∀ device ∈ devices, device.hardwareId.bus = subsystem := by
  intro device hdevice
  obtain ⟨found, hfound, h⟩ := bind_eq_ok_iff.mp h
  cases h
  obtain ⟨entry, -, hread⟩ := exists_of_mem_mapM hfound (List.reduceOption_mem_iff.mp hdevice)
  exact bus_of_readDevice hread

theorem tellsOf_of_changeEvent {subsystem : String} {event : UdevEvent}
    (h : changeEvent unicode view subsystem = .ok (some event)) : event.TellsOf subsystem := by
  rw [changeEvent] at h
  cases hentries : (view subsystem).entries with
  | none =>
      rw [hentries] at h
      cases h
  | some entries =>
      rw [hentries] at h
      obtain ⟨devices, hdevices, heq⟩ := bind_eq_ok_iff.mp h
      cases heq
      refine ⟨_, rfl, ?_⟩
      cases devices with
      | nil => rfl
      | cons device devices => exact bus_of_enumerateSubsystem hdevices device List.mem_cons_self

/-- What comes of the question about a subsystem. -/
theorem eventOf_spec {monitor : UdevMonitor} {subsystem : String} {found : Option UdevEvent}
    (h : eventOf unicode view monitor subsystem = .ok found) :
    (∀ event, found = some event → event.TellsOf subsystem) ∧
      (found.isSome = true ↔ monitor.Changed view subsystem) := by
  rw [eventOf] at h
  rw [UdevMonitor.Changed]
  cases hmtime : (view subsystem).mtime with
  | none =>
      rw [hmtime] at h
      cases h
      simp
  | some mtime =>
      rw [hmtime] at h
      dsimp only at h
      split_ifs at h with hlater
      · constructor
        · rintro event rfl
          exact tellsOf_of_changeEvent h
        · rw [changeEvent] at h
          cases hentries : (view subsystem).entries with
          | none =>
              rw [hentries] at h
              cases h
              simp
          | some entries =>
              rw [hentries] at h
              obtain ⟨devices, -, heq⟩ := bind_eq_ok_iff.mp h
              cases heq
              simp [hlater]
      · cases h
        constructor
        · simp
        · refine iff_of_false (by simp) ?_
          rintro ⟨mtime', entries, hsame, -, hbefore⟩
          cases hsame
          exact hlater hbefore

theorem exists_of_mem_of_mapM {α β : Type} {f : α → Panics β} {as : List α} {bs : List β}
    (h : as.mapM f = .ok bs) {a : α} (ha : a ∈ as) : ∃ b ∈ bs, f a = .ok b := by
  induction as generalizing bs with
  | nil => cases ha
  | cons a' as ih =>
      rw [List.mapM_cons] at h
      obtain ⟨b, hb, h⟩ := bind_eq_ok_iff.mp h
      obtain ⟨rest, hrest, h⟩ := bind_eq_ok_iff.mp h
      cases h
      rcases List.mem_cons.mp ha with rfl | ha
      · exact ⟨b, List.mem_cons_self, hb⟩
      · obtain ⟨b', hb', hfa⟩ := ih hrest ha
        exact ⟨b', List.mem_cons_of_mem b hb', hfa⟩

/-- A poll tells of the subsystems that have changed and can be listed, and of no others. -/
theorem pollEvents_spec {monitor after : UdevMonitor} {events : List UdevEvent}
    (h : pollEvents unicode view monitor = .ok (after, events)) :
    after = monitor.after view busSubsystems ∧
      (∀ event ∈ events, ∃ s ∈ busSubsystems, event.TellsOf s) ∧
      ∀ s ∈ busSubsystems,
        ((∃ event ∈ events, event.TellsOf s) ↔ monitor.Changed view s) := by
  rw [pollEvents_eq] at h
  obtain ⟨found, hfound, h⟩ := bind_eq_ok_iff.mp h
  cases h
  have htells : ∀ event ∈ found.reduceOption,
      ∃ s ∈ busSubsystems, event.TellsOf s ∧ monitor.Changed view s := by
    intro event hevent
    obtain ⟨s, hs, hask⟩ := exists_of_mem_mapM hfound (List.reduceOption_mem_iff.mp hevent)
    have hspec := eventOf_spec hask
    exact ⟨s, hs, hspec.1 event rfl, hspec.2.mp rfl⟩
  refine ⟨rfl, ?_, ?_⟩
  · intro event hevent
    obtain ⟨s, hs, hevent, -⟩ := htells event hevent
    exact ⟨s, hs, hevent⟩
  · intro s hs
    constructor
    · rintro ⟨event, hevent, hs'⟩
      obtain ⟨s', -, htold, hchanged⟩ := htells event hevent
      -- an event tells of one subsystem
      obtain ⟨device, rfl, hbus⟩ := hs'
      obtain ⟨device', heq, hbus'⟩ := htold
      cases heq
      rwa [← hbus, hbus']
    · intro hchanged
      obtain ⟨answer, hmem, hask⟩ := exists_of_mem_of_mapM hfound hs
      have hspec := eventOf_spec hask
      obtain ⟨event, rfl⟩ := Option.isSome_iff_exists.mp (hspec.2.mpr hchanged)
      exact ⟨event, List.reduceOption_mem_iff.mpr hmem, hspec.1 event rfl⟩

end OnePoll

/-! ## A run -/

/-- The modification times of a subsystem that the polls have seen. -/
def stampsSeen (inputs : List PollInput) (subsystem : String) : List UInt64 :=
  inputs.filterMap fun input =>
    match input with
    | .tick view _ => (view subsystem).mtime
    | .turn _ => none

/-- The monitor remembers the last of them. -/
def UdevMonitor.Remembers (monitor : UdevMonitor) (inputs : List PollInput) : Prop :=
  ∀ s ∈ busSubsystems, monitor.lastPoll s = (stampsSeen inputs s).getLast?

section Runs

variable (state : AppState) (unicode : String → String) (w : World)

theorem polling_concat (inputs : List PollInput) (input : PollInput) :
    state.polling unicode w (inputs ++ [input]) =
      state.poll unicode (state.polling unicode w inputs) input := by
  rw [AppState.polling, List.foldl_append]
  rfl

theorem UdevMonitor.Remembers.after {monitor : UdevMonitor} {inputs : List PollInput}
    (h : monitor.Remembers inputs) (view : SysfsView) (env : Env) :
    (monitor.after view busSubsystems).Remembers (inputs ++ [.tick view env]) := by
  intro s hs
  rw [stampsSeen, List.filterMap_append]
  show (if s ∈ busSubsystems then (view s).mtime.or (monitor.lastPoll s) else _) = _
  rw [if_pos hs, h s hs]
  cases hmtime : (view s).mtime with
  | none => simp [hmtime, stampsSeen]
  | some mtime => simp [hmtime]

/-- As long as the task is there, its monitor remembers what the polls have seen. -/
theorem remembers_of_run (inputs : List PollInput) :
    ∀ monitor, (state.polling unicode w inputs).monitor = some monitor →
      monitor.Remembers inputs := by
  induction inputs using List.reverseRecOn with
  | nil =>
      intro monitor h
      cases h
      exact fun s _ => rfl
  | append_singleton inputs input ih =>
      intro monitor h
      rw [polling_concat] at h
      cases input with
      | turn t =>
          have hsame : stampsSeen (inputs ++ [.turn t]) = stampsSeen inputs := by
            funext s
            simp [stampsSeen]
          intro s hs
          rw [hsame]
          exact ih monitor h s hs
      | tick view env =>
          rw [AppState.poll] at h
          cases hbefore : (state.polling unicode w inputs).monitor with
          | none =>
              simp only [hbefore] at h
              cases h
          | some before =>
              simp only [hbefore] at h
              cases hpoll : pollEvents unicode view before with
              | error e =>
                  rw [hpoll] at h
                  cases h
              | ok answer =>
                  obtain ⟨after, events⟩ := answer
                  rw [hpoll] at h
                  cases h
                  rw [(pollEvents_spec hpoll).1]
                  exact (ih before hbefore).after view env

end Runs

/-- A subsystem that can be listed has a modification time later than the last one that the polls
have seen. -/
def Fresh (inputs : List PollInput) (view : SysfsView) (subsystem : String) : Prop :=
  ∃ mtime entries, (view subsystem).mtime = some mtime ∧
    (view subsystem).entries = some entries ∧
    ((stampsSeen inputs subsystem).getLast?).getD 0 < mtime

/-- If the clock never goes back, that is a time which no poll has seen yet. -/
theorem fresh_iff_of_pairwise {inputs : List PollInput} {view : SysfsView} {subsystem : String}
    {mtime : UInt64} (hmtime : (view subsystem).mtime = some mtime)
    (h : (stampsSeen inputs subsystem ++ [mtime]).Pairwise (· ≤ ·)) :
    Fresh inputs view subsystem ↔ (view subsystem).entries.isSome = true ∧ mtime ≠ 0 ∧
      mtime ∉ stampsSeen inputs subsystem := by
  have hfresh : Fresh inputs view subsystem ↔ (view subsystem).entries.isSome = true ∧
      ((stampsSeen inputs subsystem).getLast?).getD 0 < mtime := by
    rw [Fresh, Option.isSome_iff_exists, hmtime]
    constructor
    · rintro ⟨_, entries, heq, hentries, hlater⟩
      cases heq
      exact ⟨⟨entries, hentries⟩, hlater⟩
    · rintro ⟨⟨entries, hentries⟩, hlater⟩
      exact ⟨mtime, entries, rfl, hentries, hlater⟩
  rw [hfresh]
  apply and_congr_right
  intro _
  rcases List.eq_nil_or_concat (stampsSeen inputs subsystem) with hnil | ⟨seen, last, hseen⟩
  · rw [hnil]
    show (0 : UInt64) < mtime ↔ _
    rw [UInt64.pos_iff_ne_zero]
    simp
  · rw [hseen] at h ⊢
    obtain ⟨hpast, -, hlater⟩ := List.pairwise_append.mp h
    have hlast : last ≤ mtime := hlater last (by simp) mtime (by simp)
    have hbefore : ∀ stamp ∈ seen, stamp ≤ last := by
      rw [List.concat_eq_append] at hpast
      intro stamp hstamp
      exact (List.pairwise_append.mp hpast).2.2 stamp hstamp last (by simp)
    rw [List.concat_eq_append, List.getLast?_concat]
    show last < mtime ↔ _
    constructor
    · intro hlt
      refine ⟨(UInt64.pos_iff_ne_zero).mp (UInt64.lt_of_le_of_lt (UInt64.zero_le) hlt), ?_⟩
      intro hmem
      have hle : mtime ≤ last := by
        rcases List.mem_append.mp hmem with hmem | hmem
        · exact hbefore mtime hmem
        · rw [List.mem_singleton.mp hmem]
          exact UInt64.le_refl last
      exact UInt64.not_lt.mpr hle hlt
    · rintro ⟨-, hnew⟩
      refine UInt64.lt_of_le_of_ne hlast ?_
      rintro rfl
      exact hnew (by simp)

/-- Polling over any run, in which anything else may happen between the polls.  A poll that does
not panic tells of the subsystems that can be listed and have a modification time, in whole
seconds, later than the last one that the polls before have seen; and the inventory is scanned
again exactly if there is one.  As long as the times of a subsystem never go back, each of them is
told once, at the first poll that sees it, and never if the directory cannot be listed then. -/
theorem polls_tell_fresh (state : AppState) (unicode : String → String) (w : World)
    (inputs : List PollInput) {monitor : UdevMonitor}
    (halive : (state.polling unicode w inputs).monitor = some monitor) (view : SysfsView)
    (env : Env) {after : UdevMonitor} {events : List UdevEvent}
    (hpoll : pollEvents unicode view monitor = .ok (after, events)) :
    let before := state.polling unicode w inputs
    let now := state.polling unicode w (inputs ++ [.tick view env])
    (∀ s ∈ busSubsystems, (∃ event ∈ events, event.TellsOf s) ↔ Fresh inputs view s) ∧
      now.monitor = some after ∧
      ((∃ s ∈ busSubsystems, Fresh inputs view s) →
        now.world = state.turn (.pollHardware env) before.world) ∧
      ((∀ s ∈ busSubsystems, ¬ Fresh inputs view s) → now.world = before.world) ∧
      ∀ s ∈ busSubsystems, ∀ mtime, (view s).mtime = some mtime →
        (stampsSeen inputs s ++ [mtime]).Pairwise (· ≤ ·) →
        ((∃ event ∈ events, event.TellsOf s) ↔
          (view s).entries.isSome = true ∧ mtime ≠ 0 ∧ mtime ∉ stampsSeen inputs s) := by
  intro before now
  obtain ⟨-, htells, hchanged⟩ := pollEvents_spec hpoll
  have hremembers := remembers_of_run state unicode w inputs monitor halive
  have hfresh : ∀ s ∈ busSubsystems,
      ((∃ event ∈ events, event.TellsOf s) ↔ Fresh inputs view s) := by
    intro s hs
    rw [hchanged s hs, UdevMonitor.Changed, hremembers s hs]
    rfl
  have hnow : now = ⟨some after,
      if events.isEmpty then before.world else state.turn (.pollHardware env) before.world⟩ := by
    show state.polling unicode w (inputs ++ [.tick view env]) = _
    rw [polling_concat, AppState.poll, halive]
    show (match pollEvents unicode view monitor with
      | .error _ => _
      | .ok (monitor', events) => _ : Polling) = _
    rw [hpoll]
  refine ⟨hfresh, ?_, ?_, ?_, ?_⟩
  · rw [hnow]
  · rintro ⟨s, hs, hnew⟩
    obtain ⟨event, hevent, -⟩ := (hfresh s hs).mpr hnew
    have hsome : events.isEmpty = false := List.isEmpty_eq_false_iff.mpr (List.ne_nil_of_mem hevent)
    rw [hnow, hsome]
    rfl
  · intro hnone
    have hempty : events = [] := by
      apply List.eq_nil_iff_forall_not_mem.mpr
      intro event hevent
      obtain ⟨s, hs, htold⟩ := htells event hevent
      exact hnone s hs ((hfresh s hs).mp ⟨event, hevent, htold⟩)
    rw [hnow, hempty]
    rfl
  · intro s hs mtime hmtime hpairwise
    rw [hfresh s hs, fresh_iff_of_pairwise hmtime hpairwise]

/-- Only the directory of USB is there, with a modification time and without devices. -/
def usbStamped (mtime : UInt64) : SysfsView := fun s =>
  if s = "usb" then ⟨some mtime, some []⟩ else ⟨none, none⟩

/-- What changes in a later second is told, and what changes in the same second is not. -/
theorem polls_tell_fresh_usb :
    Fresh [.tick (usbStamped 100) .smooth] (usbStamped 101) "usb" ∧
      ¬ Fresh [.tick (usbStamped 100) .smooth] (usbStamped 100) "usb" := by
  have hlater := polls_tell_fresh .strict id (World.boot ⟨[], [], 0⟩ 0 (.ofNames []) inTreeModules
    .empty) [.tick (usbStamped 100) .smooth] rfl (usbStamped 101) .smooth rfl
  have hsame := polls_tell_fresh .strict id (World.boot ⟨[], [], 0⟩ 0 (.ofNames []) inTreeModules
    .empty) [.tick (usbStamped 100) .smooth] rfl (usbStamped 100) .smooth rfl
  constructor
  · exact (hlater.1 "usb" (by decide)).mp ⟨_, List.mem_cons_self, _, rfl, rfl⟩
  · intro hfresh
    obtain ⟨event, hevent, -⟩ := (hsame.1 "usb" (by decide)).mpr hfresh
    cases hevent

end MissionOs.Driverd
