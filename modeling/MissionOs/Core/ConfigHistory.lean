import MissionOs.Core.CrashSafety
import MissionOs.Lib.WriteBack
import MissionOs.Rust.Utf8

/-!
# A configuration file over its lifetime

`Config::load` and `Config::load_or_default`, and one configuration file through any number of
saves, one after another: each may fail at any of its calls, may be cut short when its program
is killed, and the power may fail after any call.

`ConfigFile` is the running save with the disk.  `refines` says that the file is a cell whose
writes are kept back: a save puts its whole text into it with the rename, the sync of the
directory flushes it, and a power loss leaves what the cell may lose to, no less and no more.
What is loaded follows from that.
-/

namespace MissionOs.Core

open MissionOs.Lib MissionOs.Rust

/-! ## Loading -/

/-- `ErrorCode`, as far as a load returns it. -/
inductive LoadCode where
  | notFound
  | configError
  | ioError
deriving DecidableEq, Repr

/-- `Error` of a load, with the text of its source if it has one. -/
structure LoadError where
  code : LoadCode
  message : String
  source : Option String
deriving DecidableEq, Repr

/-- The error of `fs::read_to_string`. -/
inductive ReadError where
  | notFound
  | other (message : String)
deriving DecidableEq, Repr

/-- `fs::read_to_string` of a file with some content.  `fault` is an error that the file system
has for it. -/
def readToString (fault : Option String) (content : Option Bytes) :
    Except ReadError (List Char) :=
  match fault, content with
  | some e, _ => .error (.other e)
  | none, none => .error .notFound
  | none, some bytes =>
    match fromUtf8 bytes with
    | none => .error (.other "stream did not contain valid UTF-8")
    | some text => .ok text

namespace Config

variable {T : Type}

section Load

variable (parse : List Char → Except String T)

/-- `Config::load` from some files.  `parse` is `toml::from_str`. -/
def load (fault : Option String) (files : Files) (path : Path) : Except LoadError (Config T) :=
  match readToString fault (files.get? path) with
  | .error .notFound =>
    .error ⟨.notFound, "configuration file not found: " ++ path.display, none⟩
  | .error (.other e) =>
    .error ⟨.ioError, "failed to read configuration file: " ++ path.display, some e⟩
  | .ok contents =>
    if (trim contents).isEmpty then
      .error ⟨.configError, "configuration file is empty: " ++ path.display, none⟩
    else
      match parse contents with
      | .error e => .error ⟨.configError, "malformed configuration in " ++ path.display, some e⟩
      | .ok inner => .ok ⟨inner, path⟩

/-- `Config::load_or_default`. -/
def loadOrDefault (default : T) (fault : Option String) (files : Files) (path : Path) :
    Except LoadError (Config T) :=
  match load parse fault files path with
  | .ok c => .ok c
  | .error e => if e.code = .notFound then .ok ⟨default, path⟩ else .error e

end Load

/-- A text that is written for a configuration is read back as it. -/
def RoundTrips (serialize : T → Except String Bytes) (parse : List Char → Except String T) :
    Prop :=
  ∀ inner data, serialize inner = .ok data →
    ∃ text, fromUtf8 data = some text ∧ parse text = .ok inner

/-- A text with nothing in it. -/
def isBlank (data : Bytes) : Bool := (fromUtf8 data).any fun text => (trim text).isEmpty

/-- What a load makes of a text that was written for a configuration: a configuration without
any entry is written as an empty text, and that is no configuration. -/
def reload (c : Config T) (data : Bytes) : Except LoadError (Config T) :=
  if isBlank data then
    .error ⟨.configError, "configuration file is empty: " ++ c.path.display, none⟩
  else .ok c

section Reload

variable {serialize : T → Except String Bytes} {parse : List Char → Except String T}
  {files : Files} {path : Path} {inner : T} {data : Bytes}

theorem load_of_written (hround : RoundTrips serialize parse)
    (hdata : serialize inner = .ok data) (hget : files.get? path = some data) :
    load parse none files path = reload ⟨inner, path⟩ data := by
  obtain ⟨text, htext, hparse⟩ := hround inner data hdata
  simp only [load, readToString, hget, htext, reload, isBlank, Option.any_some, hparse]

/-- Such a load finds the file. -/
theorem loadOrDefault_of_written (hround : RoundTrips serialize parse) (default : T)
    (hdata : serialize inner = .ok data) (hget : files.get? path = some data) :
    loadOrDefault parse default none files path = reload ⟨inner, path⟩ data := by
  rw [loadOrDefault, load_of_written hround hdata hget, reload]
  split_ifs
  · rfl
  · rfl

end Reload

end Config

/-! ## One file and its saves -/

/-- The save that is running, if any, and the disk. -/
structure ConfigFile (T : Type) where
  running : Option (T × Stage)
  disk : Disk

/-- What can happen to a configuration file. -/
inductive FileEvent (T : Type) where
  /-- A save is called.  One that is still running is given up: its program was killed. -/
  | save (inner : T)
  /-- The next call of the running save. -/
  | call (outcome : Outcome)
  /-- The power fails, and these files are left. -/
  | powerLoss (files : Files)

namespace ConfigFile

variable {T : Type} (serialize : T → Except String Bytes) (path : Path)

/-- A file that nobody is saving to. -/
def start (files : Files) : ConfigFile T := ⟨none, Disk.durable files⟩

def next : FileEvent T → ConfigFile T → ConfigFile T
  | .save inner, f => ⟨some (inner, .called), f.disk⟩
  | .call outcome, f =>
    match f.running with
    | none => f
    | some (inner, stage) =>
      let (stage, disk) := Config.diskStep serialize ⟨inner, path⟩ outcome (stage, f.disk)
      ⟨some (inner, stage), disk⟩
  | .powerLoss files, _ => start files

/-- A power loss leaves the file as the disk may have it; about other files nothing is
known. -/
def Possible (f : ConfigFile T) : FileEvent T → Prop
  | .powerLoss files => f.disk.Leaves path (files.get? path)
  | _ => True

/-- The file as a cell: what is read, and what a power loss may leave. -/
def cell (f : ConfigFile T) : WriteBack (Option Bytes) :=
  ⟨f.disk.files.get? path, f.disk.versions path⟩

/-- What a call that takes a save from one stage to another is to the cell. -/
def callChange (outcome : Outcome) : Stage → Stage → WriteBack.Change (Option Bytes)
  | .closed data, .syncingDir => .put (some data)
  | .syncingDir, _ =>
    match outcome with
    | .ok _ => .flush
    | .error _ => .nothing
  | _, _ => .nothing

/-- What an event is to the cell. -/
def change (event : FileEvent T) (f : ConfigFile T) : WriteBack.Change (Option Bytes) :=
  match event with
  | .save _ => .nothing
  | .powerLoss files => .lose (files.get? path)
  | .call outcome =>
    match f.running with
    | none => .nothing
    | some (inner, stage) =>
      callChange outcome stage
        (Config.diskStep serialize ⟨inner, path⟩ outcome (stage, f.disk)).1

/-! ## The invariant -/

/-- A running save has its own text, and its temporary file has as much of it as is written; a
save that is past the rename finds its text in the file. -/
def StageSound (c : Config T) (d : Disk) : Stage → Prop
  | .called | .returned (.error _) => True
  | .creating data => serialize c.inner = .ok data
  | .writing data file written =>
    serialize c.inner = .ok data ∧ c.path.fileName ≠ none ∧ written ≤ data.length ∧
      d.files.at? (Config.tmpPath c.path) = some (file, data.take written)
  | .closed data =>
    serialize c.inner = .ok data ∧ c.path.fileName ≠ none ∧
      ∃ file, d.files.at? (Config.tmpPath c.path) = some (file, data) ∧ d.synced file = true
  | .syncingDir =>
    c.path.fileName ≠ none ∧ ∃ data, serialize c.inner = .ok data ∧
      d.files.get? c.path = some data
  | .returned (.ok ()) =>
    ∃ data, serialize c.inner = .ok data ∧ d.files.get? c.path = some data

structure Sound (f : ConfigFile T) : Prop where
  versioned : f.disk.Versioned path
  running : ∀ inner stage, f.running = some (inner, stage) →
    StageSound serialize ⟨inner, path⟩ f.disk stage

theorem sound_start (files : Files) : (start files : ConfigFile T).Sound serialize path where
  versioned := Disk.versioned_durable files path
  running _ _ h := nomatch h

section Step

variable {serialize path} {inner : T} {d d' : Disk} {stage stage' : Stage}

/-- What the next call of a save does to the versions of its file. -/
inductive Moved (path : Path) (d d' : Disk) : Stage → Stage → Prop where
  | keeps (stage stage' : Stage) (hversions : d'.versions path = d.versions path)
      (hget : d'.files.get? path = d.files.get? path)
      (hclosed : ∀ data, stage = .closed data → stage' ≠ .syncingDir) :
      Moved path d d' stage stage'
  | puts (data : Bytes) (hversions : d'.versions path = some data :: d.versions path)
      (hget : d'.files.get? path = some data) : Moved path d d' (.closed data) .syncingDir

/-- The step lemma of one call of a save, up to the sync of the directory. -/
theorem moved_of_stepped (hversioned : d.Versioned path)
    (hsound : StageSound serialize ⟨inner, path⟩ d stage) (hstage : stage ≠ .syncingDir)
    (hstep : Config.DiskStepped serialize ⟨inner, path⟩ (stage, d) (stage', d')) :
    d'.Versioned path ∧ StageSound serialize ⟨inner, path⟩ d' stage' ∧
      Moved path d d' stage stage' := by
  cases hstep with
  | fails stage d e _ =>
      exact ⟨hversioned, trivial, .keeps _ _ rfl rfl fun _ _ => nofun⟩
  | serializes data d hdata =>
      exact ⟨hversioned, hdata, .keeps _ _ rfl rfl fun _ _ => nofun⟩
  | creates data d name hname =>
      have hne : path.resolve ≠ (Config.tmpPath path).resolve := Config.tmpPath_resolve_ne hname
      have hbeside := hversioned.beside_create hne
      refine ⟨hversioned.follow hbeside, ⟨hsound, ?_, Nat.zero_le _, ?_⟩, ?_⟩
      · rw [hname]
        exact Option.some_ne_none name
      · exact Files.at?_create_self d.files (Config.tmpPath path)
      · exact .keeps _ _ hbeside.versions_follow
          (Files.get?_congr_at? (Files.at?_create_of_ne hne)) fun _ _ => nofun
  | writes data file written n d =>
      obtain ⟨hdata, hname, hwritten, htmp⟩ := hsound
      obtain ⟨name, hsome⟩ := Option.ne_none_iff_exists'.mp hname
      have hne : path.resolve ≠ (Config.tmpPath path).resolve := Config.tmpPath_resolve_ne hsome
      have hbeside := hversioned.beside_write hne htmp written ((data.drop written).take n)
      refine ⟨hversioned.follow hbeside, ⟨hdata, hname, ?_, ?_⟩, ?_⟩
      · rw [List.length_take, List.length_drop]
        omega
      · exact Files.at?_write_next htmp hwritten n
      · exact .keeps _ _ hbeside.versions_follow
          (Files.get?_congr_at? (Files.at?_write_of_ne htmp hne _ _)) fun _ _ => nofun
  | syncs data file written d hrest =>
      obtain ⟨hdata, hname, -, htmp⟩ := hsound
      rw [List.take_of_length_le (List.drop_eq_nil_iff.mp hrest)] at htmp
      exact ⟨hversioned.sync file, ⟨hdata, hname, file, htmp, d.synced_sync file⟩,
        .keeps _ _ (d.versions_sync file path) rfl fun _ _ => nofun⟩
  | renames data d files hrename =>
      obtain ⟨hdata, hname, file, htmp, hsynced⟩ := hsound
      obtain ⟨name, hsome⟩ := Option.ne_none_iff_exists'.mp hname
      have hne : path.resolve ≠ (Config.tmpPath path).resolve := Config.tmpPath_resolve_ne hsome
      have hget : files.get? path = some data :=
        Files.get?_of_at? (Files.at?_rename_self hrename htmp)
      obtain ⟨hkept, hversions⟩ := hversioned.rename hne htmp hsynced hrename
      exact ⟨hkept, ⟨hname, data, hdata, hget⟩, .puts data hversions hget⟩
  | finishes d => exact absurd rfl hstage
  | finishesSynced d dir => exact absurd rfl hstage
  | rests result d =>
      exact ⟨hversioned, hsound, .keeps _ _ rfl rfl fun _ _ => nofun⟩

/-- The sync of the directory flushes the cell, if it succeeds. -/
theorem call_syncingDir (hversioned : d.Versioned path)
    (hsound : StageSound serialize ⟨inner, path⟩ d .syncingDir) (outcome : Outcome) :
    let after := Config.diskStep serialize ⟨inner, path⟩ outcome (.syncingDir, d)
    after.2.Versioned path ∧ after.2.files.get? path = d.files.get? path ∧
      after.1 = .returned (.ok ()) ∧
      after.2.versions path =
        match outcome with
        | .ok _ => [d.files.get? path]
        | .error _ => d.versions path := by
  obtain ⟨hname, -⟩ := hsound
  obtain ⟨name, hsome⟩ := Option.ne_none_iff_exists'.mp hname
  have hresolve : path.resolve = _ ++ [name] := Path.resolve_of_fileName hsome
  cases hparent : path.parent with
  | none =>
      -- a path with a file name is not empty
      unfold Path.parent at hparent
      split_ifs at hparent with hnil
      simp [Path.fileName, hnil] at hsome
  | some parent =>
      have hdir : path.resolve.dropLast = parent.resolve := by
        rw [hresolve, List.dropLast_concat]
        unfold Path.parent at hparent
        split_ifs at hparent
        cases hparent
        rfl
      cases outcome with
      | error e =>
          have hafter : Config.diskStep serialize ⟨inner, path⟩ (.error e) (.syncingDir, d) =
              (.returned (.ok ()), d) := by
            simp only [Config.diskStep, Config.step, Config.settle, hparent]
          rw [hafter]
          exact ⟨hversioned, rfl, rfl, rfl⟩
      | ok n =>
          have hafter : Config.diskStep serialize ⟨inner, path⟩ (.ok n) (.syncingDir, d) =
              (.returned (.ok ()), d.syncDir parent.resolve) := by
            simp only [Config.diskStep, Config.step, Config.settle, hparent]
          obtain ⟨hkept, hversions⟩ := hversioned.syncDir (by simp [hresolve]) hdir
          rw [hafter]
          exact ⟨hkept, rfl, rfl, hversions⟩

/-- The step lemma of one call of a save. -/
theorem call_spec (hversioned : d.Versioned path)
    (hsound : StageSound serialize ⟨inner, path⟩ d stage) (outcome : Outcome) :
    let after := Config.diskStep serialize ⟨inner, path⟩ outcome (stage, d)
    after.2.Versioned path ∧ StageSound serialize ⟨inner, path⟩ after.2 after.1 ∧
      (⟨after.2.files.get? path, after.2.versions path⟩ : WriteBack (Option Bytes)) =
        WriteBack.next (callChange outcome stage after.1)
          ⟨d.files.get? path, d.versions path⟩ := by
  by_cases hstage : stage = .syncingDir
  · subst hstage
    obtain ⟨hkept, hget, hstage', hversions⟩ := call_syncingDir hversioned hsound outcome
    obtain ⟨-, data, hdata, hnow⟩ := hsound
    refine ⟨hkept, ?_, ?_⟩
    · rw [hstage']
      exact ⟨data, hdata, hget.trans hnow⟩
    · rw [hget, hversions]
      cases outcome with
      | ok n => rfl
      | error e => rfl
  · have hstep := Config.diskStep_stepped serialize ⟨inner, path⟩ outcome stage d
    generalize Config.diskStep serialize ⟨inner, path⟩ outcome (stage, d) = after at hstep
    obtain ⟨hkept, hsound', hmoved⟩ := moved_of_stepped hversioned hsound hstage hstep
    refine ⟨hkept, hsound', ?_⟩
    obtain ⟨stage', d'⟩ := after
    cases hmoved with
    | puts data hversions hget =>
        rw [hversions, hget]
        rfl
    | keeps stage stage' hversions hget hclosed =>
        have hnothing : callChange outcome stage stage' = .nothing := by
          cases stage with
          | closed data =>
              cases stage' with
              | syncingDir => exact absurd rfl (hclosed data rfl)
              | _ => rfl
          | syncingDir => exact absurd rfl hstage
          | _ => rfl
        rw [hversions, hget, hnothing]
        rfl

end Step

section Run

variable {serialize path} {f : ConfigFile T} {event : FileEvent T}

theorem Sound.next (h : f.Sound serialize path) :
    (f.next serialize path event).Sound serialize path := by
  cases event with
  | save inner =>
      refine ⟨h.versioned, ?_⟩
      intro inner' stage hrunning
      cases hrunning
      trivial
  | powerLoss files => exact sound_start serialize path files
  | call outcome =>
      obtain ⟨running, disk⟩ := f
      cases running with
      | none => exact h
      | some save =>
          obtain ⟨inner, stage⟩ := save
          obtain ⟨hversioned, hsound, -⟩ :=
            call_spec h.versioned (h.running inner stage rfl) outcome
          refine ⟨hversioned, ?_⟩
          intro inner' stage' hrunning
          cases hrunning
          exact hsound

/-- Each event is a change of the cell. -/
theorem Sound.cell_next (h : f.Sound serialize path) :
    (f.next serialize path event).cell path =
      WriteBack.next (f.change serialize path event) (f.cell path) := by
  cases event with
  | save inner => rfl
  | powerLoss files =>
      rw [ConfigFile.next, cell, start, Disk.versions_durable]
      rfl
  | call outcome =>
      obtain ⟨running, disk⟩ := f
      cases running with
      | none => rfl
      | some save => exact (call_spec h.versioned (h.running save.1 save.2 rfl) outcome).2.2

theorem callChange_ne_lose (outcome : Outcome) (stage stage' : Stage) (v : Option Bytes) :
    callChange outcome stage stage' ≠ .lose v := by
  unfold callChange
  split
  · nofun
  · split <;> nofun
  · nofun

theorem closed_of_callChange_eq_put {outcome : Outcome} {stage stage' : Stage}
    {v : Option Bytes} (h : callChange outcome stage stage' = .put v) :
    ∃ data, stage = .closed data ∧ v = some data := by
  unfold callChange at h
  split at h
  · cases h
    exact ⟨_, rfl, rfl⟩
  · split at h <;> cases h
  · cases h

/-- Only a power loss loses anything. -/
theorem exists_of_change_eq_lose {v : Option Bytes}
    (h : f.change serialize path event = .lose v) :
    ∃ files, event = .powerLoss files ∧ files.get? path = v := by
  cases event with
  | save inner => cases h
  | powerLoss files =>
      cases h
      exact ⟨files, rfl, rfl⟩
  | call outcome =>
      rw [change] at h
      split at h
      · cases h
      · exact absurd h (callChange_ne_lose _ _ _ _)

/-- What is put into the cell is the whole text of the running save. -/
theorem Sound.of_change_eq_put (h : f.Sound serialize path) {v : Option Bytes}
    (hput : f.change serialize path event = .put v) :
    ∃ inner data, f.running = some (inner, .closed data) ∧ serialize inner = .ok data ∧
      v = some data := by
  cases event with
  | save inner => cases hput
  | powerLoss files => cases hput
  | call outcome =>
      rw [change] at hput
      split at hput
      · cases hput
      · rename_i inner stage hrunning
        obtain ⟨data, rfl, rfl⟩ := closed_of_callChange_eq_put hput
        obtain ⟨hdata, -⟩ := h.running inner (.closed data) hrunning
        exact ⟨inner, data, hrunning, hdata, rfl⟩

theorem Sound.possible_change (h : f.Sound serialize path) (hpossible : f.Possible path event) :
    (f.cell path).Possible (f.change serialize path event) := by
  cases hchange : f.change serialize path event with
  | lose v =>
      obtain ⟨files, rfl, rfl⟩ := exists_of_change_eq_lose hchange
      exact h.versioned.leaves_iff.mp hpossible
  | _ => trivial

/-- With the sync of its directory a file has one version, that of the running save. -/
theorem Sound.flushed (h : f.Sound serialize path) {inner : T}
    (hrunning : f.running = some (inner, .syncingDir)) (n : Nat) :
    ∃ data stage, serialize inner = .ok data ∧
      (f.next serialize path (.call (.ok n))).cell path = ⟨some data, [some data]⟩ ∧
      (f.next serialize path (.call (.ok n))).running = some (inner, stage) := by
  obtain ⟨running, disk⟩ := f
  cases hrunning
  obtain ⟨-, data, hdata, hget⟩ := h.running inner .syncingDir rfl
  obtain ⟨-, hnow, -, hversions⟩ :=
    call_syncingDir h.versioned (h.running inner .syncingDir rfl) (.ok n)
  rw [hget] at hnow hversions
  exact ⟨data, _, hdata, congrArg₂ WriteBack.mk hnow hversions, rfl⟩

/-- The file is sound, and the running save is one of some. -/
structure Saving (serialize : T → Except String Bytes) (path : Path) (W : T → Prop)
    (f : ConfigFile T) : Prop where
  sound : f.Sound serialize path
  running : ∀ inner stage, f.running = some (inner, stage) → W inner

/-- The text of one of some configurations. -/
def Written (serialize : T → Except String Bytes) (W : T → Prop) (v : Option Bytes) : Prop :=
  ∃ inner data, W inner ∧ serialize inner = .ok data ∧ v = some data

variable {W : T → Prop}

theorem Sound.saving (h : f.Sound serialize path) {inner : T} {stage : Stage}
    (hrunning : f.running = some (inner, stage)) (hinner : W inner) :
    f.Saving serialize path W := by
  refine ⟨h, ?_⟩
  intro inner' stage' hrunning'
  rw [hrunning] at hrunning'
  cases hrunning'
  exact hinner

theorem Saving.next (h : f.Saving serialize path W)
    (hsave : ∀ inner, event = .save inner → W inner) :
    (f.next serialize path event).Saving serialize path W := by
  refine ⟨h.sound.next, ?_⟩
  intro inner stage hrunning
  cases event with
  | save inner' =>
      cases hrunning
      exact hsave inner rfl
  | powerLoss files => cases hrunning
  | call outcome =>
      obtain ⟨running, disk⟩ := f
      cases running with
      | none => cases hrunning
      | some save =>
          cases hrunning
          exact h.running save.1 save.2 rfl

/-- What it puts into the cell is the text of one of them. -/
theorem Saving.puts (h : f.Saving serialize path W) {P : Option Bytes → Prop}
    (hP : ∀ v, Written serialize W v → P v) : (f.change serialize path event).Puts P := by
  cases hchange : f.change serialize path event with
  | put v =>
      obtain ⟨inner, data, hrunning, hdata, hv⟩ := h.sound.of_change_eq_put hchange
      exact hP v ⟨inner, data, h.running inner _ hrunning, hdata, hv⟩
  | _ => trivial

/-- What the versions of the file have, and the texts that are written to it, the versions have
after a run. -/
theorem Saving.holds_final (h : f.Saving serialize path W) {P : Option Bytes → Prop}
    (hP : ∀ v, Written serialize W v → P v) (hcell : (f.cell path).Holds P)
    {events : List (FileEvent T)} (hsave : ∀ inner, .save inner ∈ events → W inner)
    (hpossible : ∀ t ∈ transitions (ConfigFile.next serialize path) f events,
      t.before.Possible path t.input) :
    ((final (ConfigFile.next serialize path) f events).cell path).Holds P := by
  refine (final_invariant
    (I := fun f : ConfigFile T => f.Saving serialize path W ∧ (f.cell path).Holds P)
    (C := fun (f : ConfigFile T) (event : FileEvent T) =>
      f.Possible path event ∧ ∀ inner, event = .save inner → W inner)
    ?_ ⟨h, hcell⟩ ?_).2
  · intro f event hf hevent
    refine ⟨hf.1.next hevent.2, ?_⟩
    rw [hf.1.sound.cell_next]
    exact hf.2.next (hf.1.sound.possible_change hevent.1) (hf.1.puts hP)
  · intro t ht
    refine ⟨hpossible t ht, ?_⟩
    intro inner hinner
    exact hsave inner (hinner ▸ input_mem_of_mem_transitions ht)

/-- As long as the power does not fail it is enough that what is read has it. -/
theorem Saving.now_final (h : f.Saving serialize path W) {P : Option Bytes → Prop}
    (hP : ∀ v, Written serialize W v → P v) (hnow : P (f.disk.files.get? path))
    {events : List (FileEvent T)} (hsave : ∀ inner, .save inner ∈ events → W inner)
    (hpower : ∀ files, .powerLoss files ∉ events) :
    P ((final (ConfigFile.next serialize path) f events).disk.files.get? path) := by
  refine (final_invariant
    (I := fun f : ConfigFile T => f.Saving serialize path W ∧ P (f.cell path).now)
    (C := fun _ (event : FileEvent T) =>
      (∀ files, event ≠ .powerLoss files) ∧ ∀ inner, event = .save inner → W inner)
    ?_ ⟨h, hnow⟩ ?_).2
  · intro f event hf hevent
    refine ⟨hf.1.next hevent.2, ?_⟩
    rw [hf.1.sound.cell_next]
    apply WriteBack.now_next hf.2 _ (hf.1.puts hP)
    intro v hlose
    obtain ⟨files, hfiles, -⟩ := exists_of_change_eq_lose hlose
    exact hevent.1 files hfiles
  · intro t ht
    have hmem := input_mem_of_mem_transitions ht
    exact ⟨fun files hfiles => hpower files (hfiles ▸ hmem),
      fun inner hinner => hsave inner (hinner ▸ hmem)⟩

end Run

/-- A file is sound after any run. -/
theorem sound_final (serialize : T → Except String Bytes) (path : Path) (old : Files)
    (events : List (FileEvent T)) :
    (final (ConfigFile.next serialize path) (start old) events).Sound serialize path :=
  final_invariant (C := fun _ _ => True) (fun _ _ h _ => h.next)
    (sound_start serialize path old) fun _ _ => trivial

/-- The power may fail at any time and leave what the programs see. -/
theorem possible_of_calls (serialize : T → Except String Bytes) (path : Path) (old : Files)
    {events : List (FileEvent T)} (hpower : ∀ files, .powerLoss files ∉ events) :
    ∀ t ∈ transitions (ConfigFile.next serialize path) (start old) (events ++
        [.powerLoss (final (ConfigFile.next serialize path) (start old) events).disk.files]),
      t.before.Possible path t.input := by
  intro t ht
  rw [transitions_append, List.mem_append] at ht
  rcases ht with ht | ht
  · have hmem := input_mem_of_mem_transitions ht
    cases hinput : t.input with
    | powerLoss files =>
        rw [hinput] at hmem
        exact absurd hmem (hpower files)
    | _ => trivial
  · rw [transitions_cons, transitions_nil, List.mem_singleton] at ht
    subst ht
    exact (sound_final serialize path old events).versioned.leaves_now

/-! ## The file as a cell -/

/-- A configuration file is a cell whose writes are kept back: each event is a change of it; what
is put into it is the whole text of a configuration that is being saved; a power loss leaves a
value that it keeps, and may leave each of those. -/
theorem refines (serialize : T → Except String Bytes) (path : Path) (old : Files)
    (events : List (FileEvent T))
    (hpossible : ∀ t ∈ transitions (ConfigFile.next serialize path) (start old) events,
      t.before.Possible path t.input) :
    let run := transitions (ConfigFile.next serialize path) (start old) events
    transitions WriteBack.next ⟨old.get? path, [old.get? path]⟩
        (labels (ConfigFile.next serialize path) (change serialize path) (start old) events) =
      (run.map fun t =>
        ⟨t.before.cell path, t.before.change serialize path t.input, t.after.cell path⟩) ∧
    ∀ t ∈ run,
      (t.before.cell path).Possible (t.before.change serialize path t.input) ∧
      (∀ v, t.before.change serialize path t.input = .put v → ∃ inner data,
        t.before.running = some (inner, .closed data) ∧ serialize inner = .ok data ∧
          v = some data) ∧
      ∀ v, t.after.disk.Leaves path v ↔ v ∈ (t.after.cell path).kept := by
  intro run
  have hrun := transitions_invariant (I := Sound serialize path)
    (C := fun f event => f.Possible path event) (fun _ _ h _ => h.next)
    (sound_start serialize path old) hpossible
  constructor
  · have hstart : (start old : ConfigFile T).cell path =
        ⟨old.get? path, [old.get? path]⟩ := by
      rw [cell, start, Disk.versions_durable]
      rfl
    rw [← hstart]
    exact transitions_labels (C := fun f event => f.Possible path event)
      (fun _ _ h _ => h.next) (fun _ _ h _ => h.cell_next) (sound_start serialize path old)
      hpossible
  · intro t ht
    obtain ⟨hbefore, hafter⟩ := hrun t ht
    exact ⟨hbefore.possible_change (hpossible t ht), fun _ => hbefore.of_change_eq_put,
      fun _ => hafter.versioned.leaves_iff⟩

/-! ## What is loaded -/

section Loads

variable {serialize path} {parse : List Char → Except String T}

/-- A load gives one of some configurations. -/
def Loads (serialize : T → Except String Bytes) (parse : List Char → Except String T)
    (default : T) (path : Path) (W : T → Prop) (files : Files) : Prop :=
  ∃ inner data, W inner ∧ serialize inner = .ok data ∧
    Config.load parse none files path = Config.reload ⟨inner, path⟩ data ∧
    Config.loadOrDefault parse default none files path = Config.reload ⟨inner, path⟩ data

theorem loads_of_written (hround : Config.RoundTrips serialize parse) (default : T)
    {W : T → Prop} {files : Files} (h : Written serialize W (files.get? path)) :
    Loads serialize parse default path W files := by
  obtain ⟨inner, data, hinner, hdata, hget⟩ := h
  exact ⟨inner, data, hinner, hdata, Config.load_of_written hround hdata hget,
    Config.loadOrDefault_of_written hround default hdata hget⟩

theorem load_congr {files files' : Files} (h : files'.get? path = files.get? path) :
    Config.load parse none files' path = Config.load parse none files path := by
  rw [Config.load, Config.load, h]

/-- Over the lifetime of a configuration file, whatever saves are called, wherever they fail or
are killed and whenever the power fails: a load gives what it gave at the beginning, or one of
the configurations that were saved since.  Once the sync of the directory after a rename
succeeds, it gives that configuration or one that was saved later, and so does it once a save
has returned without an error, as long as the power does not fail. -/
theorem load_of_run (hround : Config.RoundTrips serialize parse) (default : T) (old : Files)
    (events : List (FileEvent T))
    (hpossible : ∀ t ∈ transitions (next serialize path) (start old) events,
      t.before.Possible path t.input) :
    let files := (final (next serialize path) (start old) events).disk.files
    (Config.load parse none files path = Config.load parse none old path ∨
      Loads serialize parse default path (fun inner => .save inner ∈ events) files) ∧
    (∀ before after inner n, events = before ++ .call (.ok n) :: after →
      (final (next serialize path) (start old) before).running = some (inner, .syncingDir) →
      Loads serialize parse default path (fun inner' => inner' = inner ∨ .save inner' ∈ after)
        files) ∧
    (∀ before after inner, events = before ++ after →
      (final (next serialize path) (start old) before).running =
        some (inner, .returned (.ok ())) →
      (∀ files, .powerLoss files ∉ after) →
      Loads serialize parse default path (fun inner' => inner' = inner ∨ .save inner' ∈ after)
        files) := by
  dsimp only
  refine ⟨?_, ?_, ?_⟩
  · have hstart : (start old : ConfigFile T).Saving serialize path (.save · ∈ events) :=
      ⟨sound_start serialize path old, fun _ _ h => nomatch h⟩
    have hholds := hstart.holds_final
      (P := fun v => v = old.get? path ∨ Written serialize (.save · ∈ events) v)
      (fun v hv => Or.inr hv)
      ⟨Or.inl rfl, fun v hv => Or.inl (by simpa [cell, start] using hv)⟩
      (fun _ h => h) hpossible
    rcases hholds.now with hold | hwritten
    · exact Or.inl (load_congr hold)
    · exact Or.inr (loads_of_written hround default hwritten)
  · rintro before after inner n rfl hrunning
    obtain ⟨data, stage, hdata, hcell, hrunning'⟩ :=
      (sound_final serialize path old before).flushed hrunning n
    rw [List.append_cons] at hpossible
    rw [List.append_cons, final_append, final_append]
    have hsaving := (sound_final serialize path old before).next.saving hrunning'
      (W := fun inner' => inner' = inner ∨ .save inner' ∈ after) (Or.inl rfl)
    have hwritten : Written serialize (fun inner' => inner' = inner ∨ .save inner' ∈ after)
        (some data) := ⟨inner, data, Or.inl rfl, hdata, rfl⟩
    apply loads_of_written hround default
    refine (hsaving.holds_final (fun _ h => h) ?_ (fun _ h => Or.inr h) ?_).now
    · rw [hcell]
      exact ⟨hwritten, List.forall_mem_singleton.mpr hwritten⟩
    · intro t ht
      apply hpossible t
      rw [transitions_append, final_append]
      exact List.mem_append_right _ ht
  · rintro before after inner rfl hrunning hpower
    have hsound := sound_final serialize path old before
    obtain ⟨data, hdata, hget⟩ := hsound.running inner _ hrunning
    rw [final_append]
    have hsaving := hsound.saving hrunning
      (W := fun inner' => inner' = inner ∨ .save inner' ∈ after) (Or.inl rfl)
    apply loads_of_written hround default
    apply hsaving.now_final (fun _ h => h) _ (fun _ h => Or.inr h) hpower
    exact ⟨inner, data, Or.inl rfl, hdata, hget⟩

end Loads

/-! ## A configuration with one entry -/

/-- The text of a configuration with the one entry `include_location`. -/
def locationText (b : Bool) : List Char :=
  "include_location = ".toList ++ (if b then "true" else "false").toList ++ ['\n']

def serializeLocation (b : Bool) : Except String Bytes := .ok (asBytes (locationText b))

def parseLocation (text : List Char) : Except String Bool :=
  if text = locationText true then .ok true
  else if text = locationText false then .ok false
  else .error "TOML parse error"

theorem roundTrips_location : Config.RoundTrips serializeLocation parseLocation := by
  intro b data hdata
  cases hdata
  refine ⟨locationText b, fromUtf8_eq_some_iff.mpr rfl, ?_⟩
  cases b <;> decide

/-- A save up to the rename. -/
def upToRename (b : Bool) : List (FileEvent Bool) :=
  .save b :: List.replicate 5 (.call (.ok 100))

/-- A save, and another one after whose rename the power fails. -/
def interrupted : List (FileEvent Bool) := upToRename true ++ .call (.ok 0) :: upToRename false

/-- What the programs see then. -/
def interruptedFiles : Files :=
  (final (next serializeLocation (Path.new "/etc/mission/core.toml")) (start .empty)
    interrupted).disk.files

theorem refines_interrupted :
    transitions WriteBack.next
        ⟨Files.empty.get? (Path.new "/etc/mission/core.toml"),
          [Files.empty.get? (Path.new "/etc/mission/core.toml")]⟩
        (labels (next serializeLocation (Path.new "/etc/mission/core.toml"))
          (change serializeLocation (Path.new "/etc/mission/core.toml")) (start .empty)
          (interrupted ++ [.powerLoss interruptedFiles])) =
      (transitions (next serializeLocation (Path.new "/etc/mission/core.toml")) (start .empty)
        (interrupted ++ [.powerLoss interruptedFiles])).map fun t =>
          ⟨t.before.cell (Path.new "/etc/mission/core.toml"),
            t.before.change serializeLocation (Path.new "/etc/mission/core.toml") t.input,
            t.after.cell (Path.new "/etc/mission/core.toml")⟩ :=
  (refines serializeLocation (Path.new "/etc/mission/core.toml") .empty
    (interrupted ++ [.powerLoss interruptedFiles])
    (possible_of_calls _ _ .empty (by simp [interrupted, upToRename]))).1

theorem load_of_interrupted :
    Loads serializeLocation parseLocation false (Path.new "/etc/mission/core.toml")
      (fun b => b = true ∨ .save b ∈ upToRename false ++ [.powerLoss interruptedFiles])
      (final (next serializeLocation (Path.new "/etc/mission/core.toml")) (start .empty)
        (interrupted ++ [.powerLoss interruptedFiles])).disk.files :=
  (load_of_run roundTrips_location false .empty (interrupted ++ [.powerLoss interruptedFiles])
    (possible_of_calls _ _ .empty (by simp [interrupted, upToRename]))).2.1
      (upToRename true) (upToRename false ++ [.powerLoss interruptedFiles]) true 0 rfl (by decide)

end ConfigFile

end MissionOs.Core
