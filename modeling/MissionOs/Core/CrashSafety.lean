import MissionOs.Core.Config
import MissionOs.Rust.Disk

/-!
# A power loss while a configuration is saved

One save over a disk: `Config.diskStep` is `Config.step` with what each call brings to the
disk.  The power may fail before any of the calls, and what it leaves then is what
`Disk.Leaves` says.  A call that is cut short leaves no more than its beginning or its end
would: a rename is one change, and of bytes that are being written nothing is known.

A path without a file name is a directory, or empty.  Such a path is its own temporary path,
but it cannot be created as a file, so that nothing is renamed to it.
-/

namespace MissionOs.Core

open MissionOs.Lib MissionOs.Rust

namespace Config

variable {T : Type}

/-! ## One save over a disk -/

/-- How a call can end: no file is created where a path has no file name. -/
def allowed (c : Config T) (outcome : Outcome) : Stage → Outcome
  | .creating _ =>
    match c.path.fileName, outcome with
    | none, .ok _ => .error "Is a directory (os error 21)"
    | _, outcome => outcome
  | _ => outcome

/-- What a call brings to the disk. -/
def settle (c : Config T) (outcome : Outcome) (d : Disk) (files : Files) : Stage → Stage → Disk
  | .writing _ file _, .closed _ => d.sync file
  | .syncingDir, _ =>
    match c.path.parent, outcome with
    | some parent, .ok _ => d.syncDir parent.resolve
    | _, _ => d
  | _, _ => d.follow files

variable (serialize : T → Except String Bytes)

/-- The next call of a save. -/
def diskStep (c : Config T) (outcome : Outcome) (s : Stage × Disk) : Stage × Disk :=
  let after := c.step serialize (c.allowed outcome s.1) (s.1, s.2.files)
  (after.1, c.settle outcome s.2 after.2 s.1 after.1)

/-- The stage and the disk after some calls of a save. -/
def saving (c : Config T) (old : Files) (outcomes : List Outcome) : Stage × Disk :=
  final (c.diskStep serialize) (.called, Disk.durable old) outcomes

/-! ## The temporary path -/

/-- A file name is not the one that its temporary file has. -/
theorem ne_tmpName (name : String) : Path.stem name ++ "." ++ "toml.tmp" ≠ name := by
  intro heq
  have hname : name ≠ "" := by
    intro hempty
    have hlist := congrArg String.toList heq
    rw [hempty] at hlist
    simp at hlist
  have hbase : Path.stem name ++ ".toml" ≠ "" := by
    intro hempty
    have hlist := congrArg String.toList hempty
    simp at hlist
  have hsplit : Path.stem name ++ ".toml" ++ "." ++ "tmp" = name := by
    rw [String.append_assoc, String.append_assoc]
    rwa [String.append_assoc] at heq
  -- the stem of the temporary name has a `.toml` more than the name itself
  have hstem : Path.stem (Path.stem name ++ ".toml" ++ "." ++ "tmp") =
      Path.stem name ++ ".toml" := Path.stem_dotted hbase (by decide)
  rw [hsplit] at hstem
  have hlength := congrArg (fun s : String => s.toList.length) hstem
  simp at hlength

/-- So a target that has a file name is not its own temporary file. -/
theorem tmpPath_resolve_ne {path : Path} {name : String} (h : path.fileName = some name) :
    path.resolve ≠ (tmpPath path).resolve := by
  have hdots : Path.stem name ++ "." ++ "toml.tmp" ≠ ".." := by
    intro heq
    have hlast := congrArg (fun s : String => s.toList.getLast?) heq
    simp at hlast
  have htmp := Path.resolve_withExtension path h hdots
  rw [tmpPath, htmp, Path.resolve_of_fileName h]
  intro heq
  have hnames := List.append_cancel_left heq
  rw [List.cons.injEq] at hnames
  exact ne_tmpName name hnames.1.symm

/-! ## What a call does -/

/-- What the next call of a save does to it and to the disk. -/
inductive DiskStepped (c : Config T) : Stage × Disk → Stage × Disk → Prop where
  | fails (stage : Stage) (d : Disk) (e : Error) (hstage : stage.isRenamed = false) :
      DiskStepped c (stage, d) (.returned (.error e), d)
  | serializes (data : Bytes) (d : Disk) (hdata : serialize c.inner = .ok data) :
      DiskStepped c (.called, d) (.creating data, d)
  | creates (data : Bytes) (d : Disk) (name : String) (hname : c.path.fileName = some name) :
      DiskStepped c (.creating data, d)
        (.writing data (d.files.create (tmpPath c.path)).1 0,
          d.follow (d.files.create (tmpPath c.path)).2)
  | writes (data : Bytes) (file : Inode) (written n : Nat) (d : Disk) :
      DiskStepped c (.writing data file written, d)
        (.writing data file (written + ((data.drop written).take n).length),
          d.follow (d.files.write file written ((data.drop written).take n)))
  | syncs (data : Bytes) (file : Inode) (written : Nat) (d : Disk)
      (hrest : data.drop written = []) :
      DiskStepped c (.writing data file written, d) (.closed data, d.sync file)
  | renames (data : Bytes) (d : Disk) (files : Files)
      (hrename : d.files.rename (tmpPath c.path) c.path = some files) :
      DiskStepped c (.closed data, d) (.syncingDir, d.follow files)
  | finishes (d : Disk) : DiskStepped c (.syncingDir, d) (.returned (.ok ()), d)
  | finishesSynced (d : Disk) (dir : List String) :
      DiskStepped c (.syncingDir, d) (.returned (.ok ()), d.syncDir dir)
  | rests (result : Except Error Unit) (d : Disk) :
      DiskStepped c (.returned result, d) (.returned result, d)

theorem diskStep_stepped (c : Config T) (outcome : Outcome) (stage : Stage) (d : Disk) :
    DiskStepped serialize c (stage, d) (c.diskStep serialize outcome (stage, d)) := by
  have hfail : ∀ message source, stage.isRenamed = false → DiskStepped serialize c (stage, d)
      (failed message source, d.follow d.files) := by
    intro message source hstage
    rw [Disk.follow_self]
    exact .fails stage d ⟨.ioError, message, source⟩ hstage
  cases stage with
  | called =>
      simp only [diskStep, step, allowed]
      cases hdata : serialize c.inner with
      | error e =>
          show DiskStepped serialize c _ (_, d.follow d.files)
          rw [Disk.follow_self]
          exact .fails .called d _ rfl
      | ok data =>
          dsimp only
          split
          · exact hfail _ _ rfl
          · show DiskStepped serialize c _ (_, d.follow d.files)
            rw [Disk.follow_self]
            exact .serializes data d hdata
  | creating data =>
      simp only [diskStep, allowed]
      cases hname : c.path.fileName with
      | none =>
          cases outcome with
          | error e => exact hfail _ _ rfl
          | ok n => exact hfail _ _ rfl
      | some name =>
          cases outcome with
          | error e => exact hfail _ _ rfl
          | ok n => exact .creates data d name hname
  | writing data file written =>
      simp only [diskStep, step, allowed]
      split
      · exact hfail _ _ rfl
      · exact .syncs data file written d ‹_›
      · exact hfail _ _ rfl
      · exact hfail _ _ rfl
      · exact .writes data file written _ d
  | closed data =>
      simp only [diskStep, step, allowed]
      split
      · exact hfail _ _ rfl
      · split
        · exact hfail _ _ rfl
        · exact .renames data d _ ‹_›
  | syncingDir =>
      simp only [diskStep, step, settle]
      split
      · exact .finishesSynced d _
      · exact .finishes d
  | returned result =>
      show DiskStepped serialize c _ (_, d.follow d.files)
      rw [Disk.follow_self]
      exact .rests result d

/-! ## What holds between the calls -/

/-- Before the rename the target is not touched, and the temporary file, which is another
one, has the bytes that are written; after it the target is replaced. -/
def Safe (c : Config T) (old : Files) : Stage × Disk → Prop
  | (.called, d) => d.Untouched old c.path
  | (.creating data, d) => d.Untouched old c.path ∧ serialize c.inner = .ok data
  | (.writing data file written, d) =>
    d.Untouched old c.path ∧ serialize c.inner = .ok data ∧ c.path.fileName ≠ none ∧
      written ≤ data.length ∧ d.files.at? (tmpPath c.path) = some (file, data.take written)
  | (.closed data, d) =>
    d.Untouched old c.path ∧ serialize c.inner = .ok data ∧ c.path.fileName ≠ none ∧
      ∃ file, d.files.at? (tmpPath c.path) = some (file, data) ∧ d.synced file = true
  | (.syncingDir, d) =>
    ∃ data, serialize c.inner = .ok data ∧ c.path.fileName ≠ none ∧ d.Replaced old c.path data
  | (.returned (.ok ()), d) => ∃ data, serialize c.inner = .ok data ∧ d.Replaced old c.path data
  | (.returned (.error _), d) => d.Untouched old c.path

section Safe

variable {serialize} {c : Config T} {old : Files} {s s' : Stage × Disk}

/-- A call that fails before the rename leaves the target as it was. -/
theorem Safe.untouched {stage : Stage} {d : Disk} (h : Safe serialize c old (stage, d))
    (hstage : stage.isRenamed = false) : d.Untouched old c.path := by
  cases stage with
  | called => exact h
  | creating data => exact h.1
  | writing data file written => exact h.1
  | closed data => exact h.1
  | syncingDir => cases hstage
  | returned result =>
      cases result with
      | error e => exact h
      | ok u => cases hstage

/-- The step lemma. -/
theorem Safe.next (h : Safe serialize c old s) (hstep : DiskStepped serialize c s s') :
    Safe serialize c old s' := by
  cases hstep with
  | fails stage d e hstage => exact h.untouched hstage
  | serializes data d hdata => exact ⟨h, hdata⟩
  | creates data d name hname =>
      obtain ⟨htarget, hdata⟩ := h
      have hne := tmpPath_resolve_ne hname
      refine ⟨htarget.follow (Files.at?_create_of_ne hne), hdata, ?_, Nat.zero_le _, ?_⟩
      · rw [hname]
        exact Option.some_ne_none name
      · exact Files.at?_create_self d.files (tmpPath c.path)
  | writes data file written n d =>
      obtain ⟨htarget, hdata, hname, hwritten, htmp⟩ := h
      obtain ⟨name, hsome⟩ := Option.ne_none_iff_exists'.mp hname
      have hne := tmpPath_resolve_ne hsome
      refine ⟨htarget.follow (Files.at?_write_of_ne htmp hne _ _), hdata, hname, ?_, ?_⟩
      · rw [List.length_take, List.length_drop]
        omega
      · exact Files.at?_write_next htmp hwritten n
  | syncs data file written d hrest =>
      obtain ⟨htarget, hdata, hname, -, htmp⟩ := h
      rw [List.take_of_length_le (List.drop_eq_nil_iff.mp hrest)] at htmp
      exact ⟨htarget.sync file, hdata, hname, file, htmp, d.synced_sync file⟩
  | renames data d files hrename =>
      obtain ⟨htarget, hdata, hname, file, htmp, hsynced⟩ := h
      exact ⟨data, hdata, hname, htarget.rename htmp hsynced hrename⟩
  | finishes d =>
      obtain ⟨data, hdata, -, hreplaced⟩ := h
      exact ⟨data, hdata, hreplaced⟩
  | finishesSynced d dir =>
      obtain ⟨data, hdata, -, hreplaced⟩ := h
      exact ⟨data, hdata, hreplaced.syncDir dir⟩
  | rests result d => exact h

end Safe

/-- It holds after any calls. -/
theorem safe_saving (c : Config T) (old : Files) (outcomes : List Outcome) :
    Safe serialize c old (c.saving serialize old outcomes) := by
  apply final_invariant (I := Safe serialize c old) (C := fun _ _ => True)
  · intro s outcome h _
    exact h.next (diskStep_stepped serialize c outcome s.1 s.2)
  · exact Disk.untouched_durable old c.path
  · intro t _
    trivial

/-- After it either nothing has been done to the target or it is replaced. -/
theorem untouched_or_replaced (c : Config T) (old : Files) (outcomes : List Outcome) :
    (c.saving serialize old outcomes).2.Untouched old c.path ∨
      ∃ data, serialize c.inner = .ok data ∧
        (c.saving serialize old outcomes).2.Replaced old c.path data := by
  have h := safe_saving serialize c old outcomes
  generalize c.saving serialize old outcomes = s at h
  obtain ⟨stage, d⟩ := s
  cases hrenamed : stage.isRenamed with
  | false => exact Or.inl (h.untouched hrenamed)
  | true =>
      right
      cases stage with
      | syncingDir =>
          obtain ⟨data, hdata, -, hreplaced⟩ := h
          exact ⟨data, hdata, hreplaced⟩
      | returned result =>
          cases result with
          | ok u => exact h
          | error e => cases hrenamed
      | _ => cases hrenamed

/-- The old content of a path, or all of the new. -/
def OldOrNew (c : Config T) (old : Files) (v : Option Bytes) : Prop :=
  v = old.get? c.path ∨ ∃ data, serialize c.inner = .ok data ∧ v = some data

/-- Whatever the calls of a save return, and after whichever of them the power fails, the
target has its old content or all of the new, and so has what the power loss leaves.  If the
save has returned an error it is the old content, and a power loss leaves that; if it has
returned without one it is the new. -/
theorem saved_old_or_new (c : Config T) (old : Files) (outcomes : List Outcome) :
    let s := c.saving serialize old outcomes
    OldOrNew serialize c old (s.2.files.get? c.path) ∧
      (∀ v, s.2.Leaves c.path v → OldOrNew serialize c old v) ∧
      (∀ e, s.1 = .returned (.error e) → s.2.files.get? c.path = old.get? c.path ∧
        ∀ v, s.2.Leaves c.path v → v = old.get? c.path) ∧
      (s.1 = .returned (.ok ()) → ∃ data, serialize c.inner = .ok data ∧
        s.2.files.get? c.path = some data) := by
  intro s
  have hsafe : Safe serialize c old s := safe_saving serialize c old outcomes
  have hcases : s.2.Untouched old c.path ∨ ∃ data, serialize c.inner = .ok data ∧
      s.2.Replaced old c.path data := untouched_or_replaced serialize c old outcomes
  clear_value s
  refine ⟨?_, ?_, ?_, ?_⟩
  · rcases hcases with huntouched | ⟨data, hdata, hreplaced⟩
    · exact Or.inl (Files.get?_congr_at? huntouched.at_same)
    · exact Or.inr ⟨data, hdata, hreplaced.get?⟩
  · intro v hv
    rcases hcases with huntouched | ⟨data, hdata, hreplaced⟩
    · exact Or.inl (huntouched.leaves hv)
    · rcases hreplaced.leaves hv with hold | hnew
      · exact Or.inl hold
      · exact Or.inr ⟨data, hdata, hnew⟩
  · intro e he
    have huntouched : s.2.Untouched old c.path := hsafe.untouched (by rw [he]; rfl)
    exact ⟨Files.get?_congr_at? huntouched.at_same, fun v hv => huntouched.leaves hv⟩
  · intro hok
    obtain ⟨stage, d⟩ := s
    cases hok
    obtain ⟨data, hdata, hreplaced⟩ := hsafe
    exact ⟨data, hdata, hreplaced.get?⟩

/-- Once the directory is synced, a power loss leaves the new content. -/
theorem new_of_syncDir (c : Config T) (old : Files) (outcomes : List Outcome) (n : Nat)
    {parent : Path} (hparent : c.path.parent = some parent)
    (hstage : (c.saving serialize old outcomes).1 = .syncingDir) {v : Option Bytes}
    (hv : (c.saving serialize old (outcomes ++ [.ok n])).2.Leaves c.path v) :
    ∃ data, serialize c.inner = .ok data ∧ v = some data := by
  have hsafe := safe_saving serialize c old outcomes
  have hlast : c.saving serialize old (outcomes ++ [.ok n]) =
      c.diskStep serialize (.ok n) (c.saving serialize old outcomes) := List.foldl_concat _ _ _ _
  rw [hlast] at hv
  generalize c.saving serialize old outcomes = s at hv hsafe hstage
  obtain ⟨stage, d⟩ := s
  cases hstage
  obtain ⟨data, hdata, hname, hreplaced⟩ := hsafe
  obtain ⟨name, hsome⟩ := Option.ne_none_iff_exists'.mp hname
  have hsynced : (c.diskStep serialize (.ok n) (.syncingDir, d)).2 = d.syncDir parent.resolve := by
    simp only [diskStep, settle, hparent]
  rw [hsynced] at hv
  have hresolve := Path.resolve_of_fileName hsome
  have hdir : c.path.resolve.dropLast = parent.resolve := by
    rw [hresolve, List.dropLast_concat]
    unfold Path.parent at hparent
    split_ifs at hparent
    cases hparent
    rfl
  exact ⟨data, hdata, hreplaced.leaves_syncDir (by simp [hresolve]) hdir hv⟩

end Config

end MissionOs.Core
