import MissionOs.Lib.Runs
import MissionOs.Rust.OpenFile

/-!
# Saving a configuration

`Config::save` of `config.rs`, step by step: what it does between two calls of the file system
is one `Stage`, and `Config.step` is the next call.  `Saves` is any number of saves over one
file system, in any order of their steps.

The file that is written before the rename is named after the target, with the extension
replaced.  Two saves to one path share it, and so do two to `mission.toml` and `mission.json`;
a save to `mission.toml` even shares it with a target of the name `mission.toml.tmp`.
`intact_of_run` says that nothing else can go wrong.
-/

namespace MissionOs.Core

open MissionOs.Lib MissionOs.Rust

/-- `ErrorCode`, as far as a save returns it. -/
inductive ErrorCode where
  | configError
  | ioError
deriving DecidableEq, Repr

/-- `Error`, with the text of its source. -/
structure Error where
  code : ErrorCode
  message : String
  source : String
deriving DecidableEq, Repr

/-- `Config`. -/
structure Config (T : Type) where
  inner : T
  path : Path

/-- How a call of the file system ends: with an error, or, for a write, with the number of
bytes that were written. -/
abbrev Outcome := Except String Nat

/-- Where a save stands between two calls. -/
inductive Stage where
  | called
  /-- It is serialized, and the directory is there. -/
  | creating (data : Bytes)
  /-- The temporary file is open, and some bytes are written. -/
  | writing (data : Bytes) (file : Inode) (written : Nat)
  /-- The temporary file is written and closed. -/
  | closed (data : Bytes)
  | syncingDir
  | returned (result : Except Error Unit)
deriving DecidableEq

namespace Config

variable {T : Type}

/-- `tmp_path` of a target path. -/
def tmpPath (path : Path) : Path := path.withExtension "toml.tmp"

/-- The end of a save with an error of the file system. -/
def failed (message source : String) : Stage := .returned (.error ⟨.ioError, message, source⟩)

variable (serialize : T → Except String Bytes)

/-- The next call of `Config::save_to`.  `serialize` is `toml::to_string_pretty`. -/
def step (c : Config T) (outcome : Outcome) : Stage × Files → Stage × Files
  | (.called, fs) =>
    match serialize c.inner with
    | .error e => (.returned (.error ⟨.configError, "failed to serialize configuration", e⟩), fs)
    | .ok data =>
      match c.path.parent, outcome with
      | some parent, .error e =>
        (failed ("failed to create config directory: " ++ parent.display) e, fs)
      | _, _ => (.creating data, fs)
  | (.creating data, fs) =>
    match outcome with
    | .error e =>
      (failed ("failed to create temporary config file: " ++ (tmpPath c.path).display) e, fs)
    | .ok _ =>
      let (file, fs) := fs.create (tmpPath c.path)
      (.writing data file 0, fs)
  | (.writing data file written, fs) =>
    match data.drop written, outcome with
    | [], .error e => (failed "failed to sync configuration file" e, fs)
    | [], .ok _ => (.closed data, fs)
    | _, .error e => (failed "failed to write configuration data" e, fs)
    | _, .ok 0 =>
      (failed "failed to write configuration data" "failed to write whole buffer", fs)
    | rest, .ok n =>
      (.writing data file (written + (rest.take n).length), fs.write file written (rest.take n))
  | (.closed _, fs) =>
    let message := "failed to atomically rename config file: " ++ (tmpPath c.path).display ++
      " -> " ++ c.path.display
    match outcome with
    | .error e => (failed message e, fs)
    | .ok _ =>
      match fs.rename (tmpPath c.path) c.path with
      | none => (failed message "No such file or directory (os error 2)", fs)
      | some fs => (.syncingDir, fs)
  -- Whether the directory can be synced does not matter.
  | (.syncingDir, fs) => (.returned (.ok ()), fs)
  | (.returned result, fs) => (.returned result, fs)

end Config

/-! ## Any number of saves -/

/-- The saves, by a name for each, and the files. -/
structure Saves (ι : Type) where
  stages : ι → Stage
  files : Files

namespace Saves

variable {ι T : Type}

/-- The temporary file of a save. -/
def tmp (configs : ι → Config T) (i : ι) : Path := Config.tmpPath (configs i).path

/-- The saves before their first step. -/
def start (files : Files) : Saves ι := ⟨fun _ => .called, files⟩

variable [DecidableEq ι] (serialize : T → Except String Bytes) (configs : ι → Config T)

/-- What is after a step of one save. -/
def move (s : Saves ι) (i : ι) (after : Stage × Files) : Saves ι :=
  ⟨Function.update s.stages i after.1, after.2⟩

/-- What is after the next step. -/
def next (input : ι × Outcome) (s : Saves ι) : Saves ι :=
  s.move input.1 ((configs input.1).step serialize input.2 (s.stages input.1, s.files))

end Saves

/-! ## What can be relied on -/

namespace Stage

/-- The temporary file of a save is there, and not yet renamed. -/
def isOpen : Stage → Bool
  | .writing _ _ _ | .closed _ => true
  | _ => false

/-- The target of a save is written. -/
def isRenamed : Stage → Bool
  | .syncingDir | .returned (.ok ()) => true
  | _ => false

/-- A save carries its own data, and its temporary file has as much of it as is written. -/
def Sound (serialized : Except String Bytes) (tmp : Option (Inode × Bytes)) : Stage → Prop
  | .called | .syncingDir | .returned _ => True
  | .creating data => serialized = .ok data
  | .writing data file written =>
    serialized = .ok data ∧ written ≤ data.length ∧ tmp = some (file, data.take written)
  | .closed data => serialized = .ok data ∧ ∃ file, tmp = some (file, data)

theorem Sound.congr {serialized : Except String Bytes} {tmp tmp' : Option (Inode × Bytes)}
    {stage : Stage} (h : stage.Sound serialized tmp)
    (hsame : stage.isOpen = true → tmp' = tmp) : stage.Sound serialized tmp' := by
  cases stage with
  | writing data file written => exact (hsame rfl).symm ▸ h
  | closed data => exact (hsame rfl).symm ▸ h
  | _ => exact h

end Stage

/-- What the next call of a save does to it and to the files. -/
inductive Config.Stepped {T : Type} (serialize : T → Except String Bytes) (c : Config T)
    (outcome : Outcome) (stage : Stage) (fs : Files) : Stage × Files → Prop
  /-- It touches no file. -/
  | inner (after : Stage)
      (hsound : ∀ tmp, stage.Sound (serialize c.inner) tmp → after.Sound (serialize c.inner) tmp)
      (hopen : after.isOpen = true → stage.isOpen = true)
      (hrenamed : stage.isRenamed = true → after.isRenamed = true) :
      Stepped serialize c outcome stage fs (after, fs)
  | creates (data : Bytes) (n : Nat) (hstage : stage = .creating data) (hok : outcome = .ok n) :
      Stepped serialize c outcome stage fs
        (.writing data (fs.create (tmpPath c.path)).1 0, (fs.create (tmpPath c.path)).2)
  | writes (data : Bytes) (file : Inode) (written n : Nat)
      (hstage : stage = .writing data file written) :
      Stepped serialize c outcome stage fs
        (.writing data file (written + ((data.drop written).take n).length),
          fs.write file written ((data.drop written).take n))
  | renames (data : Bytes) (fs' : Files) (hstage : stage = .closed data)
      (hrename : fs.rename (tmpPath c.path) c.path = some fs') :
      Stepped serialize c outcome stage fs (.syncingDir, fs')

theorem Config.step_stepped {T : Type} (serialize : T → Except String Bytes) (c : Config T)
    (outcome : Outcome) (stage : Stage) (fs : Files) :
    c.Stepped serialize outcome stage fs (c.step serialize outcome (stage, fs)) := by
  have hfail : ∀ message e, stage.isRenamed = false →
      c.Stepped serialize outcome stage fs (failed message e, fs) := by
    intro message e hstage
    exact .inner _ (fun _ _ => trivial) (fun h => nomatch h) fun h => absurd h (by simp [hstage])
  cases stage with
  | called =>
      simp only [step]
      cases hdata : serialize c.inner with
      | error e => exact .inner _ (fun _ _ => trivial) (fun h => nomatch h) fun h => nomatch h
      | ok data =>
          dsimp only
          split
          · exact hfail _ _ rfl
          · exact .inner _ (fun _ _ => hdata) (fun h => nomatch h) fun h => nomatch h
  | creating data =>
      cases outcome with
      | error e => exact hfail _ e rfl
      | ok n => exact .creates data n rfl rfl
  | writing data file written =>
      simp only [step]
      split
      · exact hfail _ _ rfl
      · rename_i hrest
        refine .inner _ ?_ (fun _ => rfl) fun h => nomatch h
        intro tmp ⟨hdata, _, htmp⟩
        rw [List.take_of_length_le (List.drop_eq_nil_iff.mp hrest)] at htmp
        exact ⟨hdata, file, htmp⟩
      · exact hfail _ _ rfl
      · exact hfail _ _ rfl
      · exact .writes data file written _ rfl
  | closed data =>
      simp only [step]
      split
      · exact hfail _ _ rfl
      · split
        · exact hfail _ _ rfl
        · exact .renames data _ rfl ‹_›
  | syncingDir => exact .inner _ (fun _ h => h) (fun h => nomatch h) fun _ => rfl
  | returned result => exact .inner _ (fun _ h => h) (fun h => h) fun h => h

namespace Saves

variable {ι T : Type} (serialize : T → Except String Bytes) (configs : ι → Config T)

/-- Every target has its old bytes, or all the bytes of a configuration that was saved to
it. -/
def Intact (old : Files) (s : Saves ι) : Prop :=
  ∀ i, s.files.get? (configs i).path = old.get? (configs i).path ∨
    ∃ j data, (configs j).path.resolve = (configs i).path.resolve ∧
      (s.stages j).isRenamed = true ∧ serialize (configs j).inner = .ok data ∧
      s.files.get? (configs i).path = some data

/-- The temporary file that a save is about to create is no target, and no other save has it
open. -/
def CreatesApart (s : Saves ι) (input : ι × Outcome) : Prop :=
  ∀ data n, s.stages input.1 = .creating data → input.2 = .ok n →
    (∀ j, j ≠ input.1 → (s.stages j).isOpen = true →
      (tmp configs j).resolve ≠ (tmp configs input.1).resolve) ∧
    ∀ j, (configs j).path.resolve ≠ (tmp configs input.1).resolve

/-- The invariant. -/
structure Consistent (old : Files) (s : Saves ι) : Prop where
  sound : ∀ i, (s.stages i).Sound (serialize (configs i).inner) (s.files.at? (tmp configs i))
  apart : ∀ i j, i ≠ j → (s.stages i).isOpen = true → (s.stages j).isOpen = true →
    (tmp configs i).resolve ≠ (tmp configs j).resolve
  off_target : ∀ i j, (s.stages i).isOpen = true →
    (configs j).path.resolve ≠ (tmp configs i).resolve
  intact : s.Intact serialize configs old

section Consistent

variable {serialize configs} {old : Files} {s : Saves ι}

variable [DecidableEq ι]

@[simp] theorem stages_move_self (s : Saves ι) (i : ι) (after : Stage × Files) :
    (s.move i after).stages i = after.1 := Function.update_self ..

theorem stages_move_of_ne (s : Saves ι) {i j : ι} (after : Stage × Files) (hne : j ≠ i) :
    (s.move i after).stages j = s.stages j := Function.update_of_ne hne ..

/-- A step keeps the invariant if it leaves the temporary files of the others and the targets
alone, or puts all the bytes of its own configuration into its target. -/
theorem Consistent.move (h : s.Consistent serialize configs old) {i : ι} {stage : Stage}
    {files : Files}
    (hsound : stage.Sound (serialize (configs i).inner) (files.at? (tmp configs i)))
    (hopen : stage.isOpen = true → (∀ j, j ≠ i → (s.stages j).isOpen = true →
      (tmp configs j).resolve ≠ (tmp configs i).resolve) ∧
        ∀ j, (configs j).path.resolve ≠ (tmp configs i).resolve)
    (hrenamed : (s.stages i).isRenamed = true → stage.isRenamed = true)
    (hothers : ∀ j, j ≠ i → (s.stages j).isOpen = true →
      files.at? (tmp configs j) = s.files.at? (tmp configs j))
    (htargets : ∀ j, files.get? (configs j).path = s.files.get? (configs j).path ∨
      ∃ data, (configs i).path.resolve = (configs j).path.resolve ∧ stage.isRenamed = true ∧
        serialize (configs i).inner = .ok data ∧ files.get? (configs j).path = some data) :
    (s.move i (stage, files)).Consistent serialize configs old := by
  constructor
  · intro j
    by_cases hj : j = i
    · rw [hj, stages_move_self]
      exact hsound
    · rw [stages_move_of_ne s _ hj]
      exact (h.sound j).congr fun hisOpen => hothers j hj hisOpen
  · intro j k hne hj hk
    by_cases hji : j = i
    · have hki : k ≠ i := fun hki => hne (hji.trans hki.symm)
      rw [hji, stages_move_self] at hj
      rw [stages_move_of_ne s _ hki] at hk
      rw [hji]
      exact ((hopen hj).1 k hki hk).symm
    · rw [stages_move_of_ne s _ hji] at hj
      by_cases hki : k = i
      · rw [hki, stages_move_self] at hk
        rw [hki]
        exact (hopen hk).1 j hji hj
      · rw [stages_move_of_ne s _ hki] at hk
        exact h.apart j k hne hj hk
  · intro j k hj
    by_cases hji : j = i
    · rw [hji, stages_move_self] at hj
      rw [hji]
      exact (hopen hj).2 k
    · rw [stages_move_of_ne s _ hji] at hj
      exact h.off_target j k hj
  · intro j
    rcases htargets j with hsame | ⟨data, hpath, hdone, hdata, hget⟩
    · rcases h.intact j with hold | ⟨k, data, hpath, hdone, hdata, hget⟩
      · exact Or.inl (hsame.trans hold)
      · refine Or.inr ⟨k, data, hpath, ?_, hdata, hsame.trans hget⟩
        by_cases hk : k = i
        · rw [hk] at hdone ⊢
          rw [stages_move_self]
          exact hrenamed hdone
        · rw [stages_move_of_ne s _ hk]
          exact hdone
    · refine Or.inr ⟨i, data, hpath, ?_, hdata, hget⟩
      rw [stages_move_self]
      exact hdone

omit [DecidableEq ι] in
theorem consistent_start (old : Files) :
    (start old : Saves ι).Consistent serialize configs old where
  sound _ := trivial
  apart _ _ _ hi _ := nomatch hi
  off_target _ _ hi := nomatch hi
  intact _ := Or.inl rfl

/-- The step lemma. -/
theorem Consistent.next (h : s.Consistent serialize configs old) {input : ι × Outcome}
    (hcreates : s.CreatesApart configs input) :
    (Saves.next serialize configs input s).Consistent serialize configs old := by
  obtain ⟨i, outcome⟩ := input
  have hstep := Config.step_stepped serialize (configs i) outcome (s.stages i) s.files
  simp only [Saves.next]
  generalize (configs i).step serialize outcome (s.stages i, s.files) = after at hstep
  cases hstep with
  | inner after hsound hopen hrenamed =>
      apply h.move (hsound _ (h.sound i))
      · intro hafter
        exact ⟨fun j hj hisOpen => h.apart j i hj hisOpen (hopen hafter),
          fun j => h.off_target i j (hopen hafter)⟩
      · exact hrenamed
      · exact fun _ _ _ => rfl
      · exact fun _ => Or.inl rfl
  | creates data n hstage hok =>
      obtain ⟨hapart, hoff⟩ := hcreates data n hstage hok
      have hdata := h.sound i
      rw [hstage] at hdata
      apply h.move
      · exact ⟨hdata, Nat.zero_le _, Files.at?_create_self _ _⟩
      · exact fun _ => ⟨hapart, hoff⟩
      · simp [hstage, Stage.isRenamed]
      · intro j hj hisOpen
        exact Files.at?_create_of_ne (hapart j hj hisOpen)
      · intro j
        exact Or.inl (Files.get?_congr_at? (Files.at?_create_of_ne (hoff j)))
  | writes data file written n hstage =>
      have hopen : (s.stages i).isOpen = true := by rw [hstage]; rfl
      obtain ⟨hdata, hwritten, htmp⟩ : (Stage.writing data file written).Sound
          (serialize (configs i).inner) (s.files.at? (tmp configs i)) := hstage ▸ h.sound i
      apply h.move
      · refine ⟨hdata, ?_, ?_⟩
        · simp only [List.length_take, List.length_drop]
          omega
        · exact Files.at?_write_next htmp hwritten n
      · intro _
        exact ⟨fun j hj hisOpen => h.apart j i hj hisOpen hopen, fun j => h.off_target i j hopen⟩
      · simp [hstage, Stage.isRenamed]
      · intro j hj hisOpen
        exact Files.at?_write_of_ne htmp (h.apart j i hj hisOpen hopen) _ _
      · intro j
        exact Or.inl (Files.get?_congr_at?
          (Files.at?_write_of_ne htmp (h.off_target i j hopen) _ _))
  | renames data fs' hstage hrename =>
      have hopen : (s.stages i).isOpen = true := by rw [hstage]; rfl
      obtain ⟨hdata, file, htmp⟩ : (Stage.closed data).Sound
          (serialize (configs i).inner) (s.files.at? (tmp configs i)) := hstage ▸ h.sound i
      apply h.move
      · trivial
      · exact fun hafter => nomatch hafter
      · exact fun _ => rfl
      · intro j hj hisOpen
        exact Files.at?_rename_of_ne hrename (h.apart j i hj hisOpen hopen)
          (h.off_target j i hisOpen).symm
      · intro j
        by_cases hpath : (configs j).path.resolve = (configs i).path.resolve
        · refine Or.inr ⟨data, hpath.symm, rfl, hdata, ?_⟩
          have hget := Files.get?_of_at? (Files.at?_rename_self hrename htmp)
          rwa [Files.get?, Files.at?, ← hpath] at hget
        · exact Or.inl (Files.get?_congr_at?
            (Files.at?_rename_of_ne hrename (h.off_target i j hopen) hpath))

/-- In every run of any number of saves in which each temporary file is created while no other
save has it open, and is no target, every target has its old bytes or all the bytes of a
configuration that was saved to it, after every step. -/
theorem intact_of_run (old : Files) (inputs : List (ι × Outcome))
    (hcreates : ∀ t ∈ transitions (Saves.next serialize configs) (start old) inputs,
      t.before.CreatesApart configs t.input) :
    ∀ t ∈ transitions (Saves.next serialize configs) (start old) inputs,
      t.after.Intact serialize configs old := by
  intro t ht
  have hconsistent := transitions_invariant (I := Consistent serialize configs old)
    (C := CreatesApart configs) (fun _ _ h hC => h.next hC) (consistent_start old) hcreates t ht
  exact hconsistent.2.intact

omit [DecidableEq ι] in
/-- Saves whose temporary files are apart from each other and from the targets never disturb
each other. -/
theorem createsApart_of_apart (s : Saves ι) (input : ι × Outcome)
    (htmp : ∀ i j, i ≠ j → (tmp configs i).resolve ≠ (tmp configs j).resolve)
    (htarget : ∀ i j, (configs i).path.resolve ≠ (tmp configs j).resolve) :
    s.CreatesApart configs input :=
  fun _ _ _ _ => ⟨fun j hj _ => htmp j input.1 hj, fun j => htarget j input.1⟩

end Consistent

/-! ## Two saves -/

/-- A configuration that is its own text. -/
def verbatim (data : Bytes) : Except String Bytes := .ok data

/-- Two saves to files of one directory, the second of them with `true`. -/
def pair (p q : String) (a b : Bytes) (i : Bool) : Config Bytes :=
  if i then ⟨b, Path.new q⟩ else ⟨a, Path.new p⟩

/-- The steps of two saves in turn; each write takes everything. -/
def inTurn : List (Bool × Outcome) :=
  (List.replicate 6 [(false, .ok 100), (true, .ok 100)]).flatten

theorem intact_pair :
    inTurn.length = 12 ∧ ∀ t ∈ transitions (next verbatim
        (pair "/etc/mission/shell.toml" "/etc/mission/core.toml" [1] [2])) (start .empty) inTurn,
      t.after.Intact verbatim (pair "/etc/mission/shell.toml" "/etc/mission/core.toml" [1] [2])
        .empty :=
  ⟨rfl, intact_of_run .empty inTurn fun t _ =>
    createsApart_of_apart t.before t.input (by decide) (by decide)⟩

/-- Two saves to one path: the second one opens and truncates the file that the first one is
about to rename. -/
def overlapping : List (Bool × Outcome) :=
  [(false, .ok 0), (true, .ok 0), (false, .ok 0), (false, .ok 100), (false, .ok 0),
    (true, .ok 0), (false, .ok 0)]

theorem target_truncated :
    ¬ ∀ t ∈ transitions (next verbatim
        (pair "/etc/mission/core.toml" "/etc/mission/core.toml" [1] [2])) (start .empty)
        overlapping,
      t.after.Intact verbatim (pair "/etc/mission/core.toml" "/etc/mission/core.toml" [1] [2])
        .empty := by
  intro h
  have hlast := h ⟨_, (false, .ok 0), final (next verbatim
    (pair "/etc/mission/core.toml" "/etc/mission/core.toml" [1] [2])) (start .empty)
      overlapping⟩ (List.mem_of_getLast? rfl) false
  have hempty : (final (next verbatim
      (pair "/etc/mission/core.toml" "/etc/mission/core.toml" [1] [2])) (start .empty)
      overlapping).files.get? (Path.new "/etc/mission/core.toml") = some [] := by decide
  rcases hlast with hold | ⟨j, data, -, -, hdata, hget⟩
  · cases hempty.symm.trans hold
  · cases hempty.symm.trans hget
    cases j <;> cases hdata

end Saves

end MissionOs.Core
