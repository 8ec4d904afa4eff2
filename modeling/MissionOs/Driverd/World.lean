import MissionOs.Driverd.Inventory
import MissionOs.Rust.Path
import MissionOs.Lib.StateProg

/-!
# The daemon and the machine it runs on

`World` is everything that the driver service reads and writes: its inventory,
its operation tracker and sequence counter, the loaded kernel modules, the
files, and the trace of the calls that the present operation has made.

`Env` is what the service cannot decide: the clock, the outcome of a system
call, the answer of PolKit.  Where an operation makes the same kind of call
more than once, the outcome is a function of the number of earlier calls, so a
theorem for every `Env` is a theorem for every sequence of outcomes.

A call that fails by `Env` changes nothing, except that a file copy may stop
after it has written some bytes.
-/

namespace MissionOs.Driverd

open MissionOs.Rust MissionOs.Lib

/-! ## The kernel -/

/-- What a kernel module can be called in `/sys/module`: one directory entry,
with `_` in place of every `-`. -/
def isModuleName (s : String) : Bool :=
  s ≠ "" && s ≠ "." && s ≠ ".." && s.toList.all (fun c => c ≠ '/' && c ≠ '-')

/-- A name under which the kernel lists a module. -/
structure ModuleName where
  text : String
  valid : isModuleName text = true
deriving DecidableEq, Repr

/-- The name under which the kernel lists the module of a driver: every `-` is
replaced by `_`. -/
def kernelName (name : String) : String :=
  String.ofList (name.toList.map fun c => if c = '-' then '_' else c)

/-- The state column of `/proc/modules`. -/
inductive Liveness where
  | live
  | loading
  | unloading
deriving DecidableEq, Repr

/-- A module of the running kernel.  A built-in one has a directory in
`/sys/module`, but no line in `/proc/modules`, and cannot be removed. -/
structure KernelModule where
  name : ModuleName
  size : Nat
  refCount : Nat
  usedBy : List String
  liveness : Liveness
  builtin : Bool
deriving DecidableEq, Repr

/-- The modules of the running kernel. -/
structure Kernel where
  modules : List KernelModule
deriving DecidableEq, Repr

namespace Kernel

/-- Whether `/sys/module` has the entry `name`. -/
def lists (k : Kernel) (name : String) : Bool :=
  k.modules.any fun m => m.name.text == name

/-- The kernel with one more module, as `init_module` leaves it. -/
def insert (k : Kernel) (name : ModuleName) : Kernel :=
  ⟨⟨name, 0, 0, [], .live, false⟩ :: k.modules⟩

/-- The kernel without the module `name`. -/
def erase (k : Kernel) (name : String) : Kernel :=
  ⟨k.modules.filter fun m => m.name.text ≠ name⟩

/-- Whether `name` is a listed module that is not built in. -/
def removable (k : Kernel) (name : String) : Bool :=
  k.modules.any (fun m => m.name.text == name) &&
    k.modules.all (fun m => m.name.text != name || !m.builtin)

@[simp] theorem lists_insert (k : Kernel) (m : ModuleName) (name : String) :
    (k.insert m).lists name = (m.text == name || k.lists name) := rfl

theorem lists_erase (k : Kernel) (name other : String) :
    (k.erase name).lists other = (other ≠ name && k.lists other) := by
  rw [Bool.eq_iff_iff]
  simp only [lists, erase, List.any_eq_true, List.mem_filter, Bool.and_eq_true,
    decide_eq_true_eq, beq_iff_eq]
  constructor
  · intro h
    obtain ⟨m, ⟨hm, hne⟩, rfl⟩ := h
    exact ⟨hne, m, hm, rfl⟩
  · intro h
    obtain ⟨hne, m, hm, rfl⟩ := h
    exact ⟨m, ⟨hm, hne⟩, rfl⟩

/-- The kernel lists module names only. -/
theorem isModuleName_of_lists {k : Kernel} {name : String} (h : k.lists name = true) :
    isModuleName name = true := by
  rw [lists, List.any_eq_true] at h
  obtain ⟨m, _, hm⟩ := h
  rw [beq_iff_eq] at hm
  exact hm ▸ m.name.valid

end Kernel

/-- A name without a dash is listed as it is. -/
theorem kernelName_of_no_dash {name : String} (h : '-' ∉ name.toList) :
    kernelName name = name := by
  have hmap : name.toList.map (fun c => if c = '-' then '_' else c) = name.toList := by
    conv_rhs => rw [← List.map_id name.toList]
    refine List.map_congr_left fun c hc => ?_
    rw [if_neg (by rintro rfl; exact h hc)]
    rfl
  rw [kernelName, hmap, String.ofList_toList]

/-- A listed name has no dash, so it stands for itself. -/
theorem kernelName_of_isModuleName {name : String} (h : isModuleName name = true) :
    kernelName name = name := by
  refine kernelName_of_no_dash fun hd => ?_
  simp only [isModuleName, Bool.and_eq_true, List.all_eq_true] at h
  have := h.2 _ hd
  simp at this

/-! ## The module tree on disk -/

/-- A directory tree, by file name. -/
inductive DirTree where
  | file (name : String)
  | dir (name : String) (entries : List DirTree)

/-- The three directories under `/lib/modules/<release>` that the service
searches; `none` is a directory that does not exist. -/
structure ModuleDirs where
  kernel : Option (List DirTree)
  updates : Option (List DirTree)
  extra : Option (List DirTree)

/-! ## Events -/

/-- A call of the service to something outside of it.  `loadModule` and
`copyFile` carry the bytes that stand at the source path at the time of the
call, and `verified` the bytes over which the signature was found good.  `signal`
carries the sequence number, the time and the audit event of its body. -/
inductive Event where
  | audit (event : AuditEvent)
  | polkitCheck (subject actionId : String)
  | readFile (path : Path)
  | verified (path : Path) (data : Bytes) (keyId : String)
  | readProcModules
  | loadModule (name : String) (path : Path) (staged : Option Bytes)
  | initModule (image : Bytes) (params : String)
  | deleteModule (name : String) (flags : Nat)
  | createDirAll (path : Path)
  | copyFile (src dest : Path) (staged : Option Bytes)
  | removeFile (path : Path)
  | signal (name : String) (seq timestamp : UInt64) (event : Option AuditEvent)
deriving DecidableEq, Repr

namespace Event

/-- A call that may change the kernel or the file system. -/
def isWrite : Event → Bool
  | .initModule _ _ => true
  | .deleteModule _ _ => true
  | .createDirAll _ => true
  | .copyFile _ _ _ => true
  | .removeFile _ => true
  | _ => false

/-- The staged file that a call brings into the kernel or copies, with the
bytes in it. -/
def stagedFile : Event → Option (Path × Bytes)
  | .loadModule _ path (some data) => some (path, data)
  | .copyFile src _ (some data) => some (src, data)
  | _ => none

/-- A call of `load_module`. -/
def isLoadModule : Event → Bool
  | .loadModule _ _ _ => true
  | _ => false

/-- A call that leaves the kernel and the files as they are and hands no file
on. -/
def isQuiet (e : Event) : Bool := !e.isWrite && !e.isLoadModule

/-- A record of what was asked and decided: an audit event, a question to PolKit, or
a signal. -/
def isReport : Event → Bool
  | .audit _ => true
  | .polkitCheck _ _ => true
  | .signal _ _ _ _ => true
  | _ => false

theorem isQuiet_of_isReport {e : Event} (h : e.isReport = true) : e.isQuiet = true := by
  cases e <;> simp_all [isReport, isQuiet, isWrite, isLoadModule]

theorem stagedFile_of_isQuiet {e : Event} (h : e.isQuiet = true) : e.stagedFile = none := by
  cases e <;> simp_all [isQuiet, isWrite, isLoadModule, stagedFile]

theorem isLoadModule_of_isQuiet {e : Event} (h : e.isQuiet = true) : e.isLoadModule = false := by
  cases e <;> simp_all [isQuiet, isWrite, isLoadModule]

theorem isWrite_of_isQuiet {e : Event} (h : e.isQuiet = true) : e.isWrite = false := by
  cases e <;> simp_all [isQuiet, isWrite]

end Event

/-! ## The environment -/

/-- The text of a `std::io::Error`. -/
abbrev IoError := String

/-- An error number of a system call. -/
abbrev Errno := Nat

/-- How a `load_module` call can fail although the file and its name are in
order. -/
inductive LoadFault where
  | read (error : IoError)
  | kernel (errno : Errno)
deriving DecidableEq, Repr

/-- The outcomes that the service does not decide. -/
structure Env where
  /-- The clock, in seconds since the epoch, after so many calls. -/
  now : Nat → UInt64
  /-- The reply to a PolKit `CheckAuthorization` call for a subject and an
  action, after so many such calls. -/
  polkit : Nat → String → String → Except String Bool
  /-- Whether a tokio runtime is there to make the PolKit call on. -/
  tokioRuntime : Bool
  /-- Whether a read fails, after so many reads. -/
  readFault : Nat → Option IoError
  /-- Whether `/proc/modules` cannot be read. -/
  procModulesFault : Option IoError
  /-- Whether a `load_module` call fails, after so many such calls. -/
  loadFault : Nat → Option LoadFault
  /-- Whether the kernel refuses to remove a module. -/
  unloadFault : Option Errno
  /-- Whether a copy fails, and how many bytes it has written; `none` if it
  did not get so far as to open the destination. -/
  copyFault : Option (IoError × Option Nat)
  /-- Whether the directories above a file cannot be made. -/
  createDirFault : Option IoError
  /-- Whether a file cannot be removed. -/
  removeFault : Option IoError
  /-- The error of an access to a path at which no file is. -/
  notAFile : Path → IoError
  /-- `SysfsReader::enumerate_all`. -/
  enumerateAll : ServiceResult (List HardwareDevice)
  /-- The name in the header of a module image; `none` if the bytes are not a
  module. -/
  imageName : Bytes → Option ModuleName
  /-- Whether 32 bytes decode to an Ed25519 key. -/
  isVerifyingKey : Bytes → Bool
  /-- Ed25519 verification of a message under a key. -/
  ed25519Verify : Bytes → Bytes → Bytes → Bool
  /-- `str::to_lowercase` of a string that is not ASCII. -/
  unicodeLowercase : String → String
  /-- The `{:?}` form of a string. -/
  debugStr : String → String

/-! ## The state -/

/-- `SavedState`: a driver entry before an operation changed it. -/
structure SavedState where
  driver : DriverEntry
  wasLoaded : Bool
  correlationId : String
deriving DecidableEq, Repr

/-- `OperationTracker`. -/
structure OperationTracker where
  savedStates : List SavedState
deriving DecidableEq, Repr

/-- The state of the daemon and its machine, with the calls of the operation
in progress. -/
structure World where
  inventory : DriverInventory
  tracker : OperationTracker
  sequence : UInt64
  kernel : Kernel
  moduleDirs : ModuleDirs
  fs : FileSystem
  trace : List Event

namespace World

/-- One more call in the trace. -/
def record (w : World) (e : Event) : World := { w with trace := w.trace ++ [e] }

/-- How many calls in the trace are of one kind. -/
def calls (w : World) (kind : Event → Bool) : Nat := w.trace.countP kind

/-- `Path::exists`.  The entries of `/sys/module` are the modules of the
kernel. -/
def pathExists (w : World) (p : Path) : Bool :=
  match p.resolve with
  | ["sys", "module", name] => w.kernel.lists name
  | _ => w.fs.pathExists p

@[simp] theorem record_inventory (w : World) (e : Event) :
    (w.record e).inventory = w.inventory := rfl
@[simp] theorem record_tracker (w : World) (e : Event) :
    (w.record e).tracker = w.tracker := rfl
@[simp] theorem record_sequence (w : World) (e : Event) :
    (w.record e).sequence = w.sequence := rfl
@[simp] theorem record_kernel (w : World) (e : Event) : (w.record e).kernel = w.kernel := rfl
@[simp] theorem record_moduleDirs (w : World) (e : Event) :
    (w.record e).moduleDirs = w.moduleDirs := rfl
@[simp] theorem record_fs (w : World) (e : Event) : (w.record e).fs = w.fs := rfl
@[simp] theorem record_trace (w : World) (e : Event) :
    (w.record e).trace = w.trace ++ [e] := rfl

theorem pathExists_congr {w w' : World} (hk : w'.kernel = w.kernel) (hf : w'.fs = w.fs)
    (p : Path) : w'.pathExists p = w.pathExists p := by
  rw [pathExists, pathExists, hk, hf]

end World

/-! ## The calls of the service -/

/-- Note a call in the trace. -/
def emit (e : Event) : StateM World Unit := modify (·.record e)

/-- `AuditBackend::record`. -/
def recordAudit (e : AuditEvent) : StateM World Unit := emit (.audit e)

/-- `AuditEvent::new` at the present time, recorded. -/
def audit (env : Env) (category : EventCategory) (severity : EventSeverity)
    (action subject details : String) : StateM World Unit := do
  let w ← get
  recordAudit (AuditEvent.new (env.now w.trace.length) category severity action subject details)

theorem audit_wp {env : Env} {category : EventCategory} {severity : EventSeverity}
    {action subject details : String} {Q : Unit → World → Prop} {w : World}
    (h : ∀ e, Q () (w.record (.audit e))) :
    wp (audit env category severity action subject details) Q w := h _

/-- `signals::next_sequence`. -/
def nextSequence : StateM World UInt64 := do
  let w ← get
  set { w with sequence := w.sequence + 1 }
  return w.sequence

/-- How a read ends that fails with `fault` if there is one. -/
def readOutcome (env : Env) (fault : Option IoError) (fs : FileSystem) (p : Path) :
    Except IoError Bytes :=
  match fault, fs.get? p with
  | some e, _ => .error e
  | none, none => .error (env.notAFile p)
  | none, some data => .ok data

theorem get?_of_readOutcome {env : Env} {fault : Option IoError} {fs : FileSystem}
    {p : Path} {data : Bytes} (h : readOutcome env fault fs p = .ok data) :
    fs.get? p = some data := by
  unfold readOutcome at h
  split at h
  · cases h
  · cases h
  · rename_i heq
    cases h
    exact heq

/-- `std::fs::read`. -/
def readFile (env : Env) (fault : Option IoError) (p : Path) :
    StateM World (Except IoError Bytes) := do
  emit (.readFile p)
  let w ← get
  return readOutcome env fault w.fs p

/-- `std::fs::create_dir_all`. -/
def createDirAll (env : Env) (p : Path) : StateM World (Except IoError Unit) := do
  emit (.createDirAll p)
  match env.createDirFault with
  | some e => return .error e
  | none => do
    modify fun w => { w with fs := w.fs.makeDirs p }
    return .ok ()

/-- How a copy ends, and the files after it.  The destination is truncated
before the first byte is written, so a file that is copied onto itself ends
empty. -/
def copyOutcome (env : Env) (fs : FileSystem) (src dest : Path) :
    Except IoError Unit × FileSystem :=
  match fs.get? src with
  | none => (.error (env.notAFile src), fs)
  | some data =>
    if fs.isDir dest then
      (.error (env.notAFile dest), fs)
    else
      let copied := if src.resolve = dest.resolve then [] else data
      match env.copyFault with
      | some (e, none) => (.error e, fs)
      | some (e, some n) => (.error e, fs.write dest (copied.take n))
      | none => (.ok (), fs.write dest copied)

/-- `std::fs::copy`. -/
def copyFile (env : Env) (src dest : Path) : StateM World (Except IoError Unit) := do
  let w ← get
  emit (.copyFile src dest (w.fs.get? src))
  let (result, fs) := copyOutcome env w.fs src dest
  modify fun w => { w with fs := fs }
  return result

theorem copyFile_wp {env : Env} {src dest : Path} {Q : Except IoError Unit → World → Prop}
    {w : World} :
    wp (copyFile env src dest) Q w ↔
      Q (copyOutcome env w.fs src dest).1
        { w with
          fs := (copyOutcome env w.fs src dest).2
          trace := w.trace ++ [.copyFile src dest (w.fs.get? src)] } := Iff.rfl

/-- How the removal of a file ends. -/
def removeOutcome (env : Env) (fs : FileSystem) (p : Path) : Except IoError Unit :=
  match env.removeFault, fs.get? p with
  | some e, _ => .error e
  | none, none => .error (env.notAFile p)
  | none, some _ => .ok ()

/-- `std::fs::remove_file`. -/
def removeFile (env : Env) (p : Path) : StateM World (Except IoError Unit) := do
  emit (.removeFile p)
  let w ← get
  match removeOutcome env w.fs p with
  | .error e => return .error e
  | .ok () => do
    modify fun w => { w with fs := w.fs.remove p }
    return .ok ()

/-- How `init_module` ends that fails with `fault` if there is one: with the
module that it adds.  Bytes that are no module are refused with `ENOEXEC`, and
a module whose name is taken with `EEXIST`. -/
def initOutcome (env : Env) (fault : Option Errno) (k : Kernel) (image : Bytes) :
    Except Errno ModuleName :=
  match fault, env.imageName image with
  | some errno, _ => .error errno
  | none, none => .error 8
  | none, some m => if k.lists m.text then .error 17 else .ok m

/-- The `init_module` system call. -/
def initModule (env : Env) (fault : Option Errno) (image : Bytes) (params : String) :
    StateM World (Except Errno Unit) := do
  emit (.initModule image params)
  let w ← get
  match initOutcome env fault w.kernel image with
  | .error errno => return .error errno
  | .ok m => do
    modify fun w => { w with kernel := w.kernel.insert m }
    return .ok ()

/-- How `delete_module` ends.  A name that is not that of a removable module is
refused with `ENOENT`. -/
def deleteOutcome (env : Env) (k : Kernel) (name : String) : Except Errno Unit :=
  match env.unloadFault with
  | some errno => .error errno
  | none => if k.removable name then .ok () else .error 2

/-- The `delete_module` system call. -/
def deleteModule (env : Env) (name : String) (flags : Nat) :
    StateM World (Except Errno Unit) := do
  emit (.deleteModule name flags)
  let w ← get
  match deleteOutcome env w.kernel name with
  | .error errno => return .error errno
  | .ok () => do
    modify fun w => { w with kernel := w.kernel.erase name }
    return .ok ()

/-! ## Programs that only look -/

/-- `w'` is `w` after calls of the kind `kind`, and nothing of the service's own
state changed but the sequence counter. -/
def Logs (kind : Event → Bool) (w w' : World) : Prop :=
  ∃ seq es, w' = { w with sequence := seq, trace := w.trace ++ es } ∧
    ∀ e ∈ es, kind e = true

/-- Only calls that left the kernel and the files as they were. -/
abbrev Quiet : World → World → Prop := Logs Event.isQuiet

/-- Only audit events, questions to PolKit, and signals. -/
abbrev Reports : World → World → Prop := Logs Event.isReport

namespace Logs

variable {kind : Event → Bool}

instance : Std.Refl (Logs kind) := ⟨fun w => ⟨w.sequence, [], by simp, by simp⟩⟩

instance : IsTrans World (Logs kind) where
  trans := by
    intro a b c hpost hdone
    obtain ⟨s₁, es₁, rfl, h₁⟩ := hpost
    obtain ⟨s₂, es₂, rfl, h₂⟩ := hdone
    refine ⟨s₂, es₁ ++ es₂, by simp, ?_⟩
    simpa only [List.forall_mem_append] using ⟨h₁, h₂⟩

variable {w w' w'' : World}

theorem trans (h : Logs kind w w') (h' : Logs kind w' w'') : Logs kind w w'' :=
  IsTrans.trans _ _ _ h h'

theorem inventory_eq (h : Logs kind w w') : w'.inventory = w.inventory := by
  obtain ⟨seq, es, rfl, _⟩ := h
  rfl

theorem tracker_eq (h : Logs kind w w') : w'.tracker = w.tracker := by
  obtain ⟨seq, es, rfl, _⟩ := h
  rfl

theorem kernel_eq (h : Logs kind w w') : w'.kernel = w.kernel := by
  obtain ⟨seq, es, rfl, _⟩ := h
  rfl

theorem moduleDirs_eq (h : Logs kind w w') : w'.moduleDirs = w.moduleDirs := by
  obtain ⟨seq, es, rfl, _⟩ := h
  rfl

theorem fs_eq (h : Logs kind w w') : w'.fs = w.fs := by
  obtain ⟨seq, es, rfl, _⟩ := h
  rfl

theorem trace_eq (h : Logs kind w w') :
    ∃ es, w'.trace = w.trace ++ es ∧ ∀ e ∈ es, kind e = true := by
  obtain ⟨seq, es, rfl, hes⟩ := h
  exact ⟨es, rfl, hes⟩

/-- Calls of another kind are as many as before. -/
theorem calls_eq {counted : Event → Bool} (h : Logs kind w w')
    (hother : ∀ e, kind e = true → counted e = false) : w'.calls counted = w.calls counted := by
  obtain ⟨es, htrace, hes⟩ := h.trace_eq
  have hnone : es.countP counted = 0 := by
    rw [List.countP_eq_zero]
    intro e he
    simp [hother e (hes e he)]
  rw [World.calls, World.calls, htrace, List.countP_append, hnone, Nat.add_zero]

/-- A quiet program makes no `load_module` call. -/
theorem loads_eq (h : Quiet w w') :
    w'.calls Event.isLoadModule = w.calls Event.isLoadModule :=
  h.calls_eq fun _ => Event.isLoadModule_of_isQuiet

/-- To report is to be quiet. -/
theorem quiet (h : Reports w w') : Quiet w w' := by
  obtain ⟨seq, es, rfl, hes⟩ := h
  exact ⟨seq, es, rfl, fun e he => Event.isQuiet_of_isReport (hes e he)⟩

theorem emit {e : Event} (h : kind e = true) : Keeps (Logs kind) (emit e) :=
  ⟨fun w => ⟨w.sequence, [e], rfl, by simpa using h⟩⟩

theorem audit (hkind : ∀ e, kind (.audit e) = true) (env : Env) (category : EventCategory)
    (severity : EventSeverity) (action subject details : String) :
    Keeps (Logs kind) (audit env category severity action subject details) :=
  Keeps.bind Keeps.get fun _ => emit (hkind _)

theorem nextSequence : Keeps (Logs kind) nextSequence := by
  refine ⟨fun w => ?_⟩
  simp only [Driverd.nextSequence, wp_bind, wp_get, wp_set, wp_pure]
  exact ⟨w.sequence + 1, [], by simp, by simp⟩

end Logs

theorem quiet_audit (env : Env) (category : EventCategory) (severity : EventSeverity)
    (action subject details : String) :
    Keeps Quiet (audit env category severity action subject details) :=
  Logs.audit (fun _ => rfl) ..

theorem reports_audit (env : Env) (category : EventCategory) (severity : EventSeverity)
    (action subject details : String) :
    Keeps Reports (audit env category severity action subject details) :=
  Logs.audit (fun _ => rfl) ..

theorem quiet_readFile (env : Env) (fault : Option IoError) (p : Path) :
    Keeps Quiet (readFile env fault p) :=
  Keeps.bind (Logs.emit rfl) fun _ => Keeps.bind Keeps.get fun _ => Keeps.pure _

end MissionOs.Driverd
