import MissionOs.Driverd.World

/-!
# Kernel modules

The module manager of `kmod.rs`, in its Linux build: what the kernel has
loaded, what lies in the module directories, and the two system calls that load
and unload a module.

`loadOutcome` and `unloadOutcome` say in one expression how a call ends, and
`loadModule_spec` and `unloadModule_spec` that the call ends so.  Everything
that is proved about the operations goes through these two.
-/

namespace MissionOs.Driverd

open MissionOs.Rust MissionOs.Lib

/-! ## The list of loaded modules -/

/-- `ModuleState`. -/
inductive ModuleState where
  | live
  | loaded
  | builtIn
  | unloaded
  | error
deriving DecidableEq, Repr

/-- `ModuleState::from_proc_modules_state`. -/
def ModuleState.fromProcModulesState (state : List Char) : ModuleState :=
  match String.ofList (trim state) with
  | "Live" => .live
  | "Loaded" => .loaded
  | "Unloaded" => .unloaded
  | _ => .error

/-- `ModuleInfo`. -/
structure ModuleInfo where
  name : String
  state : ModuleState
  sizeBytes : UInt64
  usedByCount : UInt32
  usedBy : List String
  isBuiltin : Bool
  path : Option String
deriving DecidableEq, Repr

/-- The word for a state in `/proc/modules`. -/
def Liveness.word : Liveness → String
  | .live => "Live"
  | .loading => "Loading"
  | .unloading => "Unloading"

/-- The line of `/proc/modules` for a module. -/
def KernelModule.procLine (m : KernelModule) : String :=
  m.name.text ++ " " ++ toString m.size ++ " " ++ toString m.refCount ++ " " ++
    (if m.usedBy.isEmpty then "-" else String.join (m.usedBy.map (· ++ ","))) ++ " " ++
    m.liveness.word ++ " 0x0000000000000000\n"

/-- The text of `/proc/modules`. -/
def Kernel.procModules (k : Kernel) : String :=
  String.join ((k.modules.filter (fun m => !m.builtin)).map KernelModule.procLine)

/-- One line of `/proc/modules` as `list_modules` reads it; a line with fewer
than six fields is skipped. -/
def ModuleInfo.ofLine (line : List Char) : Option ModuleInfo :=
  match splitWhitespace (trim line) with
  | name :: size :: count :: users :: state :: _ :: _ =>
    some {
      name := String.ofList name
      state := .fromProcModulesState state
      sizeBytes := (parseU64 size).toOption.getD 0
      usedByCount := (parseU32 count).toOption.getD 0
      usedBy :=
        if users = ['-'] then []
        else (users.splitOn ',').map fun s => String.ofList (trim s)
      isBuiltin := false
      path := none }
  | _ => none

/-- `KmodManager::list_modules`. -/
def listModules (env : Env) : StateM World (ServiceResult (List ModuleInfo)) := do
  emit .readProcModules
  let w ← get
  match env.procModulesFault with
  | some e => return .error (.backendUnavailable ("cannot read /proc/modules: " ++ e))
  | none => return .ok ((lines w.kernel.procModules.toList).filterMap ModuleInfo.ofLine)

/-- `KmodManager::is_loaded`. -/
def isLoaded (w : World) (name : String) : Bool :=
  w.pathExists ((Path.new "/sys/module").join name)

theorem isLoaded_congr {w w' : World} (hkernel : w'.kernel = w.kernel) (hfs : w'.fs = w.fs)
    (name : String) : isLoaded w' name = isLoaded w name :=
  World.pathExists_congr hkernel hfs _

/-! ## The module directories -/

mutual

/-- `walk_module_dir`, at one entry of a directory. -/
def DirTree.hasModule (name : String) (extensions : List String) : DirTree → Bool
  | .file f => extensions.any fun ext => f == name ++ ext
  | .dir _ entries => DirTree.anyHasModule name extensions entries

/-- `walk_module_dir`, over the entries of a directory. -/
def DirTree.anyHasModule (name : String) (extensions : List String) : List DirTree → Bool
  | [] => false
  | entry :: rest =>
      entry.hasModule name extensions || DirTree.anyHasModule name extensions rest

end

/-- `KmodManager::module_available`. -/
def moduleAvailable (w : World) (name : String) : Bool :=
  let extensions := [".ko", ".ko.xz", ".ko.gz", ".ko.zst"]
  [w.moduleDirs.kernel, w.moduleDirs.updates, w.moduleDirs.extra].any fun dir =>
    match dir with
    | none => false
    | some entries => DirTree.anyHasModule name extensions entries

/-! ## Module names -/

/-- The characters that a module name must not have. -/
def isForbiddenInName (c : Char) : Bool :=
  ['/', '\\', '.', '\x00', ';', '|', '&', '$', Char.ofNat 96].contains c

/-- `validate_module_name`. -/
def validateModuleName (name : String) : ServiceResult Unit :=
  if name.isEmpty then
    .error (.invalidArgument "module name must not be empty")
  else if 128 < name.utf8ByteSize then
    .error (.invalidArgument "module name exceeds maximum length (128)")
  else
    match name.toList.find? isForbiddenInName with
    | some ch =>
        .error (.invalidArgument
          ("module name '" ++ name ++ "' contains invalid character '" ++ ch.toString ++ "'"))
    | none => .ok ()

/-- A name that `validate_module_name` accepts is not empty and has no
forbidden character. -/
theorem validateModuleName_ok {name : String} (h : validateModuleName name = .ok ()) :
    name ≠ "" ∧ ∀ c ∈ name.toList, isForbiddenInName c = false := by
  rw [validateModuleName] at h
  split_ifs at h with hempty hlong
  cases hfind : name.toList.find? isForbiddenInName with
  | some ch => simp [hfind] at h
  | none =>
      refine ⟨by simpa using hempty, fun c hc => ?_⟩
      simpa using List.find?_eq_none.mp hfind c hc

theorem not_mem_of_validateModuleName {name : String} {c : Char}
    (h : validateModuleName name = .ok ()) (hc : isForbiddenInName c = true) :
    c ∉ name.toList := by
  intro hmem
  have := (validateModuleName_ok h).2 c hmem
  rw [hc] at this
  exact Bool.false_ne_true this.symm

/-- For a name that is one directory entry, `is_loaded` asks the kernel. -/
theorem isLoaded_of_fileName (w : World) {name : String} (hslash : '/' ∉ name.toList)
    (hne : name ≠ "") (hdot : name ≠ ".") (hdots : name ≠ "..") :
    isLoaded w name = w.kernel.lists name := by
  have hbase : (Path.new "/sys/module").resolve = ["sys", "module"] := by decide
  have hres := Path.resolve_join_of_fileName (Path.new "/sys/module") hslash hne hdot hdots
  rw [hbase] at hres
  rw [isLoaded, World.pathExists, hres]
  rfl

/-- Whatever the kernel lists is loaded under that name. -/
theorem isLoaded_of_lists {w : World} {name : String} (h : w.kernel.lists name = true) :
    isLoaded w name = true := by
  have hm := Kernel.isModuleName_of_lists h
  simp only [isModuleName, Bool.and_eq_true, List.all_eq_true, decide_eq_true_eq] at hm
  obtain ⟨⟨⟨hne, hdot⟩, hdots⟩, hall⟩ := hm
  rw [isLoaded_of_fileName w (fun hs => by simpa using (hall _ hs).1) hne hdot hdots, h]

/-- For a name that can be loaded or unloaded, `is_loaded` asks the kernel. -/
theorem isLoaded_of_valid (w : World) {name : String} (h : validateModuleName name = .ok ()) :
    isLoaded w name = w.kernel.lists name := by
  have hslash : '/' ∉ name.toList := not_mem_of_validateModuleName h (by decide)
  have hdot : '.' ∉ name.toList := not_mem_of_validateModuleName h (by decide)
  exact isLoaded_of_fileName w hslash (validateModuleName_ok h).1
    (fun h => hdot (by rw [h]; decide)) (fun h => hdot (by rw [h]; decide))

/-! ## Loading and unloading -/

/-- The error of `load_module` for a file that cannot be read. -/
def unreadableModule (env : Env) (path : Path) (e : IoError) : ServiceError :=
  .invalidArgument ("cannot read module file " ++ env.debugStr path.display ++ ": " ++ e)

/-- The error of `load_module` for an error number of `init_module`. -/
def loadError (name : String) (errno : Errno) : ServiceError :=
  match errno with
  | 17 => .alreadyExists ("module '" ++ name ++ "' already loaded")
  | 2 => .notFound ("module '" ++ name ++ "' not found on disk")
  | 22 => .invalidArgument ("invalid module file or parameters for '" ++ name ++ "'")
  | 1 => .permissionDenied "insufficient privilege to load kernel module"
  | _ => .internal ("failed to load module '" ++ name ++ "': errno=" ++ toString errno)

/-- The error of `unload_module` for an error number of `delete_module`. -/
def unloadError (name : String) (errno : Errno) : ServiceError :=
  match errno with
  | 2 => .notFound ("module '" ++ name ++ "' is not loaded")
  | 16 => .busy ("module '" ++ name ++ "' is in use and cannot be unloaded")
  | 1 => .permissionDenied "insufficient privilege to unload kernel module"
  | _ => .internal ("failed to unload module '" ++ name ++ "': errno=" ++ toString errno)

/-- The error with which the read of the module file fails. -/
def LoadFault.readError : Option LoadFault → Option IoError
  | some (.read e) => some e
  | _ => none

/-- The error number with which the kernel refuses the module. -/
def LoadFault.errno : Option LoadFault → Option Errno
  | some (.kernel e) => some e
  | _ => none

/-- `KmodManager::load_module`. -/
def loadModule (env : Env) (name : String) (path : Path) (params : List String) :
    StateM World (ServiceResult Unit) := do
  let w ← get
  let fault := env.loadFault (w.calls Event.isLoadModule)
  emit (.loadModule name path (w.fs.get? path))
  match validateModuleName name with
  | .error e => return .error e
  | .ok () =>
    match ← readFile env (LoadFault.readError fault) path with
    | .error e =>
      return .error (unreadableModule env path e)
    | .ok moduleData =>
      match ← initModule env (LoadFault.errno fault) moduleData (Rust.join " " params) with
      | .error errno => return .error (loadError name errno)
      | .ok () => return .ok ()

/-- `O_NONBLOCK`. -/
def oNonblock : Nat := 0x800

/-- `KmodManager::unload_module`. -/
def unloadModule (env : Env) (name : String) (force : Bool) :
    StateM World (ServiceResult Unit) := do
  match validateModuleName name with
  | .error e => return .error e
  | .ok () =>
    let flags := if force then oNonblock ||| 0x0001 else oNonblock
    if name.toList.contains '\x00' then
      return .error (.invalidArgument ("module name '" ++ name ++ "' contains null byte"))
    else
      match ← deleteModule env name flags with
      | .error errno => return .error (unloadError name errno)
      | .ok () => return .ok ()

/-! ## How a call ends -/

/-- How the `n`-th `load_module` call of an operation ends: with the module that
it adds to the kernel, or with an error. -/
def loadOutcome (env : Env) (n : Nat) (kernel : Kernel) (fs : FileSystem) (name : String)
    (path : Path) : ServiceResult ModuleName :=
  match validateModuleName name with
  | .error e => .error e
  | .ok () =>
    match readOutcome env (LoadFault.readError (env.loadFault n)) fs path with
    | .error e => .error (unreadableModule env path e)
    | .ok image =>
      match initOutcome env (LoadFault.errno (env.loadFault n)) kernel image with
      | .error errno => .error (loadError name errno)
      | .ok m => .ok m

/-- The kernel after a `load_module` call. -/
def Kernel.afterLoad (k : Kernel) : ServiceResult ModuleName → Kernel
  | .ok m => k.insert m
  | .error _ => k

/-- How an `unload_module` call ends. -/
def unloadOutcome (env : Env) (kernel : Kernel) (name : String) : ServiceResult Unit :=
  match validateModuleName name with
  | .error e => .error e
  | .ok () =>
    match deleteOutcome env kernel name with
    | .error errno => .error (unloadError name errno)
    | .ok () => .ok ()

/-- The kernel after an `unload_module` call. -/
def Kernel.afterUnload (k : Kernel) (name : String) : ServiceResult Unit → Kernel
  | .ok () => k.erase name
  | .error _ => k

/-- A `load_module` call ends as `loadOutcome` says and changes nothing but the
kernel. -/
theorem loadModule_spec (env : Env) (name : String) (path : Path) (params : List String)
    (w : World) :
    wp (loadModule env name path params)
      (fun r w' =>
        let outcome := loadOutcome env (w.calls Event.isLoadModule) w.kernel w.fs name path
        r = outcome.map (fun _ => ()) ∧
        ∃ es, w' = { w with
            kernel := w.kernel.afterLoad outcome
            trace := w.trace ++ .loadModule name path (w.fs.get? path) :: es } ∧
          ∀ e ∈ es, e.stagedFile = none ∧ e.isLoadModule = false) w := by
  rw [loadModule, wp_bind, wp_get]
  simp only [wp_bind, emit, wp_modify, loadOutcome]
  cases validateModuleName name with
  | error e => exact ⟨rfl, [], rfl, by simp⟩
  | ok u =>
      simp only [wp_bind, readFile, emit, wp_modify, wp_get, wp_pure, World.record_fs]
      cases readOutcome env _ w.fs path with
      | error e =>
          simp only [wp_pure]
          exact ⟨rfl, [.readFile path], by simp [World.record, Kernel.afterLoad],
            by simp [Event.stagedFile, Event.isLoadModule]⟩
      | ok image =>
          simp only [wp_bind, initModule, emit, wp_modify, wp_get, World.record_kernel]
          cases initOutcome env _ w.kernel image with
          | error errno =>
              simp only [wp_pure]
              exact ⟨rfl, [.readFile path, .initModule image (Rust.join " " params)],
                by simp [World.record, Kernel.afterLoad],
                by simp [Event.stagedFile, Event.isLoadModule]⟩
          | ok m =>
              simp only [wp_bind, wp_modify, wp_pure]
              exact ⟨rfl, [.readFile path, .initModule image (Rust.join " " params)],
                by simp [World.record, Kernel.afterLoad],
                by simp [Event.stagedFile, Event.isLoadModule]⟩

/-- An `unload_module` call ends as `unloadOutcome` says and changes nothing but
the kernel. -/
theorem unloadModule_spec (env : Env) (name : String) (force : Bool) (w : World) :
    wp (unloadModule env name force)
      (fun r w' =>
        r = unloadOutcome env w.kernel name ∧
        ∃ es, w' = { w with
            kernel := w.kernel.afterUnload name (unloadOutcome env w.kernel name)
            trace := w.trace ++ es } ∧
          ∀ e ∈ es, e.stagedFile = none ∧ e.isLoadModule = false) w := by
  rw [unloadModule, unloadOutcome]
  cases hv : validateModuleName name with
  | error e =>
      simp only [wp_pure]
      exact ⟨trivial, [], by simp [Kernel.afterUnload], by simp⟩
  | ok u =>
      have hnul : name.toList.contains '\x00' = false := by
        simpa using not_mem_of_validateModuleName hv (c := '\x00') (by decide)
      generalize (if force then oNonblock ||| 0x0001 else oNonblock) = flags
      simp only [hnul, Bool.false_eq_true, if_false, wp_bind, deleteModule, emit, wp_modify,
        wp_get, World.record_kernel]
      cases deleteOutcome env w.kernel name with
      | error errno =>
          simp only [wp_pure]
          exact ⟨trivial, [.deleteModule name flags],
            by simp [World.record, Kernel.afterUnload],
            by simp [Event.stagedFile, Event.isLoadModule]⟩
      | ok u =>
          simp only [wp_bind, wp_modify, wp_pure]
          exact ⟨trivial, [.deleteModule name flags],
            by simp [World.record, Kernel.afterUnload],
            by simp [Event.stagedFile, Event.isLoadModule]⟩

end MissionOs.Driverd
