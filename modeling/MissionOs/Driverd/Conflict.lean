import MissionOs.Driverd.Matching

/-!
# Conflict detection

The checks of `conflict.rs` for an installation, a removal and an update.  Each
check is a function of the driver, the inventory and the names of the loaded
modules, and yields a `ConflictResult`.
-/

namespace MissionOs.Driverd

open MissionOs.Rust

/-! ## Results -/

/-- `ConflictType`, as far as a check reports it. -/
inductive ConflictType where
  | incompatibleKernel
  | unsupportedArchitecture
  | conflictingModule
  | duplicateInstallation
  | invalidPackage
  | moduleInUse
deriving DecidableEq, Repr

/-- `ConflictInfo`. -/
structure ConflictInfo where
  conflictType : ConflictType
  message : String
  details : String
deriving DecidableEq, Repr

/-- `ConflictResult`. -/
structure ConflictResult where
  hasConflicts : Bool
  conflicts : List ConflictInfo
deriving DecidableEq, Repr

namespace ConflictResult

/-- `ConflictResult::none`. -/
def none : ConflictResult := ⟨false, []⟩

/-- `ConflictResult::single`. -/
def single (c : ConflictInfo) : ConflictResult := ⟨true, [c]⟩

/-- `ConflictResult::add`. -/
def add (r : ConflictResult) (c : ConflictInfo) : ConflictResult := ⟨true, r.conflicts ++ [c]⟩

/-- `ConflictResult::merge`. -/
def merge (r other : ConflictResult) : ConflictResult :=
  if other.hasConflicts then ⟨true, r.conflicts ++ other.conflicts⟩ else r

/-- The list has a conflict of a type. -/
def Reports (r : ConflictResult) (t : ConflictType) : Prop :=
  ∃ c ∈ r.conflicts, c.conflictType = t

theorem not_reports_none (t : ConflictType) : ¬ none.Reports t := by
  intro h
  obtain ⟨c, hc, -⟩ := h
  cases hc

theorem reports_single_iff {c : ConflictInfo} {t : ConflictType} :
    (single c).Reports t ↔ c.conflictType = t := by
  simp [Reports, single]

theorem reports_add_iff {r : ConflictResult} {c : ConflictInfo} {t : ConflictType} :
    (r.add c).Reports t ↔ r.Reports t ∨ c.conflictType = t := by
  simp [Reports, add, or_and_right, exists_or]

/-- A merged result reports nothing but what its parts report. -/
theorem reports_of_merge {r other : ConflictResult} {t : ConflictType}
    (h : (r.merge other).Reports t) : r.Reports t ∨ other.Reports t := by
  unfold merge at h
  split_ifs at h
  · simpa [Reports, or_and_right, exists_or] using h
  · exact Or.inl h

end ConflictResult

/-! ## The checks -/

/-- `ConflictDetector`: the system it was built for, and the lowering of the
strings that are not ASCII. -/
structure ConflictDetector where
  system : SystemInfo
  unicodeLowercase : String → String

/-- The numbers of a version string, its parts given; a part that is no `u64` is
skipped. -/
def versionNumbers (parts : List (List Char)) : List UInt64 :=
  parts.filterMap fun p => (parseU64 p).toOption

/-- The loop over the minimum version: whether the system is older. -/
def olderThan (sys : List UInt64) : Nat → List UInt64 → Bool
  | _, [] => false
  | i, minPart :: rest =>
      let sysPart := sys.getD i 0
      if sysPart < minPart then true
      else if minPart < sysPart then false
      else olderThan sys (i + 1) rest

/-- The loop over the maximum version: whether the system is newer. -/
def newerThan (sys : List UInt64) : Nat → List UInt64 → Bool
  | _, [] => false
  | i, maxPart :: rest =>
      let sysPart := sys.getD i 0
      if maxPart < sysPart then true
      else if sysPart < maxPart then false
      else newerThan sys (i + 1) rest

/-- The modules that cannot be loaded beside a driver, by its name. -/
def moduleConflicts : List (String × List String) :=
  [("nvidia", ["nouveau"]), ("nouveau", ["nvidia"]), ("iwlwifi", ["iwlegacy"])]

namespace ConflictDetector

variable (detector : ConflictDetector)

/-- `str::to_lowercase`. -/
def lower (s : String) : String := toLowercase detector.unicodeLowercase s

/-- `check_kernel`. -/
def checkKernel (driver : DriverEntry) : ConflictResult :=
  let compat := driver.id.kernelCompat
  let kernel := detector.system.kernelVersion
  let sysParts := versionNumbers (kernel.toList.splitOnP fun c => !c.isDigit)
  if sysParts.isEmpty then .none
  else if olderThan sysParts 0 (versionNumbers (compat.minVersion.toList.splitOn '.')) then
    .single ⟨.incompatibleKernel,
      "Kernel " ++ kernel ++ " is older than required minimum " ++ compat.minVersion,
      "Minimum kernel version: " ++ compat.minVersion ++ ", current: " ++ kernel⟩
  else
    match compat.maxVersion with
    | none => .none
    | some maxVersion =>
      if newerThan sysParts 0 (versionNumbers (maxVersion.toList.splitOn '.')) then
        .single ⟨.incompatibleKernel,
          "Kernel " ++ kernel ++ " is newer than required maximum " ++ maxVersion,
          "Maximum kernel version: " ++ maxVersion ++ ", current: " ++ kernel⟩
      else .none

/-- `check_architecture`. -/
def checkArchitecture (driver : DriverEntry) : ConflictResult :=
  let sysArch := detector.lower detector.system.architecture
  let driverArch := detector.lower driver.id.arch
  if sysArch = driverArch || architectureAliases.contains (sysArch, driverArch) then .none
  else
    .single ⟨.unsupportedArchitecture,
      "Driver architecture '" ++ driver.id.arch ++ "' does not match system '" ++
        detector.system.architecture ++ "'",
      "Required: " ++ driver.id.arch ++ ", system: " ++ detector.system.architecture⟩

/-- `check_duplicate`: the first operational entry of that name and provider
decides. -/
def checkDuplicate (driver : DriverEntry) (inventoryDrivers : List DriverEntry) :
    ConflictResult :=
  let existing := inventoryDrivers.find? fun d =>
    eqIgnoreAsciiCase d.id.name driver.id.name &&
      eqIgnoreAsciiCase d.id.provider driver.id.provider &&
      (d.status.isOperational || d.status = .installed)
  match existing with
  | none => .none
  | some d =>
    if d.id.version = driver.id.version then
      .single ⟨.duplicateInstallation,
        "Driver '" ++ driver.id.provider ++ "/" ++ driver.id.name ++ "' is already installed",
        "Current version: " ++ d.id.version.display ++ ". Use update to upgrade."⟩
    else .none

/-- `check_conflicting_modules`. -/
def checkConflictingModules (driver : DriverEntry) (loadedModules : List String) :
    ConflictResult :=
  if driver.id.moduleType ≠ .kernelModule then .none
  else
    let clash := moduleConflicts.findSome? fun (drv, conflicting) =>
      if detector.lower driver.id.name = drv then
        loadedModules.find? fun m => conflicting.contains (detector.lower m)
      else none
    match clash with
    | none => .none
    | some loaded =>
      .single ⟨.conflictingModule,
        "Conflicting module '" ++ loaded ++ "' is currently loaded",
        "Module '" ++ loaded ++ "' conflicts with '" ++ driver.id.name ++
          "'. Unload the conflicting module first."⟩

/-- `check_hardware`: a driver that matches no device is let through, too. -/
def checkHardware (driver : DriverEntry) (hardware : List HardwareDevice) : ConflictResult :=
  if hardware.isEmpty then .none
  else if hardware.any fun device => driver.supportedHardware.any fun pattern =>
      modaliasPatternMatch pattern device.hardwareId.modalias then
    .none
  else .none

/-- `check_module_in_use`. -/
def checkModuleInUse (driver : DriverEntry) (loadedModules : List String) : ConflictResult :=
  if driver.id.moduleType ≠ .kernelModule then .none
  else if loadedModules.contains (detector.lower driver.id.name) then
    .single ⟨.moduleInUse,
      "Module '" ++ driver.id.name ++ "' is currently loaded and may be in use",
      "The kernel module is currently active. Ensure no processes are using it " ++
        "before removal, or use force flag to override."⟩
  else .none

/-- `check_dependents`. -/
def checkDependents (driver : DriverEntry) (inventoryDrivers : List DriverEntry) :
    ConflictResult :=
  let driverName := detector.lower driver.id.name
  let dependents := (inventoryDrivers.filter fun d =>
    detector.lower d.id.name ≠ driverName &&
      d.id.kernelCompat.requiredFeatures.any fun f =>
        containsText (detector.lower f) driverName).map (·.id.name)
  if dependents.isEmpty then .none
  else
    .single ⟨.conflictingModule,
      "Other drivers depend on '" ++ driver.id.name ++ "': " ++ Rust.join ", " dependents,
      "Remove dependent drivers first or expect breakage."⟩

/-- `check_install`. -/
def checkInstall (driver : DriverEntry) (inventoryDrivers : List DriverEntry)
    (loadedModules : List String) (hardware : List HardwareDevice) : ConflictResult :=
  ConflictResult.none
    |>.merge (detector.checkKernel driver)
    |>.merge (detector.checkArchitecture driver)
    |>.merge (checkDuplicate driver inventoryDrivers)
    |>.merge (detector.checkConflictingModules driver loadedModules)
    |>.merge (checkHardware driver hardware)

/-- `check_remove`. -/
def checkRemove (driver : DriverEntry) (loadedModules : List String)
    (inventoryDrivers : List DriverEntry) : ConflictResult :=
  let result :=
    if driver.status.isOperational then
      ConflictResult.none.merge (detector.checkModuleInUse driver loadedModules)
    else ConflictResult.none
  result.merge (detector.checkDependents driver inventoryDrivers)

/-- `check_update`. -/
def checkUpdate (currentDriver newDriver : DriverEntry) (inventoryDrivers : List DriverEntry)
    (loadedModules : List String) (hardware : List HardwareDevice) : ConflictResult :=
  let result := ConflictResult.none.merge
    (detector.checkInstall newDriver inventoryDrivers loadedModules hardware)
  if currentDriver.id.version.ge newDriver.id.version then
    result.add ⟨.invalidPackage, "Cannot downgrade driver",
      "Current version " ++ currentDriver.id.version.display ++
        " is newer than or equal to target version " ++ newDriver.id.version.display⟩
  else result

/-! ## Conflicting modules -/

end ConflictDetector

end MissionOs.Driverd
