import MissionOs.Driverd.Authz
import MissionOs.Driverd.Conflict
import MissionOs.Driverd.Kmod
import MissionOs.Driverd.Verification
import MissionOs.Lib.FirstMatch

/-!
# The driver execution engine

The three operations of `execution.rs`.  Each runs in two stages: its checks
(`installChecks`, `removeChecks`, `updateChecks`), which end with a refusal or
with the driver that the operation is about, and the transaction (`transact`),
which saves the state, executes, and then commits or rolls back.

The trace of the world is the trace of one operation, so an operation starts
with an empty one.
-/

namespace MissionOs.Driverd

open MissionOs.Rust MissionOs.Lib

/-! ## The tracker -/

namespace OperationTracker

/-- `OperationTracker::new`. -/
def new : OperationTracker := ⟨[]⟩

/-- `OperationTracker::save_state`. -/
def saveState (driver : DriverEntry) : StateM World String := do
  let seq ← nextSequence
  let correlationId := "op-" ++ toString seq
  modify fun w => { w with tracker :=
    ⟨w.tracker.savedStates ++ [⟨driver, isLoaded w driver.id.name, correlationId⟩]⟩ }
  return correlationId

/-- `OperationTracker::find_state`. -/
def findState (tracker : OperationTracker) (correlationId : String) : Option SavedState :=
  tracker.savedStates.find? (·.correlationId == correlationId)

/-- `OperationTracker::remove_state`. -/
def removeState (correlationId : String) : StateM World Unit :=
  modify fun w => { w with tracker :=
    ⟨w.tracker.savedStates.filter (·.correlationId != correlationId)⟩ }

end OperationTracker

/-! ## The engine -/

/-- `PackageStore`. -/
structure PackageStore where
  storePath : Path
  maxPackageSize : UInt64
deriving DecidableEq, Repr

/-- `PackageStore::staged_path`. -/
def PackageStore.stagedPath (store : PackageStore) (fileName : String) : Path :=
  store.storePath.join fileName

/-- `DriverExecutionEngine`. -/
structure DriverExecutionEngine where
  authorizer : Authorizer
  packageStore : PackageStore
  signatureVerifier : SignatureVerifier
  conflictDetector : ConflictDetector
  allowUnsigned : Bool

/-- The names of two ids agree, and so do the providers. -/
def DriverId.same (id : DriverId) (d : DriverEntry) : Bool :=
  d.id.name == id.name && d.id.provider == id.provider

/-- `fail_operation`, as the end of a stage of checks. -/
def failOperation {α : Type} (env : Env) (driverName message error caller : String)
    (category : EventCategory) : StateM World (Except OperationResult α) := do
  audit env category .error "operation_failed" caller (message ++ ": " ++ error)
  return .error (.failed driverName message error)

/-- `get_loaded_modules`. -/
def getLoadedModules (env : Env) : StateM World (List String) := do
  let modules ← listModules env
  return ((modules.toOption.getD []).filter (·.state = .live)).map (·.name)

/-- `update_driver_status`. -/
def updateDriverStatus (env : Env) (driverId : DriverId) (newStatus : DriverStatus) :
    StateM World Unit :=
  modify fun w => { w with inventory := { w.inventory with
    drivers := updateFirst driverId.same (fun d => { d with status := newStatus })
      w.inventory.drivers
    lastScanTimestamp := env.now w.trace.length } }

/-- The world with a saved entry written back. -/
def World.restore (w : World) (driver : DriverEntry) : World :=
  { w with inventory := { w.inventory with
    drivers := setFirst driver.id.same driver w.inventory.drivers } }

/-- Where the firmware of a name is installed. -/
def firmwarePath (name : String) : Path := (Path.new "/lib/firmware").join name

/-- Make the directories above a file; a failure is ignored. -/
def createParent (env : Env) (dest : Path) : StateM World Unit :=
  match dest.parent with
  | some parent => discard (createDirAll env parent)
  | none => pure ()

namespace DriverExecutionEngine

variable (engine : DriverExecutionEngine) (env : Env)

/-- `find_package_path`. -/
def findPackagePath (w : World) (driver : DriverEntry) : Path :=
  let staged := engine.packageStore.stagedPath (driver.id.name ++ ".ko")
  if w.pathExists staged then staged
  else
    let staged2 := engine.packageStore.stagedPath driver.id.name
    if w.pathExists staged2 then staged2 else staged

/-- `read_package_signature`. -/
def readPackageSignature (driver : DriverEntry) : StateM World Bytes := do
  let w ← get
  let r ← readFile env (env.readFault (w.calls Event.isReadFile))
    (engine.packageStore.stagedPath (driver.id.name ++ ".sig"))
  return r.toOption.getD []

/-! ## Execution -/

/-- `execute_install`. -/
def executeInstall (driver : DriverEntry) : StateM World (ServiceResult Unit) := do
  let w ← get
  match driver.id.moduleType with
  | .kernelModule =>
    let path := engine.findPackagePath w driver
    if w.pathExists path then
      loadModule env driver.id.name path []
    else if moduleAvailable w driver.id.name then
      -- The module is on disk, and nothing is loaded.
      return .ok ()
    else
      return .error (.notFound ("Module file for '" ++ driver.id.name ++ "' not found"))
  | .firmware =>
    let src := engine.findPackagePath w driver
    let dest := firmwarePath driver.id.name
    createParent env dest
    match ← copyFile env src dest with
    | .error e => return .error (.internal ("cannot install firmware: " ++ e))
    | .ok () => return .ok ()
  | .userspace => return .ok ()
  | .deviceTreeOverlay =>
    return .error (.notSupported
      "Device tree overlay installation is not supported in M2-D")

/-- `execute_remove`. -/
def executeRemove (driver : DriverEntry) (force : Bool) :
    StateM World (ServiceResult Unit) := do
  let w ← get
  match driver.id.moduleType with
  | .kernelModule =>
    if isLoaded w driver.id.name then unloadModule env driver.id.name force
    else return .ok ()
  | .firmware =>
    let path := firmwarePath driver.id.name
    if w.pathExists path then
      match ← removeFile env path with
      | .error e => return .error (.internal ("cannot remove firmware: " ++ e))
      | .ok () => return .ok ()
    else return .ok ()
  | .userspace => return .ok ()
  | .deviceTreeOverlay =>
    return .error (.notSupported "Device tree overlay removal is not supported in M2-D")

/-- `execute_update`. -/
def executeUpdate (driver : DriverEntry) : StateM World (ServiceResult Unit) := do
  let w ← get
  if isLoaded w driver.id.name then
    match ← unloadModule env driver.id.name false with
    | .error e => return .error e
    | .ok () => engine.executeInstall env driver
  else
    engine.executeInstall env driver

/-- `rollback_operation`. -/
def rollbackOperation (correlationId caller : String) : StateM World Unit := do
  let w ← get
  match w.tracker.findState correlationId with
  | some saved => do
    modify (·.restore saved.driver)
    if saved.wasLoaded then
      let w ← get
      discard (loadModule env saved.driver.id.name (engine.findPackagePath w saved.driver) [])
    audit env .driverInstall .warning "rollback_completed" caller
      ("Rollback completed for operation '" ++ correlationId ++ "', restored driver '" ++
        saved.driver.id.name ++ "'")
    OperationTracker.removeState correlationId
  | none =>
    audit env .driverInstall .error "rollback_failed" caller
      ("Rollback failed: no saved state found for operation '" ++ correlationId ++ "'")

/-- The second stage of an operation: save the state of the driver, execute, and
commit or roll back. -/
def transact (driver : DriverEntry) (caller : String)
    (execute : StateM World (ServiceResult Unit)) (commit : StateM World Unit)
    (success : OperationResult) (driverName failure : String) :
    StateM World OperationResult := do
  let corrId ← OperationTracker.saveState driver
  match ← execute with
  | .ok () => do
    commit
    OperationTracker.removeState corrId
    return success
  | .error e => do
    engine.rollbackOperation env corrId caller
    return .failed driverName failure e.display

/-- How each operation begins: the request is recorded, authorized and
validated. -/
def startOperation (category : EventCategory) (event details : String) (action : DriverAction)
    (denied invalid driverName caller : String) (validation : ServiceResult Unit)
    (next : StateM World (Except OperationResult DriverEntry)) :
    StateM World (Except OperationResult DriverEntry) := do
  let _ ← nextSequence
  audit env category .info event caller details
  let auth ← engine.authorizer.authorize env action caller
  if !auth.isAuthorized then
    failOperation env driverName denied "Permission denied by authorization policy" caller
      category
  else
    match validation with
    | .error e => failOperation env driverName invalid e.display caller category
    | .ok () => next

/-! ## Installation -/

/-- The signature check of an installation. -/
def checkSignature (request : InstallRequest) (caller : String) (driver : DriverEntry) :
    StateM World (Except OperationResult DriverEntry) := do
  if driver.id.moduleType = .kernelModule || driver.id.moduleType = .firmware then
    let w ← get
    let packagePath := engine.findPackagePath w driver
    let signature ← engine.readPackageSignature env driver
    let verifyResult ← verifyPackage env engine.signatureVerifier packagePath signature none
    if !verifyResult.outcome.isValid && !engine.allowUnsigned then
      failOperation env request.driverName "Package verification failed"
        verifyResult.description caller .driverInstall
    else
      return .ok driver
  else
    return .ok driver

/-- The texts of the conflicts, in one line. -/
def conflictDetails (r : ConflictResult) : String :=
  Rust.join "; " (r.conflicts.map fun c => c.message ++ ": " ++ c.details)

/-- The steps of `install_driver` before the check of the signature. -/
def beforeCheck (request : InstallRequest) (caller : String)
    (hardwareDevices : List HardwareDevice) :
    StateM World (Except OperationResult DriverEntry) :=
  engine.startOperation env .driverInstall "driver_install_requested"
    ("Installation of '" ++ request.driverName ++ "' from '" ++ request.provider ++
      "' requested")
    .installDriver "Installation not authorized" "Invalid installation request"
    request.driverName caller request.validate do
  let w ← get
  match w.inventory.findDriver request.driverName request.provider with
  | none =>
    failOperation env request.driverName "Driver not found"
      ("Driver '" ++ request.provider ++ "/" ++ request.driverName ++
        "' not found in inventory") caller .driverInstall
  | some driver =>
    let loadedModules ← getLoadedModules env
    let conflictResult := engine.conflictDetector.checkInstall driver
      w.inventory.drivers loadedModules hardwareDevices
    if conflictResult.hasConflicts && !request.force then
      failOperation env request.driverName "Installation blocked by conflicts"
        (conflictDetails conflictResult) caller .driverInstall
    else
      return .ok driver

/-- The checks of `install_driver`. -/
def installChecks (request : InstallRequest) (caller : String)
    (hardwareDevices : List HardwareDevice) :
    StateM World (Except OperationResult DriverEntry) := do
  match ← engine.beforeCheck env request caller hardwareDevices with
  | .error result => return .error result
  | .ok driver => engine.checkSignature env request caller driver

/-- `install_driver`. -/
def installDriver (request : InstallRequest) (caller : String)
    (hardwareDevices : List HardwareDevice) : StateM World OperationResult := do
  match ← engine.installChecks env request caller hardwareDevices with
  | .error result => return result
  | .ok driver =>
    let commit := do
      updateDriverStatus env driver.id .installed
      audit env .driverInstall .info "driver_install_completed" caller
        ("Driver '" ++ driver.id.name ++ "' installed successfully")
    engine.transact env driver caller (engine.executeInstall env driver) commit
      (.success driver.id.name ("Driver '" ++ driver.id.name ++ "' installed successfully"))
      driver.id.name "Installation failed and was rolled back"

/-! ## Removal -/

/-- The checks of `remove_driver`. -/
def removeChecks (request : RemoveRequest) (caller : String) :
    StateM World (Except OperationResult DriverEntry) :=
  engine.startOperation env .driverRemove "driver_remove_requested"
    ("Removal of '" ++ request.driverName ++ "' requested")
    .removeDriver "Removal not authorized" "Invalid removal request"
    request.driverName caller request.validate do
  let w ← get
  match w.inventory.findNamed request.driverName with
  | none =>
    failOperation env request.driverName "Driver not found"
      ("Driver '" ++ request.driverName ++ "' not found in inventory") caller .driverRemove
  | some driver =>
    let loadedModules ← getLoadedModules env
    let conflictResult := engine.conflictDetector.checkRemove driver loadedModules
      w.inventory.drivers
    if conflictResult.hasConflicts && !request.force then
      failOperation env request.driverName "Removal blocked by conflicts"
        (conflictDetails conflictResult) caller .driverRemove
    else
      return .ok driver

/-- `remove_driver`. -/
def removeDriver (request : RemoveRequest) (caller : String) :
    StateM World OperationResult := do
  match ← engine.removeChecks env request caller with
  | .error result => return result
  | .ok driver =>
    let commit := do
      updateDriverStatus env driver.id .removed
      audit env .driverRemove .info "driver_remove_completed" caller
        ("Driver '" ++ driver.id.name ++ "' removed successfully")
    engine.transact env driver caller (executeRemove env driver request.force) commit
      (.success driver.id.name ("Driver '" ++ driver.id.name ++ "' removed successfully"))
      driver.id.name "Removal failed and was rolled back"

/-! ## Update -/

/-- The downgrade protection of `update_driver`. -/
def checkDowngrade (request : UpdateRequest) (caller : String) (currentDriver : DriverEntry) :
    StateM World (Except OperationResult DriverEntry) := do
  match request.targetVersion with
  | none => return .ok currentDriver
  | some target =>
    match DriverVersion.parse target with
    | .error e =>
      failOperation env request.driverName "Invalid target version" e.display
        caller .driverUpdate
    | .ok requestedVersion =>
      if currentDriver.id.version.gt requestedVersion && !request.allowDowngrade then
        let msg := "installed version " ++ currentDriver.id.version.display ++
          " is newer than requested version " ++ requestedVersion.display ++
          "; downgrade is not permitted without explicit policy override"
        audit env .driverUpdate .warning "downgrade_rejected" caller msg
        failOperation env request.driverName "Downgrade rejected" msg caller .driverUpdate
      else
        return .ok currentDriver

/-- The `{:?}` form of a target version. -/
def debugTarget (env : Env) : Option String → String
  | none => "None"
  | some v => "Some(" ++ env.debugStr v ++ ")"

/-- The checks of `update_driver`. -/
def updateChecks (request : UpdateRequest) (caller : String) :
    StateM World (Except OperationResult DriverEntry) :=
  engine.startOperation env .driverUpdate "driver_update_requested"
    ("Update of '" ++ request.driverName ++ "' to " ++
      debugTarget env request.targetVersion ++ " requested")
    .updateDriver "Update not authorized" "Invalid update request"
    request.driverName caller request.validate do
  let w ← get
  match w.inventory.findNamed request.driverName with
  | none =>
    failOperation env request.driverName "Driver not found for update"
      ("Driver '" ++ request.driverName ++ "' not found in inventory") caller .driverUpdate
  | some currentDriver => checkDowngrade env request caller currentDriver

/-- The entry at which `update_driver` writes back. -/
def updateTarget (request : UpdateRequest) (currentDriver d : DriverEntry) : Bool :=
  eqIgnoreAsciiCase d.id.name request.driverName &&
    d.id.provider == currentDriver.id.provider

/-- `update_driver`. -/
def updateDriver (request : UpdateRequest) (caller : String) :
    StateM World OperationResult := do
  match ← engine.updateChecks env request caller with
  | .error result => return result
  | .ok currentDriver =>
    let commit := do
      modify fun w => { w with inventory := { w.inventory with
        drivers := setFirst (updateTarget request currentDriver)
          { currentDriver with status := .active } w.inventory.drivers } }
      audit env .driverUpdate .info "driver_update_completed" caller
        ("Driver '" ++ request.driverName ++ "' updated successfully")
    engine.transact env currentDriver caller (engine.executeUpdate env currentDriver) commit
      (.success request.driverName ("Driver '" ++ request.driverName ++ "' updated successfully"))
      request.driverName "Update failed and was rolled back"

end DriverExecutionEngine

end MissionOs.Driverd
