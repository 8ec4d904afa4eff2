import MissionOs.Driverd.Operations
import MissionOs.Lib.Turns

/-!
# An installation beside another writer

`install_driver` looks at the package store several times: it finds the package and reads it to
verify it, and it finds the package and reads it again to load or to copy it.  Here another
writer of the store takes a turn before each of these accesses.

`runsAlone_installDriver` says that without such turns the installation is that of
`Execution.lean`.
-/

namespace MissionOs.Driverd

open MissionOs.Rust MissionOs.Lib

/-! ## The other writer -/

/-- A step of another writer of the package store: a file is staged or replaced, or it is
removed. -/
inductive StoreStep where
  | write (fileName : String) (data : Bytes)
  | remove (fileName : String)
deriving DecidableEq, Repr

namespace StoreStep

/-- The file that a step is about. -/
def fileName : StoreStep → String
  | write fileName _ => fileName
  | remove fileName => fileName

/-- The files after a step. -/
def apply (store : PackageStore) (fs : FileSystem) : StoreStep → FileSystem
  | write fileName data => fs.write (store.stagedPath fileName) data
  | remove fileName => fs.remove (store.stagedPath fileName)

end StoreStep

/-- The files after a turn of the other writer. -/
def PackageStore.afterTurn (store : PackageStore) (steps : List StoreStep) (fs : FileSystem) :
    FileSystem :=
  steps.foldl (fun fs step => step.apply store fs) fs

/-- The world after a turn of the other writer. -/
def World.afterTurn (store : PackageStore) (steps : List StoreStep) (w : World) : World :=
  { w with fs := store.afterTurn steps w.fs }

/-- The world of the daemon, and the turns of the other writer. -/
abbrev SharedWorld := WithTurns World StoreStep

namespace DriverExecutionEngine

open WithTurns

variable (engine : DriverExecutionEngine) (env : Env)

/-- The other writer takes its next turn. -/
def otherWriter : StateM SharedWorld Unit := turn (World.afterTurn engine.packageStore)

/-! ## The installation -/

/-- `Path::exists`, of a file in the store. -/
def pathExistsShared (p : Path) : StateM SharedWorld Bool := do
  engine.otherWriter
  let w ← alone get
  return w.pathExists p

/-- `find_package_path`. -/
def findPackagePathShared (driver : DriverEntry) : StateM SharedWorld Path := do
  let staged := engine.packageStore.stagedPath (driver.id.name ++ ".ko")
  if ← engine.pathExistsShared staged then return staged
  else
    let staged2 := engine.packageStore.stagedPath driver.id.name
    if ← engine.pathExistsShared staged2 then return staged2 else return staged

/-- The signature check of `install_driver`. -/
def checkSignatureShared (request : InstallRequest) (caller : String) (driver : DriverEntry) :
    StateM SharedWorld (Except OperationResult DriverEntry) := do
  if driver.id.moduleType = .kernelModule || driver.id.moduleType = .firmware then
    let packagePath ← engine.findPackagePathShared driver
    engine.otherWriter
    let signature ← alone (engine.readPackageSignature env driver)
    engine.otherWriter
    let verifyResult ←
      alone (verifyPackage env engine.signatureVerifier packagePath signature none)
    if !verifyResult.outcome.isValid && !engine.allowUnsigned then
      alone (failOperation env request.driverName "Package verification failed"
        verifyResult.description caller .driverInstall)
    else
      return .ok driver
  else
    return .ok driver

/-- `execute_install`. -/
def executeInstallShared (driver : DriverEntry) : StateM SharedWorld (ServiceResult Unit) :=
  match driver.id.moduleType with
  | .kernelModule => do
    let path ← engine.findPackagePathShared driver
    if ← engine.pathExistsShared path then
      engine.otherWriter
      alone (loadModule env driver.id.name path [])
    else
      let w ← alone get
      if moduleAvailable w driver.id.name then
        return .ok ()
      else
        return .error (.notFound ("Module file for '" ++ driver.id.name ++ "' not found"))
  | .firmware => do
    let src ← engine.findPackagePathShared driver
    let dest := firmwarePath driver.id.name
    engine.otherWriter
    alone (createParent env dest)
    engine.otherWriter
    match ← alone (copyFile env src dest) with
    | .error e => return .error (.internal ("cannot install firmware: " ++ e))
    | .ok () => return .ok ()
  | .userspace => return .ok ()
  | .deviceTreeOverlay =>
    return .error (.notSupported
      "Device tree overlay installation is not supported in M2-D")

/-- `rollback_operation`. -/
def rollbackOperationShared (correlationId caller : String) : StateM SharedWorld Unit := do
  let w ← alone get
  match w.tracker.findState correlationId with
  | some saved => do
    alone (modify (·.restore saved.driver))
    if saved.wasLoaded then
      let path ← engine.findPackagePathShared saved.driver
      engine.otherWriter
      alone (discard (loadModule env saved.driver.id.name path []))
    alone do
      audit env .driverInstall .warning "rollback_completed" caller
        ("Rollback completed for operation '" ++ correlationId ++ "', restored driver '" ++
          saved.driver.id.name ++ "'")
      OperationTracker.removeState correlationId
  | none =>
    alone (audit env .driverInstall .error "rollback_failed" caller
      ("Rollback failed: no saved state found for operation '" ++ correlationId ++ "'"))

/-- `install_driver` from step 7 on. -/
def transactShared (driver : DriverEntry) (caller : String) :
    StateM SharedWorld OperationResult := do
  engine.otherWriter
  let corrId ← alone (OperationTracker.saveState driver)
  match ← engine.executeInstallShared env driver with
  | .ok () => do
    alone do
      updateDriverStatus env driver.id .installed
      audit env .driverInstall .info "driver_install_completed" caller
        ("Driver '" ++ driver.id.name ++ "' installed successfully")
      OperationTracker.removeState corrId
    return .success driver.id.name ("Driver '" ++ driver.id.name ++ "' installed successfully")
  | .error e => do
    engine.rollbackOperationShared env corrId caller
    return .failed driver.id.name "Installation failed and was rolled back" e.display

/-- `install_driver`.  The steps of `beforeCheck` do not look at the store. -/
def installDriverShared (request : InstallRequest) (caller : String)
    (hardwareDevices : List HardwareDevice) : StateM SharedWorld OperationResult := do
  match ← alone (engine.beforeCheck env request caller hardwareDevices) with
  | .error result => return result
  | .ok accepted =>
    match ← engine.checkSignatureShared env request caller accepted with
    | .error result => return result
    | .ok driver => engine.transactShared env driver caller

/-! ## Without another writer -/

section Alone

variable {engine env}

theorem runsAlone_otherWriter {α : Type} {p : StateM World α} {q : StateM SharedWorld α}
    {w : World} (h : RunsAlone q p w) : RunsAlone (engine.otherWriter >>= fun _ => q) p w :=
  runsAlone_turn rfl h

theorem findsAlone_pathExists (p : Path) (w : World) :
    FindsAlone (engine.pathExistsShared p) (w.pathExists p) w := findsAlone_turn rfl rfl

/-- The looks at two moments are those at one. -/
theorem findsAlone_findPackagePath (driver : DriverEntry) (w : World) :
    FindsAlone (engine.findPackagePathShared driver) (engine.findPackagePath w driver) w := by
  apply (findsAlone_pathExists _ w).find
  rw [findPackagePath]
  by_cases hko : w.pathExists (engine.packageStore.stagedPath (driver.id.name ++ ".ko")) = true
  · rw [if_pos hko, if_pos hko]
    rfl
  · rw [if_neg hko, if_neg hko]
    apply (findsAlone_pathExists _ w).find
    dsimp only
    by_cases hbare : w.pathExists (engine.packageStore.stagedPath driver.id.name) = true
    · rw [if_pos hbare, if_pos hbare]
      rfl
    · rw [if_neg hbare, if_neg hbare]
      rfl

theorem runsAlone_checkSignature (request : InstallRequest) (caller : String)
    (driver : DriverEntry) (w : World) :
    RunsAlone (engine.checkSignatureShared env request caller driver)
      (engine.checkSignature env request caller driver) w := by
  rw [checkSignatureShared, checkSignature]
  split_ifs with htype
  · apply RunsAlone.get
    apply (findsAlone_findPackagePath driver w).bind
    apply runsAlone_otherWriter
    apply (runsAlone_alone (engine.readPackageSignature env driver) w).bind
    intro signature w₁
    apply runsAlone_otherWriter
    apply (runsAlone_alone (verifyPackage env engine.signatureVerifier _ signature none) w₁).bind
    intro result w₂
    split_ifs with hrefused
    · rfl
    · rfl
  · rfl

theorem runsAlone_executeInstall (driver : DriverEntry) (w : World) :
    RunsAlone (engine.executeInstallShared env driver) (engine.executeInstall env driver) w := by
  rw [executeInstallShared, executeInstall]
  apply RunsAlone.get
  cases driver.id.moduleType with
  | kernelModule =>
      apply (findsAlone_findPackagePath driver w).bind
      apply (findsAlone_pathExists _ w).bind
      dsimp only
      by_cases hfound : w.pathExists (engine.findPackagePath w driver) = true
      · rw [if_pos hfound, if_pos hfound]
        exact runsAlone_otherWriter (runsAlone_alone _ w)
      · rw [if_neg hfound, if_neg hfound]
        apply (findsAlone_get w).bind
        by_cases havailable : moduleAvailable w driver.id.name = true
        · rw [if_pos havailable, if_pos havailable]
          rfl
        · rw [if_neg havailable, if_neg havailable]
          rfl
  | firmware =>
      apply (findsAlone_findPackagePath driver w).bind
      apply runsAlone_otherWriter
      apply (runsAlone_alone (createParent env (firmwarePath driver.id.name)) w).bind
      intro _ w₁
      apply runsAlone_otherWriter
      apply (runsAlone_alone (copyFile env _ (firmwarePath driver.id.name)) w₁).bind
      intro r w₂
      cases r with
      | error e => rfl
      | ok u => rfl
  | userspace => rfl
  | deviceTreeOverlay => rfl

theorem runsAlone_rollbackOperation (correlationId caller : String) (w : World) :
    RunsAlone (engine.rollbackOperationShared env correlationId caller)
      (engine.rollbackOperation env correlationId caller) w := by
  rw [rollbackOperationShared, rollbackOperation]
  apply RunsAlone.get
  apply (findsAlone_get w).bind
  cases w.tracker.findState correlationId with
  | none => rfl
  | some saved =>
      dsimp only
      apply (runsAlone_alone (modify (·.restore saved.driver)) w).bind
      intro _ w₁
      split_ifs with hloaded
      · apply RunsAlone.get
        apply (findsAlone_findPackagePath saved.driver w₁).bind
        apply runsAlone_otherWriter
        apply (runsAlone_alone (discard (loadModule env saved.driver.id.name _ [])) w₁).bind
        intro _ w₂
        rfl
      · rfl

theorem runsAlone_transact (driver : DriverEntry) (caller : String) (w : World) :
    RunsAlone (engine.transactShared env driver caller)
      (engine.transact env driver caller (engine.executeInstall env driver)
        (do
          updateDriverStatus env driver.id .installed
          audit env .driverInstall .info "driver_install_completed" caller
            ("Driver '" ++ driver.id.name ++ "' installed successfully"))
        (.success driver.id.name ("Driver '" ++ driver.id.name ++ "' installed successfully"))
        driver.id.name "Installation failed and was rolled back") w := by
  rw [transactShared, transact]
  apply runsAlone_otherWriter
  apply (runsAlone_alone (OperationTracker.saveState driver) w).bind
  intro corrId w₁
  apply (runsAlone_executeInstall driver w₁).bind
  intro r w₂
  cases r with
  | ok u => rfl
  | error e =>
      apply (runsAlone_rollbackOperation corrId caller w₂).bind
      intro _ w₃
      rfl

/-- Without another writer the installation is that of the engine. -/
theorem runsAlone_installDriver (request : InstallRequest) (caller : String)
    (hardwareDevices : List HardwareDevice) (w : World) :
    RunsAlone (engine.installDriverShared env request caller hardwareDevices)
      (engine.installDriver env request caller hardwareDevices) w := by
  rw [installDriverShared, installDriver, installChecks, bind_assoc]
  apply (runsAlone_alone (engine.beforeCheck env request caller hardwareDevices) w).bind
  intro r w₁
  cases r with
  | error result => rfl
  | ok accepted =>
      apply (runsAlone_checkSignature request caller accepted w₁).bind
      intro r w₂
      cases r with
      | error result => rfl
      | ok driver => exact runsAlone_transact driver caller w₂

end Alone

end DriverExecutionEngine

end MissionOs.Driverd
