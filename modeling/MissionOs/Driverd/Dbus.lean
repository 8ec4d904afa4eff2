import MissionOs.Driverd.Cache
import MissionOs.Driverd.Operations

/-!
# The bus interface

The methods of the three interfaces of `dbus.rs`.  A message has a sender, which
the bus fills in, and a body, from which every parameter of a method is read;
`caller`, the subject of the authorization, is the first of them.

A method that is not authorized reports and nothing else (`authorized_wp`).  The
reply to a method is the value that is encoded as JSON.
-/

namespace MissionOs.Driverd

open MissionOs.Rust MissionOs.Lib

/-! ## Messages and replies -/

/-- The body of a message: a method with its parameters. -/
inductive Method where
  | getVersion
  | getStatus (caller : String)
  | scanHardware (caller : String)
  | listDrivers (caller : String)
  | listDevices (caller : String)
  | queryDriver (caller driverName provider : String)
  | checkCompatibility (caller driverName provider : String)
  | installDriver (caller requestJson : String)
  | removeDriver (caller requestJson : String)
  | updateDriver (caller requestJson : String)
  | listSources (caller : String)
  | refreshMetadata (caller : String)
  | getCacheStatus (caller : String)
  | clearCache (caller : String)
deriving DecidableEq, Repr

namespace Method

/-- The parameter `caller`, and the action that the method is authorized for. -/
def subject : Method → Option (String × DriverAction)
  | getVersion => none
  | getStatus caller => some (caller, .viewStatus)
  | scanHardware caller => some (caller, .scanHardware)
  | listDrivers caller => some (caller, .listDrivers)
  | listDevices caller => some (caller, .listDrivers)
  | queryDriver caller _ _ => some (caller, .queryDriver)
  | checkCompatibility caller _ _ => some (caller, .checkCompatibility)
  | installDriver caller _ => some (caller, .installDriver)
  | removeDriver caller _ => some (caller, .removeDriver)
  | updateDriver caller _ => some (caller, .updateDriver)
  | listSources caller => some (caller, .listDrivers)
  | refreshMetadata caller => some (caller, .configureSources)
  | getCacheStatus caller => some (caller, .viewStatus)
  | clearCache caller => some (caller, .configureSources)

end Method

/-- A method call as the bus delivers it. -/
structure Message where
  sender : String
  body : Method
deriving DecidableEq, Repr

/-- `zbus::fdo::Error`, as far as a method returns it. -/
inductive FdoError where
  | accessDenied (msg : String)
  | invalidArgs (msg : String)
  | failed (msg : String)
  | fileNotFound (msg : String)
  | notSupported (msg : String)
deriving DecidableEq, Repr

/-- `map_service_error`. -/
def mapServiceError : ServiceError → FdoError
  | .permissionDenied msg => .accessDenied msg
  | .invalidArgument msg => .invalidArgs msg
  | .notFound msg => .fileNotFound msg
  | .alreadyExists msg => .failed ("already exists: " ++ msg)
  | .notSupported msg => .notSupported msg
  | .backendUnavailable msg => .failed msg
  | .busy msg => .failed msg
  | .conflict msg => .failed msg
  | .verificationFailed msg => .failed msg
  | .rollbackFailed msg => .failed msg
  | .packageError msg => .failed msg
  | .downloadFailed msg => .failed msg
  | .sourceError msg => .failed msg
  | .metadataError msg => .invalidArgs msg
  | .downgradeRejected msg => .invalidArgs msg
  | .internal msg => .failed msg

/-- A row of `source_status_list`. -/
structure SourceStatus where
  id : String
  name : String
  sourceType : String
  enabled : Bool
  priority : UInt32
  baseUrl : String
  hasMetadataUrl : Bool
  trustedKeyCount : Nat
  mirrorCount : Nat
deriving DecidableEq, Repr

/-- `InventorySnapshot`. -/
structure InventorySnapshot where
  driverCount : Nat
  activeDrivers : Nat
  failedDrivers : Nat
  deviceCount : Nat
  lastScanTimestamp : UInt64
deriving DecidableEq, Repr

/-- `snapshot_inventory`. -/
def snapshotInventory (inv : DriverInventory) : InventorySnapshot where
  driverCount := inv.drivers.length
  activeDrivers := inv.activeDriverCount
  failedDrivers := inv.failedDriverCount
  deviceCount := inv.devices.length
  lastScanTimestamp := inv.lastScanTimestamp

/-- What a method returns. -/
inductive Reply where
  | version (text : String)
  | status (version : String) (snapshot : InventorySnapshot) (auditEnabled : Bool)
  | operation (result : OperationResult)
  | drivers (drivers : List DriverEntry)
  | devices (devices : List HardwareDevice)
  | driver (driver : DriverEntry)
  | compatibility (info : CompatibilityInfo)
  | sources (sources : List SourceStatus)
  | refresh (sourceCount : Nat)
  | cacheStatus (cachePath : Path) (currentSizeBytes entryCount : Nat)
      (maxSizeBytes : UInt64) (maxEntries : Nat)
  | cacheCleared (removedEntries : Nat)

/-- The decoding of the JSON requests. -/
structure RequestFormat where
  installRequest : String → Except String InstallRequest
  removeRequest : String → Except String RemoveRequest
  updateRequest : String → Except String UpdateRequest

/-- `AppState`.  `evaluateCompatibility` is the scoring of the hardware matcher. -/
structure AppState where
  auditEnabled : Bool
  authorizer : Authorizer
  sources : List SourceStatus
  executionEngine : DriverExecutionEngine
  cacheManager : CacheManager
  cacheHost : CacheHost
  requests : RequestFormat
  evaluateCompatibility : DriverEntry → HardwareDevice → CompatibilityInfo

/-! ## The cache -/

/-- What the cache meets on the machine.  Files may refuse to be removed; the methods make no other
call that changes a file, and nothing that is read fails. -/
def Env.forCache (env : Env) (fs : FileSystem) : CacheEnv where
  fault _ := none
  changeFault
    | .removeFile _ => env.removeFault
    | _ => none
  written := 0
  now := 0
  listing _ _ := (fs.files.entries.map (·.1) ++ fs.dirs).filterMap List.getLast?
  modified _ := .ok 0
  dirSize _ := 4096
  refused := env.notAFile

/-- The handler of the calls of the cache.  The removal of a file is a call of the service. -/
def cacheHandler (host : CacheHost) (env : Env) : Handler cacheInterface World
  | .file (.removeFile p), w => (removeFile env p).run w
  | c, w => (((env.forCache w.fs).handler host c ⟨w.fs, 0⟩).1, w)

/-- Run a method of the cache manager. -/
def AppState.runCache {α : Type} (state : AppState) (env : Env) (p : CacheProg α) :
    StateM World (ServiceResult α) :=
  fun w => p.run.run (cacheHandler state.cacheHost env) w

/-! ## Signals -/

/-- `emit_driver_event`. -/
def emitDriverEvent (env : Env) (event : AuditEvent) : StateM World Unit := do
  let seq ← nextSequence
  let w ← get
  emit (.signal "DriverEvent" seq (env.now w.trace.length) (some event))

/-- `emit_inventory_changed`. -/
def emitInventoryChanged (env : Env) : StateM World Unit := do
  let seq ← nextSequence
  let w ← get
  emit (.signal "InventoryChanged" seq (env.now w.trace.length) none)

/-- `AppState::audit`, followed by the signal of the event. -/
def auditAndEmit (env : Env) (category : EventCategory) (severity : EventSeverity)
    (action subject details : String) : StateM World Unit := do
  let w ← get
  let event := AuditEvent.new (env.now w.trace.length) category severity action subject details
  recordAudit event
  emitDriverEvent env event

namespace AppState

variable (state : AppState) (env : Env)

/-- How every method but one begins: the caller is authorized, or refused with
`denied`. -/
def authorized (action : DriverAction) (caller denied : String)
    (next : StateM World (Except FdoError Reply)) : StateM World (Except FdoError Reply) := do
  let auth ← state.authorizer.authorize env action caller
  if !auth.isAuthorized then return .error (.accessDenied denied) else next

/-! ## The core interface -/

/-- The version of the package. -/
def version : String := "0.1.0"

/-- `DriverInterface::get_version`. -/
def getVersion : StateM World (Except FdoError Reply) :=
  return .ok (.version version)

/-- `DriverInterface::get_status`. -/
def getStatus (caller : String) : StateM World (Except FdoError Reply) :=
  state.authorized env .viewStatus caller "not authorized to view driver service status" do
    let w ← get
    let snapshot := snapshotInventory w.inventory
    auditAndEmit env .system .info "get_status" caller "Driver service status requested"
    return .ok (.status version snapshot state.auditEnabled)

/-! ## The inventory interface -/

/-- `InventoryInterface::scan_hardware`. -/
def scanHardware (caller : String) : StateM World (Except FdoError Reply) :=
  state.authorized env .scanHardware caller "not authorized to trigger hardware scan" do
    match ← scanSystem env with
    | .error e => return .error (mapServiceError e)
    | .ok () => do
      let w ← get
      let opResult := OperationResult.success "system"
        ("Scan complete: " ++ toString w.inventory.drivers.length ++ " drivers in inventory")
      auditAndEmit env .hardwareDetection .info "hardware_scan" caller
        ("Hardware scan completed: " ++ opResult.message)
      emitInventoryChanged env
      return .ok (.operation opResult)

/-- `InventoryInterface::list_drivers`. -/
def listDrivers (caller : String) : StateM World (Except FdoError Reply) :=
  state.authorized env .listDrivers caller "not authorized to list drivers" do
    let w ← get
    return .ok (.drivers w.inventory.drivers)

/-- `InventoryInterface::list_devices`. -/
def listDevices (caller : String) : StateM World (Except FdoError Reply) :=
  state.authorized env .listDrivers caller "not authorized to list devices" do
    let w ← get
    return .ok (.devices w.inventory.devices)

/-- `InventoryInterface::query_driver`. -/
def queryDriver (caller driverName provider : String) : StateM World (Except FdoError Reply) :=
  state.authorized env .queryDriver caller "not authorized to query drivers" do
    let w ← get
    match w.inventory.findDriver driverName provider with
    | none =>
      return .error (.fileNotFound ("driver '" ++ provider ++ "/" ++ driverName ++ "' not found"))
    | some d => return .ok (.driver d)

/-- `InventoryScanner::check_compatibility`. -/
def compatibilityOf (inv : DriverInventory) (driverName provider : String) :
    ServiceResult CompatibilityInfo :=
  match inv.findDriver driverName provider with
  | none => .error (.notFound ("driver '" ++ provider ++ "/" ++ driverName ++ "' not found"))
  | some driver =>
    match (inv.devices.map (state.evaluateCompatibility driver)).find? (·.compatible) with
    | some compat => .ok compat
    | none =>
      .ok (driver.compatibility.getD {
        compatible := false
        score := 0
        explanation := "No compatible hardware found for this driver"
        issues := ["No hardware device matches this driver's supported device list"]
        signatureVerified := none })

/-- `InventoryInterface::check_compatibility`. -/
def checkCompatibility (caller driverName provider : String) :
    StateM World (Except FdoError Reply) :=
  state.authorized env .checkCompatibility caller "not authorized to check compatibility" do
    let w ← get
    match state.compatibilityOf w.inventory driverName provider with
    | .error e => return .error (mapServiceError e)
    | .ok compat => return .ok (.compatibility compat)

/-! ## The management interface -/

/-- How the three operations of the interface begin: the request is decoded and
validated. -/
def withRequest {ρ : Type} (kind : String) (parsed : Except String ρ)
    (validate : ρ → ServiceResult Unit) (next : ρ → StateM World (Except FdoError Reply)) :
    StateM World (Except FdoError Reply) :=
  match parsed with
  | .error e => return .error (.invalidArgs ("invalid " ++ kind ++ " request: " ++ e))
  | .ok request =>
    match validate request with
    | .error e => return .error (.invalidArgs ("invalid " ++ kind ++ " request: " ++ e.display))
    | .ok () => next request

/-- `ManagementInterface::install_driver`. -/
def installDriver (caller requestJson : String) : StateM World (Except FdoError Reply) :=
  withRequest "install" (state.requests.installRequest requestJson) InstallRequest.validate
    fun request =>
  state.authorized env .installDriver caller "not authorized to install drivers" do
    auditAndEmit env .driverInstall .info "driver_install_requested" caller
      ("Driver '" ++ request.driverName ++ "' installation requested from '" ++
        request.provider ++ "'")
    let w ← get
    let result ← state.executionEngine.perform env
      (.install request caller w.inventory.devices)
    emitInventoryChanged env
    if result.status = .completed then
      auditAndEmit env .driverInstall .info "driver_install_completed" caller result.message
    return .ok (.operation result)

/-- `ManagementInterface::remove_driver`. -/
def removeDriver (caller requestJson : String) : StateM World (Except FdoError Reply) :=
  withRequest "remove" (state.requests.removeRequest requestJson) RemoveRequest.validate
    fun request =>
  state.authorized env .removeDriver caller "not authorized to remove drivers" do
    auditAndEmit env .driverRemove .info "driver_remove_requested" caller
      ("Driver '" ++ request.driverName ++ "' removal requested")
    let result ← state.executionEngine.perform env (.remove request caller)
    emitInventoryChanged env
    return .ok (.operation result)

/-- `ManagementInterface::update_driver`. -/
def updateDriver (caller requestJson : String) : StateM World (Except FdoError Reply) :=
  withRequest "update" (state.requests.updateRequest requestJson) UpdateRequest.validate
    fun request =>
  state.authorized env .updateDriver caller "not authorized to update drivers" do
    auditAndEmit env .driverUpdate .info "driver_update_requested" caller
      ("Driver '" ++ request.driverName ++ "' update requested to " ++
        DriverExecutionEngine.debugTarget env request.targetVersion)
    let result ← state.executionEngine.perform env (.update request caller)
    emitInventoryChanged env
    return .ok (.operation result)

/-- `ManagementInterface::list_sources`. -/
def listSources (caller : String) : StateM World (Except FdoError Reply) :=
  state.authorized env .listDrivers caller "not authorized to list sources" do
    return .ok (.sources state.sources)

/-- `ManagementInterface::refresh_metadata`: the refresh itself is not there yet. -/
def refreshMetadata (caller : String) : StateM World (Except FdoError Reply) :=
  state.authorized env .configureSources caller "not authorized to refresh metadata" do
    audit env .configuration .info "metadata_refresh_requested" caller
      "Repository metadata refresh requested"
    return .ok (.refresh state.sources.length)

/-- `ManagementInterface::get_cache_status`. -/
def getCacheStatus (caller : String) : StateM World (Except FdoError Reply) :=
  state.authorized env .viewStatus caller "not authorized to view cache status" do
    let config := state.cacheManager.config
    -- Neither of the two can fail.
    let size ← state.runCache env state.cacheManager.currentCacheSize
    let count ← state.runCache env state.cacheManager.cacheEntryCount
    return .ok (.cacheStatus config.cachePath (size.toOption.getD 0) (count.toOption.getD 0)
      config.maxSizeBytes config.maxEntries)

/-- `ManagementInterface::clear_cache`. -/
def clearCache (caller : String) : StateM World (Except FdoError Reply) :=
  state.authorized env .configureSources caller "not authorized to clear cache" do
    match ← state.runCache env state.cacheManager.clear with
    | .ok removed => do
      audit env .configuration .info "cache_cleared" caller
        ("Cache cleared: " ++ toString removed ++ " entries removed")
      return .ok (.cacheCleared removed)
    | .error e => return .error (mapServiceError e)

/-! ## Dispatch -/

/-- The handler of a method. -/
def handle : Method → StateM World (Except FdoError Reply)
  | .getVersion => getVersion
  | .getStatus caller => state.getStatus env caller
  | .scanHardware caller => state.scanHardware env caller
  | .listDrivers caller => state.listDrivers env caller
  | .listDevices caller => state.listDevices env caller
  | .queryDriver caller driverName provider => state.queryDriver env caller driverName provider
  | .checkCompatibility caller driverName provider =>
    state.checkCompatibility env caller driverName provider
  | .installDriver caller requestJson => state.installDriver env caller requestJson
  | .removeDriver caller requestJson => state.removeDriver env caller requestJson
  | .updateDriver caller requestJson => state.updateDriver env caller requestJson
  | .listSources caller => state.listSources env caller
  | .refreshMetadata caller => state.refreshMetadata env caller
  | .getCacheStatus caller => state.getCacheStatus env caller
  | .clearCache caller => state.clearCache env caller

/-- The world after a message.  A handler looks at the body only. -/
def receive (message : Message) (w : World) : World :=
  ((state.handle env message.body).run w.fresh).2

end AppState

/-- A daemon that bypasses no check, with the requests that name `e1000e`. -/
def AppState.strict : AppState where
  auditEnabled := true
  authorizer := ⟨false, some ⟨true, false⟩⟩
  sources := []
  executionEngine := .strict
  cacheManager := ⟨⟨Path.new "/var/cache/mission/drivers", 10000000000, 500⟩⟩
  cacheHost := .plain
  requests := {
    installRequest := fun text =>
      if text = "\x7b\"driver_name\":\"e1000e\",\"provider\":\"linux\",\"force\":false\x7d" then
        .ok ⟨"e1000e", "linux", none, false⟩
      else .error "expected value at line 1 column 1"
    removeRequest := fun text =>
      if text = "\x7b\"driver_name\":\"e1000e\",\"force\":true\x7d" then .ok ⟨"e1000e", true⟩
      else .error "expected value at line 1 column 1"
    updateRequest := fun text =>
      if text = "\x7b\"driver_name\":\"e1000e\",\"allow_downgrade\":false\x7d" then
        .ok ⟨"e1000e", none, false⟩
      else .error "expected value at line 1 column 1" }
  evaluateCompatibility := fun _ _ => .compatibleInfo "Hardware match"

end MissionOs.Driverd
