import MissionOs.Driverd.Report

/-!
# The driver inventory

The data of `inventory.rs`: hardware devices, driver identities and versions,
driver entries, the requests and results of the management operations, and the
inventory itself.

A compatibility score is an `f64` that is never a NaN; it is the rational
number that the `f64` stands for.  A `HashMap` is the list of its entries.
-/

namespace MissionOs.Driverd

open MissionOs.Rust

/-! ## Hardware identity -/

/-- `HardwareId`. -/
structure HardwareId where
  modalias : String
  vendorId : String
  deviceId : String
  subsystemVendorId : Option String
  subsystemDeviceId : Option String
  classCode : Option String
  bus : String
  currentDriver : Option String
deriving DecidableEq, Repr

/-- `BusType`. -/
inductive BusType where
  | pci
  | usb
  | hid
  | virtio
  | acpi
  | platform
  | sdio
  | i2c
  | spi
  | thunderbolt
  | other (name : String)
deriving DecidableEq, Repr

/-- `HardwareDevice`. -/
structure HardwareDevice where
  hardwareId : HardwareId
  deviceName : String
  vendorName : Option String
  busType : BusType
  boundDriver : Option String
  operational : Bool
  matchedDrivers : List String
deriving DecidableEq, Repr

/-! ## Driver versions -/

/-- `DriverVersion`. -/
structure DriverVersion where
  major : UInt64
  minor : UInt64
  patch : UInt64
  preRelease : Option String
deriving DecidableEq, Repr

namespace DriverVersion

/-- `DriverVersion::new`. -/
def new (major minor patch : UInt64) : DriverVersion := ⟨major, minor, patch, none⟩

/-- `u64::parse` of one version component, with the component's name in the
error. -/
def parseComponent (name : String) (s : List Char) : ServiceResult UInt64 :=
  match parseU64 s with
  | .ok n => .ok n
  | .error e => .error (.invalidArgument ("invalid " ++ name ++ " version: " ++ e.display))

/-- The text left of the first dash, and the prerelease right of it.  An empty
prerelease counts as none. -/
def splitPreRelease (input : List Char) : List Char × Option String :=
  match input.dropWhile (· ≠ '-') with
  | [] => (input, none)
  | _ :: pre =>
      (input.takeWhile (· ≠ '-'), if pre.isEmpty then none else some (String.ofList pre))

/-- `DriverVersion::parse`. -/
def parse (text : String) : ServiceResult DriverVersion :=
  let input := trim text.toList
  if input.isEmpty then
    .error (.invalidArgument "version string must not be empty")
  else
    let (numericPart, preRelease) := splitPreRelease input
    -- A fourth component and what follows it are never looked at.
    match numericPart.splitOn '.' with
    | p0 :: p1 :: p2 :: _ => do
        let major ← parseComponent "major" p0
        let minor ← parseComponent "minor" p1
        let patch ← parseComponent "patch" p2
        pure ⟨major, minor, patch, preRelease⟩
    | _ =>
        .error (.invalidArgument
          ("version must have at least 3 components: " ++ String.ofList input))

/-- The `Display` text of a version. -/
def display (v : DriverVersion) : String :=
  toString v.major ++ "." ++ toString v.minor ++ "." ++ toString v.patch ++
    (match v.preRelease with
      | some pre => "-" ++ pre
      | none => "")

/-- The order of the prerelease parts: none is above every prerelease. -/
def cmpPreRelease : Option String → Option String → Ordering
  | none, none => .eq
  | none, some _ => .gt
  | some _, none => .lt
  | some a, some b => strCmp a.toList b.toList

/-- `Ord::cmp` of `DriverVersion`. -/
def cmp (a b : DriverVersion) : Ordering :=
  (compare a.major b.major).then <|
    (compare a.minor b.minor).then <|
      (compare a.patch b.patch).then (cmpPreRelease a.preRelease b.preRelease)

/-- `a > b`. -/
def gt (a b : DriverVersion) : Bool := a.cmp b == .gt

/-- `a >= b`. -/
def ge (a b : DriverVersion) : Bool := (a.cmp b).isGE

end DriverVersion

/-! ## Driver identity -/

/-- `KernelCompatibility`. -/
structure KernelCompatibility where
  minVersion : String
  maxVersion : Option String
  requiredFeatures : List String
deriving DecidableEq, Repr

/-- `DriverModuleType`. -/
inductive DriverModuleType where
  | kernelModule
  | firmware
  | userspace
  | deviceTreeOverlay
deriving DecidableEq, Repr

/-- `DriverId`. -/
structure DriverId where
  name : String
  provider : String
  version : DriverVersion
  arch : String
  kernelCompat : KernelCompatibility
  moduleType : DriverModuleType
deriving DecidableEq, Repr

/-- `DriverStatus`. -/
inductive DriverStatus where
  | available
  | installed
  | active
  | failed
  | pendingReboot
  | removed
  | updateAvailable
deriving DecidableEq, Repr

/-- `DriverStatus::is_operational`. -/
def DriverStatus.isOperational : DriverStatus → Bool
  | .active | .installed => true
  | _ => false

/-- `DriverStatus::is_error`. -/
def DriverStatus.isError : DriverStatus → Bool
  | .failed => true
  | _ => false

/-! ## Driver entries -/

/-- `CompatibilityInfo`. -/
structure CompatibilityInfo where
  compatible : Bool
  score : Rat
  explanation : String
  issues : List String
  signatureVerified : Option Bool
deriving DecidableEq, Repr

/-- `DriverSourceType`. -/
inductive DriverSourceType where
  | mission
  | linux
  | vendor
  | community
  | local
deriving DecidableEq, Repr

/-- `DriverSource`. -/
structure DriverSource where
  id : String
  name : String
  sourceType : DriverSourceType
  available : Bool
  priority : UInt32
deriving DecidableEq, Repr

/-- `DriverEntry`. -/
structure DriverEntry where
  id : DriverId
  status : DriverStatus
  supportedHardware : List String
  compatibility : Option CompatibilityInfo
  sources : List DriverSource
  metadata : List (String × String)
  description : String
  packageSizeBytes : Option UInt64
deriving DecidableEq, Repr

/-! ## Requests and results -/

/-- `InstallRequest`. -/
structure InstallRequest where
  driverName : String
  provider : String
  versionConstraint : Option String
  force : Bool
deriving DecidableEq, Repr

/-- `RemoveRequest`. -/
structure RemoveRequest where
  driverName : String
  force : Bool
deriving DecidableEq, Repr

/-- `UpdateRequest`. -/
structure UpdateRequest where
  driverName : String
  targetVersion : Option String
  allowDowngrade : Bool
deriving DecidableEq, Repr

/-- The check that every request makes of a name: it is not blank. -/
def requireNotBlank (field value : String) : ServiceResult Unit :=
  if trimIsEmpty value then .error (.invalidArgument (field ++ " must not be empty"))
  else .ok ()

/-- `InstallRequest::validate`. -/
def InstallRequest.validate (r : InstallRequest) : ServiceResult Unit := do
  requireNotBlank "driver_name" r.driverName
  requireNotBlank "provider" r.provider

/-- `RemoveRequest::validate`. -/
def RemoveRequest.validate (r : RemoveRequest) : ServiceResult Unit :=
  requireNotBlank "driver_name" r.driverName

/-- `UpdateRequest::validate`. -/
def UpdateRequest.validate (r : UpdateRequest) : ServiceResult Unit :=
  requireNotBlank "driver_name" r.driverName

/-- `OperationStatus`. -/
inductive OperationStatus where
  | pending
  | inProgress
  | completed
  | failed
  | cancelled
deriving DecidableEq, Repr

/-- `OperationResult`. -/
structure OperationResult where
  status : OperationStatus
  message : String
  error : Option String
  driverName : String
deriving DecidableEq, Repr

/-- `OperationResult::success`. -/
def OperationResult.success (driverName message : String) : OperationResult :=
  ⟨.completed, message, none, driverName⟩

/-- `OperationResult::failed`. -/
def OperationResult.failed (driverName message error : String) : OperationResult :=
  ⟨.failed, message, some error, driverName⟩

@[simp] theorem OperationResult.success_status (n m : String) :
    (OperationResult.success n m).status = .completed := rfl

@[simp] theorem OperationResult.failed_status (n m e : String) :
    (OperationResult.failed n m e).status = .failed := rfl

@[simp] theorem OperationResult.failed_message (n m e : String) :
    (OperationResult.failed n m e).message = m := rfl

/-! ## The inventory -/

/-- `DriverInventory`. -/
structure DriverInventory where
  drivers : List DriverEntry
  devices : List HardwareDevice
  lastScanTimestamp : UInt64
deriving DecidableEq, Repr

namespace DriverInventory

/-- The test of `find_driver`: name and provider match, ignoring ASCII case. -/
def named (name provider : String) (d : DriverEntry) : Bool :=
  eqIgnoreAsciiCase d.id.name name && eqIgnoreAsciiCase d.id.provider provider

/-- `DriverInventory::find_driver`. -/
def findDriver (inv : DriverInventory) (name provider : String) : Option DriverEntry :=
  inv.drivers.find? (named name provider)

/-- The lookup of a removal and of an update: the first entry of that name,
ignoring ASCII case. -/
def findNamed (inv : DriverInventory) (name : String) : Option DriverEntry :=
  inv.drivers.find? fun d => eqIgnoreAsciiCase d.id.name name

/-- `DriverInventory::active_driver_count`. -/
def activeDriverCount (inv : DriverInventory) : Nat :=
  (inv.drivers.filter (fun d => d.status.isOperational)).length

/-- `DriverInventory::failed_driver_count`. -/
def failedDriverCount (inv : DriverInventory) : Nat :=
  (inv.drivers.filter (fun d => d.status.isError)).length

end DriverInventory

end MissionOs.Driverd
