import MissionOs.Driverd.Kmod

/-!
# The inventory scanner

The rescan of `inventory.rs`: the devices come from the hardware enumeration,
and the driver list is replaced by the three drivers that the service knows.
A driver of the kernel tree is active when `/proc/modules` lists it.

A rescan writes to the inventory only, and does not read it (`scanSystem_wp`).
-/

namespace MissionOs.Driverd

open MissionOs.Rust MissionOs.Lib

/-- `CompatibilityInfo::compatible`. -/
def CompatibilityInfo.compatibleInfo (explanation : String) : CompatibilityInfo where
  compatible := true
  score := 1
  explanation := explanation
  issues := []
  signatureVerified := none

/-- The status of a driver of the kernel tree. -/
def inTreeStatus (loadedModules : List String) (name : String) : DriverStatus :=
  if loadedModules.contains name then .active else .available

/-- What the two drivers of the kernel tree have in common. -/
def inTreeDriver (name : String) (requiredFeatures : List String) (description : String)
    (status : DriverStatus) : DriverEntry where
  id := {
    name := name
    provider := "linux"
    version := .new 6 8 0
    arch := "amd64"
    kernelCompat := ⟨"2.6.32", none, requiredFeatures⟩
    moduleType := .kernelModule }
  status := status
  supportedHardware := ["pci:v00008086d*"]
  compatibility := some (.compatibleInfo "In-tree kernel driver")
  sources := [⟨"linux", "Linux Kernel", .linux, true, 10⟩]
  metadata := []
  description := description
  packageSizeBytes := none

/-- The entry of `e1000e`. -/
def e1000eDriver (status : DriverStatus) : DriverEntry :=
  inTreeDriver "e1000e" [] "Intel PRO/1000 PCIe Gigabit Ethernet driver" status

/-- The entry of `iwlwifi`. -/
def iwlwifiDriver (status : DriverStatus) : DriverEntry :=
  inTreeDriver "iwlwifi" ["CONFIG_IWLMVM"] "Intel Wireless WiFi driver (iwlwifi)" status

/-- The entry of `nvidia`. -/
def nvidiaDriver : DriverEntry where
  id := {
    name := "nvidia"
    provider := "nvidia"
    version := .new 550 120 0
    arch := "amd64"
    kernelCompat := ⟨"5.4.0", some "6.8.0", ["CONFIG_DRM"]⟩
    moduleType := .kernelModule }
  status := .available
  supportedHardware := ["pci:v000010DEd*"]
  compatibility := some { CompatibilityInfo.compatibleInfo
    "Proprietary NVIDIA driver available" with signatureVerified := some true }
  sources := [⟨"nvidia", "NVIDIA Corporation", .vendor, true, 50⟩]
  metadata := [("license", "proprietary")]
  description := "NVIDIA proprietary GPU driver"
  packageSizeBytes := some 350000000

/-- The drivers that `populate_builtin_drivers` writes to the inventory. -/
def builtinDrivers (loadedModules : List String) : List DriverEntry :=
  [e1000eDriver (inTreeStatus loadedModules "e1000e"),
    iwlwifiDriver (inTreeStatus loadedModules "iwlwifi"), nvidiaDriver]

/-- `populate_builtin_drivers`. -/
def populateBuiltinDrivers (env : Env) : StateM World Unit := do
  let modules ← listModules env
  let loadedModules := (modules.toOption.getD []).map (·.name)
  modify fun w => { w with inventory :=
    { w.inventory with drivers := builtinDrivers loadedModules } }

/-- `scan_system`. -/
def scanSystem (env : Env) : StateM World (ServiceResult Unit) := do
  modify fun w => { w with inventory :=
    { w.inventory with devices := env.enumerateAll.toOption.getD [] } }
  populateBuiltinDrivers env
  modify fun w => { w with inventory :=
    { w.inventory with lastScanTimestamp := env.now w.trace.length } }
  return .ok ()

/-- The names in `/proc/modules`, none if the file cannot be read. -/
def listedModules (env : Env) (kernel : Kernel) : List String :=
  match env.procModulesFault with
  | some _ => []
  | none => ((lines kernel.procModules.toList).filterMap ModuleInfo.ofLine).map (·.name)

/-- The inventory after a rescan: the devices that were enumerated, and the built-in
drivers with a status that only `/proc/modules` decides. -/
def scannedInventory (env : Env) (w : World) : DriverInventory where
  drivers := builtinDrivers (listedModules env w.kernel)
  devices := env.enumerateAll.toOption.getD []
  lastScanTimestamp := env.now (w.trace.length + 1)

/-- A rescan succeeds, and writes the inventory without a look at the one before. -/
theorem scanSystem_wp (env : Env) (w : World) :
    wp (scanSystem env)
      (fun r w' => r = .ok () ∧ w' = { w with
        inventory := scannedInventory env w
        trace := w.trace ++ [.readProcModules] }) w := by
  have hlength : w.trace.length + 1 = (w.trace ++ [Event.readProcModules]).length := by simp
  simp only [scanSystem, populateBuiltinDrivers, listModules, emit, wp_bind, wp_modify, wp_get,
    scannedInventory, listedModules, hlength]
  cases env.procModulesFault with
  | none => exact ⟨rfl, rfl⟩
  | some e => exact ⟨rfl, rfl⟩

/-! ## The poll for hardware events -/

/-- `find_matching_drivers`: the compatible drivers, the best first.  `evaluate` is the
scoring of the matcher. -/
def findMatchingDrivers (evaluate : DriverEntry → HardwareDevice → CompatibilityInfo)
    (device : HardwareDevice) (drivers : List DriverEntry) :
    List (DriverEntry × CompatibilityInfo) :=
  ((drivers.map fun driver => (driver, evaluate driver device)).filter
    (·.2.compatible)).mergeSort fun a b => b.2.score ≤ a.2.score

/-- `match_drivers_to_hardware`. -/
def matchDriversToHardware (evaluate : DriverEntry → HardwareDevice → CompatibilityInfo)
    (inv : DriverInventory) : DriverInventory :=
  { inv with devices := inv.devices.map fun device =>
      { device with
        matchedDrivers := (findMatchingDrivers evaluate device inv.drivers).map (·.1.id.name) } }

/-- The task that polls for hardware events, when there are some. -/
def pollHardware (env : Env) (evaluate : DriverEntry → HardwareDevice → CompatibilityInfo) :
    StateM World Unit := do
  let _ ← scanSystem env
  modify fun w => { w with inventory := matchDriversToHardware evaluate w.inventory }

end MissionOs.Driverd
