import MissionOs.Driverd.Inventory
import Mathlib.Data.List.ReduceOption

/-!
# Hardware detection

`hwdetect.rs`: the devices that sysfs lists for the buses of `BUS_SUBSYSTEMS`.  A device
without a `modalias` is passed over, and so is one whose ids do not pass `validate`.

The ids that the `uevent` file does not give are cut out of the modalias by byte offsets.
A character that is cut makes the enumeration panic.
-/

namespace MissionOs.Driverd

open MissionOs.Rust

/-! ## The identity of a device -/

/-- The buses that `validate_bus_type` knows. -/
def recognizedBuses : List String :=
  ["pci", "usb", "hid", "virtio", "acpi", "platform", "sdio", "i2c", "spi", "thunderbolt"]

/-- `HardwareId::validate`.  `unicode` lowers the strings that are not ASCII. -/
def HardwareId.validate (unicode : String → String) (id : HardwareId) : ServiceResult Unit :=
  if trimIsEmpty id.modalias then .error (.invalidArgument "modalias must not be empty")
  else if trimIsEmpty id.vendorId then .error (.invalidArgument "vendor_id must not be empty")
  else if trimIsEmpty id.deviceId then .error (.invalidArgument "device_id must not be empty")
  else if trimIsEmpty id.bus then .error (.invalidArgument "bus must not be empty")
  else if recognizedBuses.contains (toLowercase unicode id.bus) then .ok ()
  else .error (.invalidArgument ("unrecognized bus type: " ++ id.bus))

/-- The text from where a pattern first stands in it, as `&s[s.find(pattern)?..]`. -/
def fromFirst (pattern s : List Char) : Option (List Char) :=
  s.tails.find? pattern.isPrefixOf

/-- `char::is_ascii_hexdigit`. -/
def isAsciiHexdigit (c : Char) : Bool :=
  c.isDigit || ('a' ≤ c && c ≤ 'f') || ('A' ≤ c && c ≤ 'F')

/-- The id in the first four bytes of a text, if they are hexadecimal digits. -/
def hexId (s : List Char) : Panics (Option String) := do
  let id ← firstBytes 4 s
  return if id.all isAsciiHexdigit then some ("0x" ++ String.ofList id) else none

/-- `extract_vendor_from_modalias`. -/
def extractVendorFromModalias (modalias : List Char) : Panics (Option String) :=
  match fromFirst "v0000".toList modalias with
  | some rest =>
    if 9 ≤ byteLen (String.ofList rest) then do
      let vendor ← hexId (rest.drop 5)
      return some (vendor.getD "0x0000")
    else return some "0x0000"
  | none =>
    match fromFirst ['v'] modalias with
    | some rest =>
      if 4 ≤ byteLen (String.ofList (rest.drop 1)) then hexId (rest.drop 1) else return none
    | none => return none

/-- `extract_device_from_modalias`: the device of a PCI modalias is not checked for digits. -/
def extractDeviceFromModalias (modalias : List Char) : Panics (Option String) :=
  match fromFirst "d0000".toList modalias with
  | some rest =>
    if 9 ≤ byteLen (String.ofList rest) then do
      let device ← firstBytes 4 (rest.drop 5)
      return some ("0x" ++ String.ofList device)
    else return none
  | none =>
    match fromFirst ['p'] modalias with
    | some rest =>
      if 4 ≤ byteLen (String.ofList (rest.drop 1)) then hexId (rest.drop 1) else return none
    | none => return none

/-! ## The sysfs reader -/

/-- `UeventData`: the pairs of a `uevent` file, the last of a key first. -/
abbrev UeventData := List (String × String)

/-- The key and the value of a line, with the blanks around them dropped. -/
def UeventData.ofLine (line : List Char) : Option (String × String) :=
  let line := trim line
  if line.isEmpty || line.head? = some '#' then none
  else if line.contains '=' then
    some (String.ofList (trim (line.takeWhile (· ≠ '='))),
      String.ofList (trim ((line.dropWhile (· ≠ '=')).drop 1)))
  else none

/-- `UeventData::parse`. -/
def UeventData.parse (content : String) : UeventData :=
  ((lines content.toList).filterMap ofLine).reverse

/-- The directory of a device in sysfs: its name, the texts of its files `modalias` and
`uevent` if they can be read, and the name of the directory that `driver` leads to. -/
structure SysfsDevice where
  name : Option String
  modalias : Option String
  uevent : Option String
  driver : Option String
deriving DecidableEq, Repr

/-- The bus type of a subsystem. -/
def BusType.ofSubsystem : String → BusType
  | "pci" => .pci
  | "usb" => .usb
  | "virtio" => .virtio
  | "i2c" => .i2c
  | "spi" => .spi
  | "sdio" => .sdio
  | subsystem => .other subsystem

/-- An id of a device: the one in its `uevent` file, or else the one in its modalias. -/
def UeventData.idOr (uevent : UeventData) (key : String) (extracted : Panics (Option String)) :
    Panics String :=
  match uevent.lookup key with
  | some id => .ok id
  | none => extracted.map (·.getD "unknown")

/-- `SysfsReader::read_device`. -/
def readDevice (unicode : String → String) (subsystem : String) (entry : SysfsDevice) :
    Panics (Option HardwareDevice) :=
  let modalias := trim (entry.modalias.getD "").toList
  let uevent := (entry.uevent.map UeventData.parse).getD []
  if modalias.isEmpty then .ok none
  else do
    let vendorId ← uevent.idOr "VENDOR_ID" (extractVendorFromModalias modalias)
    let deviceId ← uevent.idOr "DEVICE_ID" (extractDeviceFromModalias modalias)
    let hardwareId : HardwareId := {
      modalias := String.ofList modalias
      vendorId := vendorId
      deviceId := deviceId
      subsystemVendorId := uevent.lookup "SUBVENDOR_ID"
      subsystemDeviceId := uevent.lookup "SUBDEVICE_ID"
      classCode := uevent.lookup "PCI_CLASS"
      bus := subsystem
      currentDriver := entry.driver }
    match hardwareId.validate unicode with
    | .error _ => return none
    | .ok _ =>
      return some {
        hardwareId := hardwareId
        deviceName := ((uevent.lookup "DEVNAME").or
          ((uevent.lookup "DRIVER").or entry.name)).getD "Unknown Device"
        vendorName := uevent.lookup "VENDOR"
        busType := .ofSubsystem subsystem
        boundDriver := entry.driver
        operational := entry.driver.isSome
        matchedDrivers := [] }

/-- `BUS_SUBSYSTEMS`. -/
def busSubsystems : List String := ["pci", "usb", "virtio", "i2c", "spi", "sdio"]

/-- The devices under `/sys/bus/<subsystem>/devices`, none if the directory cannot be read. -/
abbrev Sysfs := String → List SysfsDevice

/-- `SysfsReader::enumerate_subsystem`, for the directory of a subsystem. -/
def enumerateSubsystem (unicode : String → String) (subsystem : String)
    (entries : List SysfsDevice) : Panics (List HardwareDevice) := do
  let devices ← entries.mapM (readDevice unicode subsystem)
  return devices.reduceOption

/-- `SysfsReader::enumerate_all`. -/
def Sysfs.enumerateAll (unicode : String → String) (sysfs : Sysfs) :
    Panics (List HardwareDevice) := do
  let devices ← busSubsystems.mapM fun subsystem =>
    enumerateSubsystem unicode subsystem (sysfs subsystem)
  return devices.flatten

/-! ## No device comes with drivers -/

variable {unicode : String → String} {subsystem : String} {device : HardwareDevice}

theorem matchedDrivers_of_readDevice {entry : SysfsDevice}
    (h : readDevice unicode subsystem entry = .ok (some device)) : device.matchedDrivers = [] := by
  unfold readDevice at h
  dsimp only at h
  split_ifs at h
  · cases h
  · obtain ⟨vendorId, -, h⟩ := bind_eq_ok_iff.mp h
    obtain ⟨deviceId, -, h⟩ := bind_eq_ok_iff.mp h
    split at h
    · cases h
    · cases h
      rfl

theorem matchedDrivers_of_enumerateSubsystem {entries : List SysfsDevice}
    {devices : List HardwareDevice}
    (h : enumerateSubsystem unicode subsystem entries = .ok devices) (hdevice : device ∈ devices) :
    device.matchedDrivers = [] := by
  obtain ⟨found, hfound, h⟩ := bind_eq_ok_iff.mp h
  cases h
  obtain ⟨entry, -, hread⟩ := exists_of_mem_mapM hfound (List.reduceOption_mem_iff.mp hdevice)
  exact matchedDrivers_of_readDevice hread

/-- The scanner fills in the matched drivers, not the enumeration. -/
theorem Sysfs.matchedDrivers_eq_nil {sysfs : Sysfs} {devices : List HardwareDevice}
    (h : sysfs.enumerateAll unicode = .ok devices) (hdevice : device ∈ devices) :
    device.matchedDrivers = [] := by
  obtain ⟨found, hfound, h⟩ := bind_eq_ok_iff.mp h
  cases h
  obtain ⟨devices, hdevices, hmem⟩ := List.mem_flatten.mp hdevice
  obtain ⟨subsystem, -, henumerate⟩ := exists_of_mem_mapM hfound hdevices
  exact matchedDrivers_of_enumerateSubsystem henumerate hmem

end MissionOs.Driverd
