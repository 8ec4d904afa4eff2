import Mathlib.Algebra.Order.Ring.Unbundled.Rat
import MissionOs.Driverd.Conflict
import MissionOs.Rust.Float

/-!
# The hardware matcher

`HardwareMatcher` of `matching.rs`: how well a driver fits a device, and the checks that
the score is made of.  A driver for another kernel or another architecture does not fit,
whatever it matches; any other driver fits from a score of one half on.
-/

namespace MissionOs.Driverd

open MissionOs.Rust

/-- What the matching code asks of the machine that it runs on: `SystemInfo::detect`, and
the lowering of the strings that are not ASCII. -/
structure Host where
  detect : SystemInfo
  unicodeLowercase : String → String

/-- `str::to_lowercase`. -/
def Host.lower (host : Host) (s : String) : String := toLowercase host.unicodeLowercase s

/-- `CompatibilityInfo::incompatible`. -/
def CompatibilityInfo.incompatible (explanation : String) (issues : List String) :
    CompatibilityInfo where
  compatible := false
  score := 0
  explanation := explanation
  issues := issues
  signatureVerified := none

/-- `KernelCheckResult`. -/
inductive KernelCheckResult where
  | compatible
  | incompatible (reason : String)
  | unknown
deriving DecidableEq, Repr

/-- `FeatureCheckResult`. -/
inductive FeatureCheckResult where
  | allPresent
  | missing (features : List String)
  | unknown
deriving DecidableEq, Repr

/-- `HardwareMatcher`. -/
structure HardwareMatcher where
  system : SystemInfo
deriving DecidableEq, Repr

namespace HardwareMatcher

variable (host : Host) (matcher : HardwareMatcher)

/-- `check_modalias_match`. -/
def checkModaliasMatch (driver : DriverEntry) (device : HardwareDevice) : Bool :=
  driver.supportedHardware.any fun pattern =>
    modaliasPatternMatch pattern device.hardwareId.modalias

/-- Whether an id, without its `0x` or its `0X`, is a part of a pattern. -/
def namesId (pattern id : String) : Bool :=
  containsText pattern (trimStartMatches id "0x") ||
    containsText pattern (trimStartMatches id "0X")

/-- `check_vendor_device_match`. -/
def checkVendorDeviceMatch (driver : DriverEntry) (device : HardwareDevice) : Bool :=
  driver.supportedHardware.any fun pattern =>
    namesId pattern device.hardwareId.vendorId && namesId pattern device.hardwareId.deviceId

/-- `check_kernel_compatibility`. -/
def checkKernelCompatibility (driver : DriverEntry) : KernelCheckResult :=
  let compat := driver.id.kernelCompat
  let kernel := matcher.system.kernelVersion
  let sysParts := versionNumbers (kernel.toList.splitOnP fun c => !c.isDigit)
  if sysParts.isEmpty then .unknown
  else if olderThan sysParts 0 (versionNumbers (compat.minVersion.toList.splitOn '.')) then
    .incompatible
      ("Kernel " ++ kernel ++ " is older than required minimum " ++ compat.minVersion)
  else
    match compat.maxVersion with
    | none => .compatible
    | some maxVersion =>
      if newerThan sysParts 0 (versionNumbers (maxVersion.toList.splitOn '.')) then
        .incompatible ("Kernel " ++ kernel ++ " is newer than required maximum " ++ maxVersion)
      else .compatible

/-- `check_architecture_match`. -/
def checkArchitectureMatch (driver : DriverEntry) : Bool :=
  let sysArch := host.lower matcher.system.architecture
  let driverArch := host.lower driver.id.arch
  sysArch = driverArch || architectureAliases.contains (sysArch, driverArch)

/-- `check_kernel_features`. -/
def checkKernelFeatures (driver : DriverEntry) : FeatureCheckResult :=
  let required := driver.id.kernelCompat.requiredFeatures
  if required.isEmpty then .allPresent
  else if matcher.system.kernelFeatures.isEmpty then .unknown
  else
    let missing := required.filter fun feat => !matcher.system.kernelFeatures.contains feat
    if missing.isEmpty then .allPresent else .missing missing

/-- The end of `evaluate_compatibility`: the score decides. -/
def conclude (driver : DriverEntry) (score : Rat) (issues : List String) : CompatibilityInfo where
  compatible := 1 / 2 ≤ score
  score := max 0 (min score 1)
  explanation :=
    if 1 / 2 ≤ score then
      "Driver '" ++ driver.id.name ++ "' is compatible with device (score: " ++
        F64.format2 score ++ ")"
    else
      "Driver '" ++ driver.id.name ++ "' is not compatible with device (score: " ++
        F64.format2 score ++ "): " ++ join "; " issues
  issues := issues
  signatureVerified := driver.compatibility.bind (·.signatureVerified)

/-- `evaluate_compatibility`. -/
def evaluateCompatibility (driver : DriverEntry) (device : HardwareDevice) :
    CompatibilityInfo :=
  let (score, issues) :=
    if checkModaliasMatch driver device then (F64.add 0 (F64.nearest (5 / 10)), [])
    else (0, ["No modalias pattern matches this device"])
  let (score, issues) :=
    if checkVendorDeviceMatch driver device then (F64.add score (F64.nearest (2 / 10)), issues)
    else (score, issues ++ ["No vendor/device ID match"])
  let withKernel (score : Rat) (issues : List String) : CompatibilityInfo :=
    if checkArchitectureMatch host matcher driver then
      let score := F64.add score (F64.nearest (1 / 10))
      match matcher.checkKernelFeatures driver with
      | .allPresent => conclude driver (F64.add score (F64.nearest (5 / 100))) issues
      | .missing features =>
        conclude driver score
          (issues ++ ["Required kernel features not enabled: " ++ join ", " features])
      | .unknown => conclude driver (F64.add score (F64.nearest (25 / 1000))) issues
    else
      .incompatible
        ("Architecture mismatch: driver requires '" ++ driver.id.arch ++ "', system is '" ++
          matcher.system.architecture ++ "'")
        (issues ++ ["Driver architecture '" ++ driver.id.arch ++ "' does not match system '" ++
          matcher.system.architecture ++ "'"])
  match matcher.checkKernelCompatibility driver with
  | .compatible => withKernel (F64.add score (F64.nearest (15 / 100))) issues
  | .incompatible reason =>
    .incompatible
      ("Kernel " ++ matcher.system.kernelVersion ++ " is incompatible with driver '" ++
        driver.id.name ++ "'")
      [reason]
  | .unknown =>
    withKernel (F64.add score (F64.nearest (5 / 100)))
      (issues ++ ["Kernel compatibility unknown — assuming partial compatibility"])

end HardwareMatcher

end MissionOs.Driverd
