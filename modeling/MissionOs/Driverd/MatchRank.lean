import MissionOs.Driverd.CompatibilityJudges
import MissionOs.Driverd.Scanner
import Mathlib.Data.Prod.Lex
import Mathlib.Order.Fin.Basic

/-!
# What the score of a driver means

The matcher adds up five weights in floating point, calls a driver compatible from a score of one
half on, and sorts the compatible drivers by their scores.  Here is what comes of it without the
numbers: a driver is compatible exactly if a pattern of it matches the device and its kernel range
and its architecture admit the system.  The vendor and device ids, and the required kernel
features, never decide that; together they miss one half by a rounding error.  They rank the
compatible drivers, lexicographically (`drivers_ranked`).
-/

namespace MissionOs.Driverd

open MissionOs.Rust

/-! ## The sum -/

/-- How the kernel features of a driver count: missing, unknown, all present. -/
def FeatureCheckResult.level : FeatureCheckResult → Fin 3
  | missing _ => 0
  | unknown => 1
  | allPresent => 2

/-- The score, by the outcomes of the checks. -/
def total (modalias ids kernelKnown : Bool) (features : Fin 3) : Rat :=
  let score := if modalias then F64.add 0 (F64.nearest (5 / 10)) else 0
  let score := if ids then F64.add score (F64.nearest (2 / 10)) else score
  let score :=
    F64.add score (if kernelKnown then F64.nearest (15 / 100) else F64.nearest (5 / 100))
  let score := F64.add score (F64.nearest (1 / 10))
  match features with
  | 0 => score
  | 1 => F64.add score (F64.nearest (25 / 1000))
  | 2 => F64.add score (F64.nearest (5 / 100))

/-- The order of the compatible drivers: by the ids, then by whether the version of the kernel
could be read, then by the kernel features. -/
abbrev Rank := Bool ×ₗ Bool ×ₗ Fin 3

/-- The sum passes one half exactly if the pattern matches. -/
theorem half_le_total_iff : ∀ (modalias ids kernelKnown : Bool) (features : Fin 3),
    1 / 2 ≤ total modalias ids kernelKnown features ↔ modalias = true := by
  decide +kernel

/-- The ids, the kernel and the features would make one half, but for the rounding. -/
example : total false true true 2 = 1 / 2 - 1 / 2 ^ 54 := by decide +kernel

/-- The score as it is stored, which is between zero and one. -/
def clamped (score : Rat) : Rat := max 0 (min score 1)

/-- Of two sums with a pattern that matches, the larger one has the larger rank. -/
theorem clamped_le_clamped_iff : ∀ (ids known ids' known' : Bool) (features features' : Fin 3),
    clamped (total true ids known features) ≤ clamped (total true ids' known' features') ↔
      (toLex (ids, toLex (known, features)) : Rank) ≤ toLex (ids', toLex (known', features')) := by
  decide +kernel

/-! ## The verdict -/

/-- The version of the kernel could be read, and is in the range. -/
def KernelCheckResult.isKnown : KernelCheckResult → Bool
  | compatible => true
  | incompatible _ => false
  | unknown => false

namespace HardwareMatcher

variable (host : Host) (matcher : HardwareMatcher) (driver : DriverEntry)
  (device : HardwareDevice)

/-- The checks that decide. -/
def admits : Bool :=
  checkModaliasMatch driver device && (matcher.checkKernelCompatibility driver).accepts &&
    matcher.checkArchitectureMatch host driver

/-- The checks that do not. -/
def rank : Rank :=
  toLex (checkVendorDeviceMatch driver device,
    toLex ((matcher.checkKernelCompatibility driver).isKnown,
      (matcher.checkKernelFeatures driver).level))

/-- The score that the checks add up to. -/
def scoreOf : Rat :=
  total (checkModaliasMatch driver device) (checkVendorDeviceMatch driver device)
    (matcher.checkKernelCompatibility driver).isKnown (matcher.checkKernelFeatures driver).level

variable {host matcher driver device}

/-- The score decides and is stored, where the kernel and the architecture do not decide. -/
theorem evaluateCompatibility_of_accepts (device : HardwareDevice)
    (hkernel : (matcher.checkKernelCompatibility driver).accepts = true)
    (harch : matcher.checkArchitectureMatch host driver = true) :
    ∃ issues, matcher.evaluateCompatibility host driver device =
      conclude driver (matcher.scoreOf driver device) issues := by
  rw [evaluateCompatibility, scoreOf, harch]
  cases hk : matcher.checkKernelCompatibility driver with
  | incompatible reason =>
      rw [hk] at hkernel
      cases hkernel
  | compatible =>
      cases checkModaliasMatch driver device <;> cases checkVendorDeviceMatch driver device <;>
        cases matcher.checkKernelFeatures driver <;> exact ⟨_, rfl⟩
  | unknown =>
      cases checkModaliasMatch driver device <;> cases checkVendorDeviceMatch driver device <;>
        cases matcher.checkKernelFeatures driver <;> exact ⟨_, rfl⟩

/-- A driver is compatible exactly if the checks that decide pass. -/
theorem compatible_iff_admits :
    (matcher.evaluateCompatibility host driver device).compatible = true ↔
      matcher.admits host driver device = true := by
  rw [admits, Bool.and_eq_true, Bool.and_eq_true]
  constructor
  · intro h
    obtain ⟨hkernel, harch⟩ := accepts_of_compatible host h
    obtain ⟨issues, heval⟩ := evaluateCompatibility_of_accepts device hkernel harch
    rw [heval, conclude, decide_eq_true_eq, scoreOf, half_le_total_iff] at h
    exact ⟨⟨h, hkernel⟩, harch⟩
  · rintro ⟨⟨hmodalias, hkernel⟩, harch⟩
    obtain ⟨issues, heval⟩ := evaluateCompatibility_of_accepts device hkernel harch
    rw [heval, conclude, decide_eq_true_eq, scoreOf, half_le_total_iff]
    exact hmodalias

/-- Among compatible drivers the scores are ordered as the ranks are. -/
theorem score_le_score_iff {driver driver' : DriverEntry}
    (h : matcher.admits host driver device = true)
    (h' : matcher.admits host driver' device = true) :
    (matcher.evaluateCompatibility host driver device).score ≤
        (matcher.evaluateCompatibility host driver' device).score ↔
      matcher.rank driver device ≤ matcher.rank driver' device := by
  rw [admits, Bool.and_eq_true, Bool.and_eq_true] at h h'
  obtain ⟨issues, heval⟩ := evaluateCompatibility_of_accepts device h.1.2 h.2
  obtain ⟨issues', heval'⟩ := evaluateCompatibility_of_accepts device h'.1.2 h'.2
  rw [heval, heval', conclude, conclude, scoreOf, scoreOf, h.1.1, h'.1.1]
  exact clamped_le_clamped_iff _ _ _ _ _ _

end HardwareMatcher

/-! ## The list -/

/-- The drivers in the order in which they are recommended for a device: those that its checks
admit, with the higher rank first and drivers of one rank in the order in which they stand. -/
def HardwareMatcher.ranked (host : Host) (matcher : HardwareMatcher) (device : HardwareDevice)
    (drivers : List DriverEntry) : List DriverEntry :=
  (drivers.filter fun driver => matcher.admits host driver device).mergeSort
    fun a b => matcher.rank b device ≤ matcher.rank a device

theorem findMatchingDrivers_ranked (host : Host) (matcher : HardwareMatcher)
    (device : HardwareDevice) (drivers : List DriverEntry) :
    (findMatchingDrivers (matcher.evaluateCompatibility host) device drivers).map (·.1) =
      matcher.ranked host device drivers := by
  have hfilter : (drivers.map fun driver =>
        (driver, matcher.evaluateCompatibility host driver device)).filter (·.2.compatible) =
      (drivers.filter fun driver => matcher.admits host driver device).map fun driver =>
        (driver, matcher.evaluateCompatibility host driver device) := by
    rw [List.filter_map]
    congr 1
    apply List.filter_congr
    intro driver _
    rw [Bool.eq_iff_iff]
    exact HardwareMatcher.compatible_iff_admits
  rw [findMatchingDrivers, hfilter, HardwareMatcher.ranked]
  rw [List.map_mergeSort (s := fun a b => matcher.rank b device ≤ matcher.rank a device)]
  · rw [List.map_map]
    exact congrArg (List.mergeSort · _) (List.map_id _)
  · intro a ha b hb
    obtain ⟨driver, hdriver, rfl⟩ := List.mem_map.mp ha
    obtain ⟨driver', hdriver', rfl⟩ := List.mem_map.mp hb
    rw [decide_eq_decide]
    exact HardwareMatcher.score_le_score_iff (List.mem_filter.mp hdriver').2
      (List.mem_filter.mp hdriver).2

/-- A driver is called compatible with a device exactly if a pattern of it matches, its kernel
range does not exclude the system and its architecture is that of the system.  The drivers that an
inventory recommends for its devices are these, by their ranks. -/
theorem drivers_ranked (host : Host) (matcher : HardwareMatcher) (inv : DriverInventory) :
    (∀ driver device, (matcher.evaluateCompatibility host driver device).compatible = true ↔
      HardwareMatcher.checkModaliasMatch driver device = true ∧
        (matcher.checkKernelCompatibility driver).accepts = true ∧
        matcher.checkArchitectureMatch host driver = true) ∧
      (matchDriversToHardware (matcher.evaluateCompatibility host) inv).devices =
        inv.devices.map fun device =>
          { device with
            matchedDrivers := (matcher.ranked host device inv.drivers).map (·.id.name) } := by
  constructor
  · intro driver device
    rw [HardwareMatcher.compatible_iff_admits, HardwareMatcher.admits, Bool.and_eq_true,
      Bool.and_eq_true, and_assoc]
  · rw [matchDriversToHardware]
    apply List.map_congr_left
    intro device _
    rw [← findMatchingDrivers_ranked, List.map_map]
    rfl

end MissionOs.Driverd
