import MissionOs.Driverd.CompatibilityJudges
import MissionOs.Driverd.Dbus

/-!
# The stored record of compatibility

`check_compatibility` asks the matcher about each detected device.  If the driver fits none of
them, the answer is the record that is stored with the driver, as it stands.

`answersFit_iff` says when no answer calls a driver compatible that is not.
-/

namespace MissionOs.Driverd

open MissionOs.Rust MissionOs.Lib

/-- `HardwareMatcher::new`. -/
def HardwareMatcher.new (host : Host) : HardwareMatcher := ⟨host.detect⟩

/-- The service with the matcher of the machine that it runs on. -/
def AppState.onHost (state : AppState) (host : Host) : AppState :=
  { state with evaluateCompatibility := (HardwareMatcher.new host).evaluateCompatibility host }

namespace Host

variable (host : Host) (driver : DriverEntry)

/-- The running kernel is in the range of the driver, and the architectures are the same. -/
structure Runs : Prop where
  kernel : kernelInRange host.detect.kernelNumbers driver.id.kernelCompat = true
  architecture : usualArchitecture (host.lower host.detect.architecture) =
    usualArchitecture (host.lower driver.id.arch)

/-- The driver is compatible with a device. -/
def Fits (device : HardwareDevice) : Prop :=
  ((HardwareMatcher.new host).evaluateCompatibility host driver device).compatible = true

variable {host driver}

/-- A driver that fits a device runs on the machine. -/
theorem runs_of_fits {device : HardwareDevice} (h : host.Fits driver device) :
    host.Runs driver := by
  obtain ⟨hkernel, harch⟩ := accepts_of_compatible host h
  constructor
  · rw [← matcher_accepts_kernel]
    exact hkernel
  · exact (matcher_accepts_architecture host host.detect driver).mp harch

end Host

namespace AppState

variable {host : Host} {state : AppState} {inv : DriverInventory} {driverName provider : String}
  {driver : DriverEntry} {compat : CompatibilityInfo}

/-- Where an answer comes from: from a device that the driver fits, or from its record. -/
theorem compatibilityOf_cases (hfound : inv.findDriver driverName provider = some driver)
    (h : (state.onHost host).compatibilityOf inv driverName provider = .ok compat) :
    (∃ device ∈ inv.devices, host.Fits driver device) ∨
      (∀ device ∈ inv.devices, ¬ host.Fits driver device) ∧
        (compat.compatible = true → driver.compatibility = some compat) := by
  simp only [compatibilityOf, hfound] at h
  split at h
  · rename_i evaluated hfind
    left
    obtain ⟨device, hdevice, rfl⟩ := List.mem_map.mp (List.mem_of_find?_eq_some hfind)
    exact ⟨device, hdevice, List.find?_some hfind⟩
  · rename_i hnone
    right
    constructor
    · intro device hdevice hfits
      exact absurd hfits (List.find?_eq_none.mp hnone _ (List.mem_map_of_mem hdevice))
    · intro hcompatible
      cases hrecord : driver.compatibility with
      | some record =>
          rw [hrecord] at h
          cases h
          rfl
      | none =>
          rw [hrecord] at h
          cases h
          cases hcompatible

/-- A driver that fits no device is answered with its record. -/
theorem compatibilityOf_of_not_fits (hfound : inv.findDriver driverName provider = some driver)
    (hfits : ∀ device ∈ inv.devices, ¬ host.Fits driver device)
    (hrecord : driver.compatibility = some compat) :
    (state.onHost host).compatibilityOf inv driverName provider = .ok compat := by
  have hnone : (inv.devices.map ((state.onHost host).evaluateCompatibility driver)).find?
      (·.compatible) = none := by
    rw [List.find?_eq_none]
    intro evaluated hmem
    obtain ⟨device, hdevice, rfl⟩ := List.mem_map.mp hmem
    exact hfits device hdevice
  simp only [compatibilityOf, hfound, hnone, hrecord, Option.getD_some]

variable (host state inv driverName provider) in
/-- A driver that is called compatible runs on the machine, and fits one of the devices if there
are any. -/
def AnswersFit : Prop :=
  ∀ driver compat, inv.findDriver driverName provider = some driver →
    (state.onHost host).compatibilityOf inv driverName provider = .ok compat →
    compat.compatible = true →
    host.Runs driver ∧ (inv.devices ≠ [] → ∃ device ∈ inv.devices, host.Fits driver device)

/-- No answer calls a driver compatible that is not exactly if the record of a driver that fits
no device says compatible only where there are no devices and the driver runs. -/
theorem answersFit_iff (host : Host) (state : AppState) (inv : DriverInventory)
    (driverName provider : String) :
    AnswersFit host state inv driverName provider ↔
      ∀ driver record, inv.findDriver driverName provider = some driver →
        (∀ device ∈ inv.devices, ¬ host.Fits driver device) →
        driver.compatibility = some record → record.compatible = true →
        inv.devices = [] ∧ host.Runs driver := by
  constructor
  · intro h driver record hfound hfits hrecord hcompatible
    obtain ⟨hruns, hdevice⟩ := h driver record hfound
      (compatibilityOf_of_not_fits hfound hfits hrecord) hcompatible
    refine ⟨?_, hruns⟩
    by_contra hne
    obtain ⟨device, hmem, hfit⟩ := hdevice hne
    exact hfits device hmem hfit
  · intro h driver compat hfound hanswer hcompatible
    rcases compatibilityOf_cases hfound hanswer with ⟨device, hmem, hfit⟩ | ⟨hfits, hrecord⟩
    · exact ⟨Host.runs_of_fits hfit, fun _ => ⟨device, hmem, hfit⟩⟩
    · obtain ⟨hnone, hruns⟩ := h driver compat hfound hfits (hrecord hcompatible) hcompatible
      exact ⟨hruns, fun hne => absurd hnone hne⟩

/-- On a machine with kernel 6.12.0 and an Ethernet controller, the built-in entry of `nvidia`, of
which the range ends at 6.8.0, is called compatible. -/
theorem nvidia_called_compatible :
    ¬ ∀ (host : Host) (state : AppState) (inv : DriverInventory) (driverName provider : String),
      AnswersFit host state inv driverName provider := by
  intro h
  let host : Host := ⟨⟨"6.12.0", "x86_64", []⟩, id⟩
  have hexcluded : ¬ host.Runs nvidiaDriver := by
    intro hruns
    have hkernel := hruns.kernel
    revert hkernel
    decide
  have hfits : ∀ device ∈ [ethernetController], ¬ host.Fits nvidiaDriver device :=
    fun _ _ hfit => hexcluded (Host.runs_of_fits hfit)
  let inv : DriverInventory := ⟨[nvidiaDriver], [ethernetController], 0⟩
  have hfound : inv.findDriver "nvidia" "nvidia" = some nvidiaDriver := by decide
  exact hexcluded (h host .strict inv "nvidia" "nvidia" nvidiaDriver _ hfound
    (compatibilityOf_of_not_fits hfound hfits rfl) rfl).1

end AppState

end MissionOs.Driverd
