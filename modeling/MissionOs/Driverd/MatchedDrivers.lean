import MissionOs.Driverd.CompatibilityFallback
import MissionOs.Driverd.Hwdetect
import MissionOs.Driverd.Rescan

/-!
# The matched drivers of the devices

`matched_drivers` of a device is the list of the names of the drivers that the matcher finds
for it.  A rescan replaces the devices by those of sysfs, which have none, so the list has to
be filled in again: the start of the daemon and the poll do so, the method `scan_hardware`
does not.

An operation changes no more than the status of a driver, which the matcher does not look at.
So the lists are right in a run exactly if no driver fits a device that a `scan_hardware` of
the run found (`matched_iff`).
-/

namespace MissionOs.Driverd

open MissionOs.Rust MissionOs.Lib

/-! ## What the matcher finds -/

namespace Host

variable (host : Host)

/-- The names of the drivers that the matcher finds for a device, the best first. -/
def matching (device : HardwareDevice) (drivers : List DriverEntry) : List String :=
  (findMatchingDrivers ((HardwareMatcher.new host).evaluateCompatibility host) device
    drivers).map (·.1.id.name)

/-- The list of every device is the one that the matcher finds. -/
def Matched (inv : DriverInventory) : Prop :=
  ∀ device ∈ inv.devices, device.matchedDrivers = host.matching device inv.drivers

variable {host} {device : HardwareDevice} {drivers : List DriverEntry}

theorem matching_eq_nil_iff :
    host.matching device drivers = [] ↔ ∀ d ∈ drivers, ¬ host.Fits d device := by
  rw [matching, List.map_eq_nil_iff, findMatchingDrivers, ← List.length_eq_zero_iff,
    List.length_mergeSort, List.length_eq_zero_iff, List.filter_eq_nil_iff, List.forall_mem_map]
  rfl

/-- How well a driver fits does not depend on its status. -/
theorem fits_status (d : DriverEntry) (device : HardwareDevice) (status : DriverStatus) :
    host.Fits { d with status := status } device ↔ host.Fits d device := Iff.rfl

/-- Of a driver, the matcher looks at the name and at how well it fits. -/
theorem matching_eq (host : Host) (device : HardwareDevice) (drivers : List DriverEntry) :
    host.matching device drivers =
      (((drivers.map fun d =>
          (d.id.name, (HardwareMatcher.new host).evaluateCompatibility host d device)).filter
        (·.2.compatible)).mergeSort fun a b => b.2.score ≤ a.2.score).map (·.1) := by
  let named : DriverEntry × CompatibilityInfo → String × CompatibilityInfo :=
    fun found => (found.1.id.name, found.2)
  have hsort : ∀ found : List (DriverEntry × CompatibilityInfo),
      (found.mergeSort fun a b => b.2.score ≤ a.2.score).map (·.1.id.name) =
        ((found.map named).mergeSort fun a b => b.2.score ≤ a.2.score).map (·.1) := by
    intro found
    rw [← List.map_mergeSort (f := named) (r := fun a b => b.2.score ≤ a.2.score)
      fun _ _ _ _ => rfl, List.map_map]
    rfl
  have hnamed : (drivers.map fun d =>
        (d.id.name, (HardwareMatcher.new host).evaluateCompatibility host d device)) =
      (drivers.map fun d =>
        (d, (HardwareMatcher.new host).evaluateCompatibility host d device)).map named := by
    rw [List.map_map]
    rfl
  rw [matching, findMatchingDrivers, hsort, hnamed, List.filter_map (f := named)]
  rfl

/-- The status of a driver makes no difference. -/
theorem matching_status (pre post : List DriverEntry) (d : DriverEntry) (status : DriverStatus) :
    host.matching device (pre ++ { d with status := status } :: post) =
      host.matching device (pre ++ d :: post) := by
  rw [matching_eq, matching_eq, List.map_append, List.map_append, List.map_cons, List.map_cons]
  rfl

/-- `match_drivers_to_hardware` fills in the lists. -/
theorem matched_matchDriversToHardware (host : Host) (inv : DriverInventory) :
    host.Matched (matchDriversToHardware
      ((HardwareMatcher.new host).evaluateCompatibility host) inv) := by
  intro device hdevice
  obtain ⟨before, -, rfl⟩ := List.mem_map.mp hdevice
  rfl

end Host

/-! ## Turns -/

/-- An enumeration of the devices of sysfs that ends.  One that panics leaves a lock that
nobody can take any more, so no turn is made of it. -/
structure Detection (host : Host) where
  sysfs : Sysfs
  devices : List HardwareDevice
  enumerated : sysfs.enumerateAll host.unicodeLowercase = .ok devices

variable {host : Host}

/-- The outside world with the devices of a detection. -/
def Detection.env (detection : Detection host) (env : Env) : Env :=
  { env with enumerateAll := .ok detection.devices }

/-- A turn, with what is detected where it rescans. -/
inductive DetectTurn (host : Host) where
  | operation (env : Env) (op : Operation)
  | scanHardware (env : Env) (detection : Detection host)
  | pollHardware (env : Env) (detection : Detection host)
  | outside (kernel : Kernel) (moduleDirs : ModuleDirs) (fs : FileSystem)

namespace DetectTurn

def turn : DetectTurn host → Turn
  | operation env op => .operation env op
  | scanHardware env detection => .scanHardware (detection.env env)
  | pollHardware env detection => .pollHardware (detection.env env)
  | outside kernel moduleDirs fs => .outside kernel moduleDirs fs

/-- If the turn is a `scan_hardware`, no built-in driver fits a device that it finds. -/
def FitsNone : DetectTurn host → Prop
  | scanHardware _ detection =>
    ∀ device ∈ detection.devices, ∀ d ∈ builtinDrivers [], ¬ host.Fits d device
  | _ => True

end DetectTurn

namespace AppState

variable (state : AppState)

/-- The world after a turn. -/
def detectTurn (turn : DetectTurn host) (w : World) : World :=
  (state.onHost host).turn turn.turn w

/-- The daemon when it starts: an empty inventory, and with `auto_detect_on_start` the two
calls that the poll makes, too. -/
def started (autoDetect : Option (Env × Detection host)) (sequence : UInt64) (kernel : Kernel)
    (moduleDirs : ModuleDirs) (fs : FileSystem) : World :=
  let w := World.boot ⟨[], [], 0⟩ sequence kernel moduleDirs fs
  match autoDetect with
  | none => w
  | some (env, detection) => state.detectTurn (.pollHardware env detection) w

variable {state} {w : World}

/-- Whether a built-in driver fits does not depend on the loaded modules. -/
theorem forall_not_fits_builtin_iff (loaded : List String) (device : HardwareDevice) :
    (∀ d ∈ builtinDrivers loaded, ¬ host.Fits d device) ↔
      ∀ d ∈ builtinDrivers [], ¬ host.Fits d device := by
  have htree : ∀ name features description status,
      host.Fits (inTreeDriver name features description status) device ↔
        host.Fits (inTreeDriver name features description .available) device :=
    fun name features description status =>
      Host.fits_status (inTreeDriver name features description .available) device status
  simp only [builtinDrivers, List.forall_mem_cons, e1000eDriver, iwlwifiDriver]
  rw [htree _ _ _ (inTreeStatus loaded _), htree _ _ _ (inTreeStatus loaded _),
    htree _ _ _ (inTreeStatus [] _), htree _ _ _ (inTreeStatus [] _)]

/-- The devices that are enumerated have no lists, so these are right where no driver fits. -/
theorem matched_scanHardware_iff (env : Env) (detection : Detection host) (w : World) :
    host.Matched (state.detectTurn (.scanHardware env detection) w).inventory ↔
      (DetectTurn.scanHardware env detection).FitsNone := by
  have hscan := scanSystem_wp (detection.env env) w.fresh
  rw [wp_def] at hscan
  have hinv : (state.detectTurn (.scanHardware env detection) w).inventory =
      scannedInventory (detection.env env) w.fresh := by
    show ((scanSystem (detection.env env)).run w.fresh).2.inventory = _
    rw [hscan.2]
  rw [hinv]
  refine forall₂_congr fun device hdevice => ?_
  have hnone : device.matchedDrivers = [] :=
    Sysfs.matchedDrivers_eq_nil detection.enumerated hdevice
  rw [hnone, eq_comm, Host.matching_eq_nil_iff]
  exact forall_not_fits_builtin_iff _ device

theorem matched_pollHardware (env : Env) (detection : Detection host) (w : World) :
    host.Matched (state.detectTurn (.pollHardware env detection) w).inventory := by
  have hpoll : wp (pollHardware (detection.env env) (state.onHost host).evaluateCompatibility)
      (fun _ w' => host.Matched w'.inventory) w.fresh := by
    refine wp_bind_of (scanSystem_wp (detection.env env) w.fresh) fun _ w₁ _ => ?_
    exact Host.matched_matchDriversToHardware host w₁.inventory
  exact hpoll

/-- An operation leaves the lists right. -/
theorem matched_operation (env : Env) (op : Operation) (htracker : w.tracker = .new)
    (h : host.Matched w.inventory) :
    host.Matched (state.detectTurn (.operation env op : DetectTurn host) w).inventory := by
  have hdone := (state.onHost host).executionEngine.performed_of_tracker env op htracker
  show host.Matched ((state.onHost host).executionEngine.next (.call env op) w).inventory
  rcases inventory_of_performed hdone with
    ⟨-, pre, d, post, stamp, hsplit, -, -, hinv⟩ | ⟨-, hinv⟩
  · rw [hinv]
    intro device hdevice
    rw [Host.matching_status, ← hsplit]
    exact h device hdevice
  · rw [hinv]
    exact h

theorem detectTurn_tracker (turn : DetectTurn host) (htracker : w.tracker = .new) :
    (state.detectTurn turn w).tracker = .new := by
  cases turn with
  | operation env op =>
      exact (state.onHost host).executionEngine.next_tracker (.call env op) htracker
  | scanHardware env detection => exact ((state.onHost host).turn_rescan rfl w).2.trans htracker
  | pollHardware env detection => exact ((state.onHost host).turn_rescan rfl w).2.trans htracker
  | outside kernel moduleDirs fs => exact htracker

/-- A turn leaves the lists right exactly if it is no `scan_hardware`, or one that finds no
device that a driver fits. -/
theorem matched_detectTurn_iff (turn : DetectTurn host) (htracker : w.tracker = .new)
    (h : host.Matched w.inventory) :
    host.Matched (state.detectTurn turn w).inventory ↔ turn.FitsNone := by
  cases turn with
  | operation env op => exact iff_of_true (matched_operation env op htracker h) trivial
  | scanHardware env detection => exact matched_scanHardware_iff env detection w
  | pollHardware env detection => exact iff_of_true (matched_pollHardware env detection w) trivial
  | outside kernel moduleDirs fs => exact iff_of_true h trivial

section Started

variable (autoDetect : Option (Env × Detection host)) (sequence : UInt64) (kernel : Kernel)
  (moduleDirs : ModuleDirs) (fs : FileSystem)

theorem started_tracker :
    (state.started autoDetect sequence kernel moduleDirs fs).tracker = .new := by
  cases autoDetect with
  | none => rfl
  | some detected => exact detectTurn_tracker _ rfl

theorem matched_started :
    host.Matched (state.started autoDetect sequence kernel moduleDirs fs).inventory := by
  cases autoDetect with
  | none =>
      intro device hdevice
      cases hdevice
  | some detected => exact matched_pollHardware detected.1 detected.2 _

variable (state) in
/-- In every state of a run the lists are right. -/
def AlwaysMatched (turns : List (DetectTurn host)) : Prop :=
  host.Matched (state.started autoDetect sequence kernel moduleDirs fs).inventory ∧
    ∀ t ∈ transitions state.detectTurn
      (state.started autoDetect sequence kernel moduleDirs fs) turns,
      host.Matched t.after.inventory

/-- The lists are always right exactly in the runs in which no built-in driver fits a device
that a `scan_hardware` finds. -/
theorem alwaysMatched_iff (state : AppState) (turns : List (DetectTurn host)) :
    state.AlwaysMatched autoDetect sequence kernel moduleDirs fs turns ↔
      ∀ turn ∈ turns, turn.FitsNone := by
  have hstart : host.Matched
      (state.started autoDetect sequence kernel moduleDirs fs).inventory :=
    matched_started autoDetect sequence kernel moduleDirs fs
  have htracker : (state.started autoDetect sequence kernel moduleDirs fs).tracker = .new :=
    started_tracker autoDetect sequence kernel moduleDirs fs
  unfold AlwaysMatched
  rw [and_iff_right hstart]
  refine Iff.trans ?_ (forall_input_iff state.detectTurn
    (state.started autoDetect sequence kernel moduleDirs fs) turns)
  refine transitions_iff (A := fun _ => True)
    (C := fun _ (turn : DetectTurn host) => turn.FitsNone)
    (P := fun _ _ (w' : World) => host.Matched w'.inventory)
    (I := fun w : World => w.tracker = .new ∧ host.Matched w.inventory)
    ?_ ?_ ⟨htracker, hstart⟩ fun _ _ => trivial
  · intro w turn hw _
    exact matched_detectTurn_iff turn hw.1 hw.2
  · intro w turn hw _ hmatched
    exact ⟨detectTurn_tracker turn hw.1, hmatched⟩

end Started

end AppState

/-- What sysfs lists on a machine with an Ethernet controller. -/
def ethernetSysfs : Sysfs := fun subsystem =>
  if subsystem = "pci" then
    [⟨some "0000:00:1f.6", some "pci:v00008086d0000A0C8sv00000000sd00000000bc02sc00i00\n",
      some "DRIVER=e1000e\n", some "e1000e"⟩]
  else []

/-- The Ethernet controller, with its driver bound. -/
def boundController : HardwareDevice :=
  { ethernetController with
    hardwareId := { ethernetController.hardwareId with currentDriver := some "e1000e" }
    deviceName := "e1000e"
    boundDriver := some "e1000e"
    operational := true }

/-- A scan that finds it. -/
def ethernetDetection : Detection recentHost where
  sysfs := ethernetSysfs
  devices := [boundController]
  enumerated := by decide

/-- After a `scan_hardware`, the Ethernet controller has no matched driver, though `e1000e`
fits it. -/
theorem scan_clears_matched_drivers :
    ¬ ∀ (host : Host) (state : AppState) (autoDetect : Option (Env × Detection host))
      (sequence : UInt64) (kernel : Kernel) (moduleDirs : ModuleDirs) (fs : FileSystem)
      (turns : List (DetectTurn host)),
      state.AlwaysMatched autoDetect sequence kernel moduleDirs fs turns := by
  intro h
  have hscan := (h recentHost .strict none 0 (.ofNames []) inTreeModules .empty
    [.scanHardware .smooth ethernetDetection]).2 _ List.mem_cons_self
  rw [AppState.matched_scanHardware_iff] at hscan
  have hfits : recentHost.Fits (e1000eDriver .available) boundController := by
    unfold Host.Fits
    decide +kernel
  exact hscan boundController List.mem_cons_self _ List.mem_cons_self hfits

end MissionOs.Driverd
