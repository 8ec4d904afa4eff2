import MissionOs.Driverd.OperationChecks
import MissionOs.Driverd.Selection

/-!
# The two downgrade guards

`update_driver` refuses a target version below the one that is installed.  `check_update` reports a
downgrade also for the version itself.

`guardsAgree_iff` says that this is the only difference.
-/

namespace MissionOs.Driverd

open MissionOs.Rust MissionOs.Lib

/-! ## The comparisons -/

namespace DriverVersion

/-- `>=` and `>` differ on equal versions only. -/
theorem gt_iff_ge_iff (a b : DriverVersion) : (a.gt b = true ↔ a.ge b = true) ↔ b ≠ a := by
  have hsame : a.cmp b = .eq ↔ b = a := DriverSelector.cmp_eq_iff.trans eq_comm
  rw [ne_eq, ← hsame, gt, ge]
  cases a.cmp b <;> simp

end DriverVersion

/-! ## The check of an update -/

namespace ConflictDetector

variable (detector : ConflictDetector)

/-- `check_update` reports that an update is a downgrade. -/
def ReportsDowngrade (currentDriver newDriver : DriverEntry) (inventoryDrivers : List DriverEntry)
    (loadedModules : List String) (hardware : List HardwareDevice) : Prop :=
  (detector.checkUpdate currentDriver newDriver inventoryDrivers loadedModules hardware).Reports
    .invalidPackage

/-- The check of an installation says nothing about downgrades. -/
theorem not_reports_checkInstall (driver : DriverEntry) (inventoryDrivers : List DriverEntry)
    (loadedModules : List String) (hardware : List HardwareDevice) :
    ¬ (detector.checkInstall driver inventoryDrivers loadedModules hardware).Reports
      .invalidPackage := by
  have hsingle : ∀ t message details, t ≠ ConflictType.invalidPackage →
      ¬ (ConflictResult.single ⟨t, message, details⟩).Reports .invalidPackage := by
    intro t message details ht
    rw [ConflictResult.reports_single_iff]
    exact ht
  have hnone := ConflictResult.not_reports_none .invalidPackage
  have hkernel : ¬ (detector.checkKernel driver).Reports .invalidPackage := by
    simp only [checkKernel]
    repeat' split
    all_goals first | exact hnone | exact hsingle _ _ _ (by decide)
  have harch : ¬ (detector.checkArchitecture driver).Reports .invalidPackage := by
    simp only [checkArchitecture]
    split_ifs
    · exact hnone
    · exact hsingle _ _ _ (by decide)
  have hdup : ¬ (checkDuplicate driver inventoryDrivers).Reports .invalidPackage := by
    simp only [checkDuplicate]
    repeat' split
    all_goals first | exact hnone | exact hsingle _ _ _ (by decide)
  have hclash : ¬ (detector.checkConflictingModules driver loadedModules).Reports
      .invalidPackage := by
    simp only [checkConflictingModules]
    repeat' split
    all_goals first | exact hnone | exact hsingle _ _ _ (by decide)
  have hhardware : ¬ (checkHardware driver hardware).Reports .invalidPackage := by
    simp only [checkHardware]
    split_ifs <;> exact hnone
  intro h
  rcases ConflictResult.reports_of_merge h with h | h
  · rcases ConflictResult.reports_of_merge h with h | h
    · rcases ConflictResult.reports_of_merge h with h | h
      · rcases ConflictResult.reports_of_merge h with h | h
        · rcases ConflictResult.reports_of_merge h with h | h
          · exact hnone h
          · exact hkernel h
        · exact harch h
      · exact hdup h
    · exact hclash h
  · exact hhardware h

/-- A downgrade is reported for every version up to the current one. -/
theorem reportsDowngrade_iff {currentDriver newDriver : DriverEntry}
    {inventoryDrivers : List DriverEntry} {loadedModules : List String}
    {hardware : List HardwareDevice} :
    detector.ReportsDowngrade currentDriver newDriver inventoryDrivers loadedModules hardware ↔
      currentDriver.id.version.ge newDriver.id.version = true := by
  have hinstall : ¬ (ConflictResult.none.merge (detector.checkInstall newDriver inventoryDrivers
      loadedModules hardware)).Reports .invalidPackage := by
    intro h
    rcases ConflictResult.reports_of_merge h with h | h
    · exact ConflictResult.not_reports_none _ h
    · exact detector.not_reports_checkInstall _ _ _ _ h
  unfold ReportsDowngrade checkUpdate
  dsimp only
  split_ifs with hge
  · exact iff_of_true (ConflictResult.reports_add_iff.mpr (Or.inr rfl)) hge
  · exact iff_of_false hinstall hge

end ConflictDetector

/-! ## The guard of an update -/

namespace DriverExecutionEngine

variable (engine : DriverExecutionEngine) (env : Env) (request : UpdateRequest) (caller : String)
  (w : World)

/-- An update is refused as a downgrade. -/
def RefusesVersion : Prop :=
  (engine.result env (.update request caller) w).status = .failed ∧
    (engine.result env (.update request caller) w).message = "Downgrade rejected"

/-- A call reaches the guard, for the driver `currentDriver`, with a target that reads as `v` and
without leave to downgrade. -/
structure ReachesGuard (currentDriver : DriverEntry) (v : DriverVersion) : Prop where
  granted : engine.GrantsNext env w.fresh .updateDriver caller
  valid : request.validate = .ok ()
  found : w.inventory.findNamed request.driverName = some currentDriver
  target : ∃ text, request.targetVersion = some text ∧ DriverVersion.parse text = .ok v
  strict : request.allowDowngrade = false

variable {engine env request caller w} {currentDriver : DriverEntry} {v : DriverVersion}

/-- Of a call that reaches the guard the guard decides. -/
theorem updateVerdict_of_reachesGuard
    (h : engine.ReachesGuard env request caller w currentDriver v) :
    engine.updateVerdict env request caller w.fresh =
      downgradeVerdict request currentDriver := by
  have hstart : engine.startVerdict env w.fresh .updateDriver "Update not authorized"
      "Invalid update request" request.driverName caller request.validate = .ok () :=
    (engine.startVerdict_ok_iff env).mpr ⟨h.granted, h.valid⟩
  have hfound : w.fresh.inventory.findNamed request.driverName = some currentDriver := h.found
  unfold updateVerdict
  rw [hstart, hfound]

/-- A target is refused exactly if it is below the installed version. -/
theorem refusesVersion_iff (h : engine.ReachesGuard env request caller w currentDriver v) :
    engine.RefusesVersion env request caller w ↔ currentDriver.id.version.gt v = true := by
  obtain ⟨text, htarget, hparse⟩ := h.target
  have hother : "Update failed and was rolled back" ≠ "Downgrade rejected" := by decide
  have hspec : wp (engine.updateDriver env request caller)
      (fun r _ => r.status = .failed ∧ r.message = "Downgrade rejected" ↔
        currentDriver.id.version.gt v = true) w.fresh := by
    refine wp_bind_of (engine.updateChecks_verdict env request caller w.fresh) ?_
    intro _ w₁ hpost
    obtain ⟨rfl, -⟩ := hpost
    rw [updateVerdict_of_reachesGuard h]
    simp only [downgradeVerdict, htarget, hparse, h.strict, Bool.not_false, Bool.and_true]
    by_cases hgt : currentDriver.id.version.gt v = true
    · rw [if_pos hgt]
      exact iff_of_true ⟨rfl, rfl⟩ hgt
    · rw [if_neg hgt]
      refine wp_mono (engine.transact_result env) ?_
      intro r w' hpost
      rcases hpost with rfl | ⟨error, rfl⟩
      · exact iff_of_false (fun hr => nomatch hr.1) hgt
      · exact iff_of_false (fun hr => hother hr.2) hgt
  exact hspec

end DriverExecutionEngine

/-- The guards agree about a target exactly if it is not the installed version. -/
theorem guardsAgree_iff (engine : DriverExecutionEngine) (env : Env) (request : UpdateRequest)
    (caller : String) (w : World) (currentDriver newDriver : DriverEntry)
    (h : engine.ReachesGuard env request caller w currentDriver newDriver.id.version)
    (detector : ConflictDetector) (inventoryDrivers : List DriverEntry)
    (loadedModules : List String) (hardware : List HardwareDevice) :
    (engine.RefusesVersion env request caller w ↔
      detector.ReportsDowngrade currentDriver newDriver inventoryDrivers loadedModules
        hardware) ↔ newDriver.id.version ≠ currentDriver.id.version := by
  rw [DriverExecutionEngine.refusesVersion_iff h, detector.reportsDowngrade_iff]
  exact DriverVersion.gt_iff_ge_iff _ _

/-- The installed version of `e1000e` is the target of an update. -/
def equalTarget : UpdateRequest := ⟨"e1000e", some "6.8.0", false⟩

/-- A machine whose inventory is `e1000e` 6.8.0. -/
def e1000eMachine : World := .boot ⟨[e1000eDriver .active], [], 0⟩ 0 ⟨[]⟩ inTreeModules .empty

/-- The version before the one that is installed. -/
def olderE1000e : DriverEntry :=
  { e1000eDriver .available with
    id := { (e1000eDriver .available).id with version := ⟨6, 7, 0, none⟩ } }

theorem reachesGuard_equalTarget :
    DriverExecutionEngine.strict.ReachesGuard .smooth equalTarget ":1.5" e1000eMachine
      (e1000eDriver .active) (e1000eDriver .active).id.version :=
  ⟨by decide, by decide, by decide, ⟨"6.8.0", rfl, by decide⟩, rfl⟩

/-- Both guards refuse to go back to the version before. -/
theorem guards_agree_on_older_version :
    DriverExecutionEngine.strict.RefusesVersion .smooth ⟨"e1000e", some "6.7.0", false⟩ ":1.5"
        e1000eMachine ↔
      DriverExecutionEngine.strict.conflictDetector.ReportsDowngrade (e1000eDriver .active)
        olderE1000e [] [] [] :=
  (guardsAgree_iff .strict .smooth ⟨"e1000e", some "6.7.0", false⟩ ":1.5" e1000eMachine
    (e1000eDriver .active) olderE1000e
    ⟨by decide, by decide, by decide, ⟨"6.7.0", rfl, by decide⟩, rfl⟩
    DriverExecutionEngine.strict.conflictDetector [] [] []).mpr (by decide)

/-- `check_update` calls an update to the installed version a downgrade, and `update_driver`
carries it out. -/
theorem equal_version_is_downgrade :
    ¬ ∀ (engine : DriverExecutionEngine) (env : Env) (request : UpdateRequest)
      (caller : String) (w : World) (currentDriver newDriver : DriverEntry),
      engine.ReachesGuard env request caller w currentDriver newDriver.id.version →
      ∀ (detector : ConflictDetector) (inventoryDrivers : List DriverEntry)
        (loadedModules : List String) (hardware : List HardwareDevice),
      (engine.RefusesVersion env request caller w ↔
        detector.ReportsDowngrade currentDriver newDriver inventoryDrivers loadedModules
          hardware) := by
  intro h
  have hagree := h .strict .smooth equalTarget ":1.5" e1000eMachine (e1000eDriver .active)
    (e1000eDriver .active) reachesGuard_equalTarget ⟨⟨"6.8.0", "x86_64", []⟩, id⟩ [] [] []
  rw [DriverExecutionEngine.refusesVersion_iff reachesGuard_equalTarget,
    ConflictDetector.reportsDowngrade_iff] at hagree
  revert hagree
  decide

end MissionOs.Driverd
