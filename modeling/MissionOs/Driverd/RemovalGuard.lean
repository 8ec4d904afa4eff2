import MissionOs.Driverd.KernelTruth
import MissionOs.Driverd.OperationChecks

/-!
# Removals of loaded modules

A removal without force is meant to stop at a module that is loaded.  The check looks for the
lowered name of the driver among the modules that `/proc/modules` shows as live, and only if the
entry is operational; the execution unloads whatever module of the name itself is loaded.

`keepsModules_iff` says when the check sees the module that the execution would unload.
-/

namespace MissionOs.Driverd

open MissionOs.Rust MissionOs.Lib

/-- `/proc/modules` has a line for a module of the name, in whatever state it is. -/
def Kernel.HasLine (k : Kernel) (name : String) : Prop :=
  ∃ m ∈ k.modules, m.name.text = name ∧ m.builtin = false

theorem Kernel.hasLine_of_removable {k : Kernel} {name : String} (h : k.removable name = true) :
    k.HasLine name := by
  simp only [Kernel.removable, Bool.and_eq_true, List.any_eq_true, List.all_eq_true,
    Bool.or_eq_true, beq_iff_eq, bne_iff_ne, Bool.not_eq_true'] at h
  obtain ⟨⟨m, hm, hname⟩, hall⟩ := h
  exact ⟨m, hm, hname, (hall m hm).resolve_left fun hne => hne hname⟩

/-- Only a module with a line is unloaded. -/
theorem hasLine_of_unloadOutcome {env : Env} {k : Kernel} {name : String}
    (h : unloadOutcome env k name = .ok ()) : k.HasLine name := by
  apply Kernel.hasLine_of_removable
  unfold unloadOutcome deleteOutcome at h
  cases hvalid : validateModuleName name with
  | error e =>
      rw [hvalid] at h
      cases h
  | ok u =>
      rw [hvalid] at h
      cases hfault : env.unloadFault with
      | some errno =>
          rw [hfault] at h
          cases h
      | none =>
          rw [hfault] at h
          by_contra hremovable
          simp only [hremovable] at h
          cases h

/-! ## What the check of a removal sees -/

namespace ConflictDetector

variable (detector : ConflictDetector)

/-- The driver is seen to be loaded. -/
def SeesLoaded (driver : DriverEntry) (loadedModules : List String) : Prop :=
  driver.status.isOperational = true ∧ detector.lower driver.id.name ∈ loadedModules

/-- Another driver needs a feature that has the name of the driver in it. -/
def HasDependents (driver : DriverEntry) (inventoryDrivers : List DriverEntry) : Prop :=
  ∃ d ∈ inventoryDrivers, detector.lower d.id.name ≠ detector.lower driver.id.name ∧
    ∃ f ∈ d.id.kernelCompat.requiredFeatures,
      containsText (detector.lower f) (detector.lower driver.id.name) = true

theorem hasConflicts_merge {r other : ConflictResult} :
    (r.merge other).hasConflicts = (r.hasConflicts || other.hasConflicts) := by
  unfold ConflictResult.merge
  cases hother : other.hasConflicts <;> simp

theorem checkDependents_hasConflicts_iff {driver : DriverEntry}
    {inventoryDrivers : List DriverEntry} :
    (detector.checkDependents driver inventoryDrivers).hasConflicts = true ↔
      detector.HasDependents driver inventoryDrivers := by
  unfold checkDependents HasDependents
  dsimp only
  split_ifs with hempty
  · refine iff_of_false Bool.false_ne_true ?_
    intro h
    obtain ⟨d, hd, hname, f, hf, hcontains⟩ := h
    rw [List.isEmpty_iff, List.map_eq_nil_iff, List.filter_eq_nil_iff] at hempty
    refine hempty d hd ?_
    simpa [hname] using ⟨f, hf, hcontains⟩
  · refine iff_of_true rfl ?_
    simpa using hempty

/-- The check of a kernel module finds a conflict if the module is seen to be loaded, or another
driver depends on it. -/
theorem checkRemove_hasConflicts_iff {driver : DriverEntry}
    (htype : driver.id.moduleType = .kernelModule) {loadedModules : List String}
    {inventoryDrivers : List DriverEntry} :
    (detector.checkRemove driver loadedModules inventoryDrivers).hasConflicts = true ↔
      detector.SeesLoaded driver loadedModules ∨
        detector.HasDependents driver inventoryDrivers := by
  have huse : (detector.checkModuleInUse driver loadedModules).hasConflicts = true ↔
      detector.lower driver.id.name ∈ loadedModules := by
    unfold checkModuleInUse
    rw [if_neg (fun h => h htype)]
    split_ifs with hloaded
    · exact iff_of_true rfl (by simpa using hloaded)
    · exact iff_of_false Bool.false_ne_true (by simpa using hloaded)
  unfold checkRemove SeesLoaded
  rw [hasConflicts_merge, Bool.or_eq_true, detector.checkDependents_hasConflicts_iff, ← huse]
  split_ifs with hoperational
  · rw [hasConflicts_merge]
    simp [ConflictResult.none, hoperational]
  · simp [ConflictResult.none, hoperational]

end ConflictDetector

/-! ## A removal without force -/

namespace DriverExecutionEngine

variable (engine : DriverExecutionEngine) (env : Env) (driverName caller : String) (w : World)

/-- The call of a removal without force. -/
abbrev removal : Operation := .remove ⟨driverName, false⟩ caller

/-- A removal without force gets to the check of its driver, a kernel module that is loaded. -/
structure ReachesLoaded (d : DriverEntry) : Prop where
  granted : engine.GrantsNext env w.fresh .removeDriver caller
  valid : (RemoveRequest.mk driverName false).validate = .ok ()
  found : w.inventory.findNamed driverName = some d
  kernelModule : d.id.moduleType = .kernelModule
  loaded : w.kernel.HasLine d.id.name

/-- A removal without force unloads nothing, and of a loaded module it fails with a conflict. -/
structure KeepsModules : Prop where
  unloadsNothing : ∀ name, w.kernel.lists name = true →
    (engine.next (.call env (removal driverName caller)) w).kernel.lists name = true
  conflict : ∀ d, engine.ReachesLoaded env driverName caller w d →
    (engine.result env (removal driverName caller) w).status = .failed ∧
      (engine.result env (removal driverName caller) w).message = "Removal blocked by conflicts"

variable {engine env driverName caller w} {d : DriverEntry}

/-- A call that gets to the check ends with a conflict exactly if the check finds one. -/
theorem conflict_iff (h : engine.ReachesLoaded env driverName caller w d) :
    ((engine.result env (removal driverName caller) w).status = .failed ∧
      (engine.result env (removal driverName caller) w).message =
        "Removal blocked by conflicts") ↔
      (engine.conflictDetector.checkRemove d (liveModules env w.kernel)
        w.inventory.drivers).hasConflicts = true := by
  have hother : "Removal failed and was rolled back" ≠ "Removal blocked by conflicts" := by decide
  have hspec : wp (engine.removeDriver env ⟨driverName, false⟩ caller)
      (fun r _ => (r.status = .failed ∧ r.message = "Removal blocked by conflicts") ↔
        (engine.conflictDetector.checkRemove d (liveModules env w.kernel)
          w.inventory.drivers).hasConflicts = true) w.fresh := by
    refine wp_bind_of (engine.removeChecks_verdict env ⟨driverName, false⟩ caller w.fresh) ?_
    intro _ w₁ hpost
    obtain ⟨rfl, -⟩ := hpost
    rw [removeVerdict_of_found h.granted h.valid h.found]
    have hworld : w.fresh.kernel = w.kernel ∧ w.fresh.inventory = w.inventory := ⟨rfl, rfl⟩
    simp only [Bool.not_false, Bool.and_true, hworld]
    by_cases hconflicts : (engine.conflictDetector.checkRemove d (liveModules env w.kernel)
        w.inventory.drivers).hasConflicts = true
    · rw [if_pos hconflicts]
      exact iff_of_true ⟨rfl, rfl⟩ hconflicts
    · rw [if_neg hconflicts]
      refine wp_mono (engine.transact_result env) ?_
      intro r w' hpost
      rcases hpost with rfl | ⟨error, rfl⟩
      · exact iff_of_false (fun hr => nomatch hr.1) hconflicts
      · exact iff_of_false (fun hr => hother hr.2) hconflicts
  exact hspec

/-- What a removal unloads is the loaded module of a driver that its check let pass. -/
theorem reachesLoaded_of_unloads
    (hadmits : engine.Admits env (removal driverName caller) w.fresh d)
    (hunloads : UnloadsModule env (removal driverName caller) w.fresh d) :
    engine.ReachesLoaded env driverName caller w d ∧
      (engine.conflictDetector.checkRemove d (liveModules env w.kernel)
        w.inventory.drivers).hasConflicts = false := by
  obtain ⟨hverdict, hgranted, hvalid, hfound⟩ := reaches_of_admits_remove hadmits
  refine ⟨⟨hgranted, hvalid, hfound, hunloads.1, hasLine_of_unloadOutcome hunloads.2⟩, ?_⟩
  rw [removeVerdict_of_found hgranted hvalid hfound] at hverdict
  have hworld : w.fresh.kernel = w.kernel ∧ w.fresh.inventory = w.inventory := ⟨rfl, rfl⟩
  simp only [hworld] at hverdict
  by_contra hconflicts
  rw [Bool.not_eq_false] at hconflicts
  simp only [hconflicts, Bool.not_false, Bool.and_true, if_true] at hverdict
  cases hverdict

end DriverExecutionEngine

/-- A removal without force keeps what is loaded, and fails with a conflict instead, exactly if
the check sees each loaded module that it comes to or finds a dependent of its driver. -/
theorem keepsModules_iff (engine : DriverExecutionEngine) (env : Env) (driverName caller : String)
    (inventory : DriverInventory) (sequence : UInt64) (kernel : Kernel) (moduleDirs : ModuleDirs)
    (fs : FileSystem) :
    engine.KeepsModules env driverName caller
        (.boot inventory sequence kernel moduleDirs fs) ↔
      ∀ d, engine.ReachesLoaded env driverName caller
          (.boot inventory sequence kernel moduleDirs fs) d →
        engine.conflictDetector.SeesLoaded d (liveModules env kernel) ∨
          engine.conflictDetector.HasDependents d inventory.drivers := by
  constructor
  · intro h d hreaches
    have hconflict := (DriverExecutionEngine.conflict_iff hreaches).mp (h.conflict d hreaches)
    exact (ConflictDetector.checkRemove_hasConflicts_iff _ hreaches.kernelModule).mp hconflict
  · intro h
    have hsees : ∀ d, engine.ReachesLoaded env driverName caller
        (.boot inventory sequence kernel moduleDirs fs) d →
        (engine.conflictDetector.checkRemove d (liveModules env kernel)
          inventory.drivers).hasConflicts = true := fun d hreaches =>
      (ConflictDetector.checkRemove_hasConflicts_iff _ hreaches.kernelModule).mpr (h d hreaches)
    constructor
    · intro name hlists
      have htracker : (World.boot inventory sequence kernel moduleDirs fs).tracker = .new := rfl
      have hdone := engine.performed_of_tracker env
        (DriverExecutionEngine.removal driverName caller) htracker
      rcases kernel_of_performed hdone with ⟨hkernel, -⟩ | ⟨d, hadmits, -, hkernel⟩
      · rw [hkernel]
        exact hlists
      · rw [hkernel, DriverExecutionEngine.lists_after_remove rfl]
        right
        refine ⟨hlists, fun ⟨hunloads, _⟩ => ?_⟩
        obtain ⟨hreaches, hnone⟩ :=
          DriverExecutionEngine.reachesLoaded_of_unloads hadmits hunloads
        exact Bool.false_ne_true (hnone.symm.trans (hsees d hreaches))
    · intro d hreaches
      exact (DriverExecutionEngine.conflict_iff hreaches).mpr (hsees d hreaches)

/-- A removal without force of `e1000e`, of which a newer version is available, unloads it. -/
theorem update_available_unloaded :
    ¬ ∀ (engine : DriverExecutionEngine) (env : Env) (driverName caller : String)
      (inventory : DriverInventory) (sequence : UInt64) (kernel : Kernel)
      (moduleDirs : ModuleDirs) (fs : FileSystem),
      engine.KeepsModules env driverName caller
        (.boot inventory sequence kernel moduleDirs fs) := by
  intro h
  have hkeeps := (h .strict .smooth "e1000e" ":1.5" ⟨[e1000eDriver .updateAvailable], [], 0⟩ 0
    (.ofNames [e1000eModule]) inTreeModules .empty).unloadsNothing "e1000e" (by decide)
  revert hkeeps
  decide

end MissionOs.Driverd
