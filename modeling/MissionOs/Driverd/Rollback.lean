import MissionOs.Driverd.Operations

/-!
# What a rollback restores

A failed operation is rolled back: the entry is written back, and a module that
was loaded before is loaded again.  Only an update changes the kernel before it
fails, so only an update depends on that second load, and the second load is not
checked: `LosesModule` names the updates after which the module stays unloaded,
and `rollback_restores_iff` says that these are all.
-/

namespace MissionOs.Driverd

open MissionOs.Rust MissionOs.Lib

/-! ## Loads and unloads -/

/-- The file at `path` is the module `m`, and the `n`-th `load_module` call can
load it under the name of the driver `name`. -/
def Loadable (env : Env) (n : Nat) (kernel : Kernel) (fs : FileSystem) (name : String)
    (path : Path) (m : ModuleName) : Prop :=
  validateModuleName name = .ok () ∧ env.loadFault n = none ∧
    ∃ image, fs.get? path = some image ∧
      env.imageName image = some m ∧ kernel.lists m.text = false

theorem initOutcome_ok {env : Env} {fault : Option Errno} {k : Kernel} {image : Bytes}
    {m : ModuleName} :
    initOutcome env fault k image = .ok m ↔
      fault = none ∧ env.imageName image = some m ∧ k.lists m.text = false := by
  unfold initOutcome
  cases fault with
  | some errno => simp
  | none =>
      cases himage : env.imageName image with
      | none => simp
      | some m' =>
          cases hlisted : k.lists m'.text with
          | true =>
              simp only [hlisted, if_true, reduceCtorEq, Option.some.injEq, false_iff, not_and]
              intro _ heq
              subst heq
              simp [hlisted]
          | false =>
              simp only [hlisted, Bool.false_eq_true, if_false, Except.ok.injEq,
                Option.some.injEq, true_and]
              constructor
              · intro heq
                subst heq
                exact ⟨rfl, hlisted⟩
              · exact And.left

/-- A `load_module` call succeeds exactly if the file can be loaded. -/
theorem loadOutcome_ok {env : Env} {n : Nat} {k : Kernel} {fs : FileSystem} {name : String}
    {path : Path} {m : ModuleName} :
    loadOutcome env n k fs name path = .ok m ↔ Loadable env n k fs name path m := by
  rw [loadOutcome, Loadable]
  unfold readOutcome
  cases validateModuleName name with
  | error e => simp
  | ok u =>
  cases hfault : env.loadFault n with
  | some fault =>
      cases fault with
      | read e => simp [LoadFault.readError]
      | kernel errno =>
          cases hget : fs.get? path with
          | none => simp [LoadFault.readError]
          | some image => simp [LoadFault.readError, LoadFault.errno, initOutcome]
  | none =>
      cases hget : fs.get? path with
      | none => simp [LoadFault.readError]
      | some image =>
          simp only [LoadFault.readError, LoadFault.errno, true_and, Option.some.injEq,
            exists_eq_left']
          have hinit : initOutcome env none k image = .ok m ↔
              (none : Option Errno) = none ∧ env.imageName image = some m ∧
                k.lists m.text = false := initOutcome_ok
          simp only [true_and] at hinit
          rw [← hinit]
          cases initOutcome env none k image <;> simp

/-- An `unload_module` call succeeds exactly if the name is valid and that of a
removable module, and the kernel does not refuse. -/
theorem unloadOutcome_ok {env : Env} {k : Kernel} {name : String} :
    unloadOutcome env k name = .ok () ↔
      validateModuleName name = .ok () ∧ env.unloadFault = none ∧ k.removable name = true := by
  rw [unloadOutcome, deleteOutcome]
  cases validateModuleName name with
  | error e => simp
  | ok u =>
      cases env.unloadFault with
      | some errno => simp
      | none => cases k.removable name <;> simp

theorem lists_of_removable {k : Kernel} {name : String} (h : k.removable name = true) :
    k.lists name = true := by
  rw [Kernel.removable, Bool.and_eq_true] at h
  exact h.1

theorem lists_of_unloadOutcome {env : Env} {k : Kernel} {name : String}
    (h : unloadOutcome env k name = .ok ()) : k.lists name = true :=
  lists_of_removable (unloadOutcome_ok.mp h).2.2

/-- A load adds to the kernel and takes nothing away. -/
theorem lists_afterLoad {k : Kernel} {outcome : ServiceResult ModuleName} {name : String} :
    (k.afterLoad outcome).lists name = true ↔
      k.lists name = true ∨ ∃ m, outcome = .ok m ∧ m.text = name := by
  cases outcome with
  | error e => simp [Kernel.afterLoad]
  | ok m =>
      simp only [Kernel.afterLoad, Kernel.lists_insert, Bool.or_eq_true, beq_iff_eq,
        Except.ok.injEq, exists_eq_left']
      exact or_comm

namespace DriverExecutionEngine

variable (engine : DriverExecutionEngine) (env : Env)

/-! ## The updates that lose the module -/

/-- The install step of an update fails, with `w` the world in which the module
is unloaded. -/
def InstallStepFails (w : World) (d : DriverEntry) : Prop :=
  match d.id.moduleType with
  | .kernelModule =>
    if w.pathExists (engine.findPackagePath w d) then
      ∀ m, ¬ Loadable env 0 w.kernel w.fs d.id.name (engine.findPackagePath w d) m
    else
      moduleAvailable w d.id.name = false
  | .firmware =>
    (copyOutcome env (withParent env w.fs (firmwarePath d.id.name))
      (engine.findPackagePath w d) (firmwarePath d.id.name)).1 ≠ .ok ()
  | .userspace => False
  | .deviceTreeOverlay => True

/-- The files when the install step has failed. -/
def filesAfterInstallStep (w : World) (d : DriverEntry) : FileSystem :=
  match d.id.moduleType with
  | .firmware =>
    (copyOutcome env (withParent env w.fs (firmwarePath d.id.name))
      (engine.findPackagePath w d) (firmwarePath d.id.name)).2
  | _ => w.fs

/-- How many `load_module` calls the install step has made. -/
def loadsOfInstallStep (w : World) (d : DriverEntry) : Nat :=
  if d.id.moduleType = .kernelModule ∧ w.pathExists (engine.findPackagePath w d) = true then 1
  else 0

/-- The rollback after an install step that failed loads the module `m`. -/
def ReloadLoads (w : World) (d : DriverEntry) (m : ModuleName) : Prop :=
  let fs := engine.filesAfterInstallStep env w d
  Loadable env (engine.loadsOfInstallStep w d) w.kernel fs d.id.name
    (engine.findPackagePath { w with fs := fs } d) m

/-- An update that unloads the module of its driver, cannot install it and does not
load it again. -/
def LosesModule (op : Operation) (w : World) (d : DriverEntry) : Prop :=
  op.action = .updateDriver ∧ engine.Admits env op w d ∧
    unloadOutcome env w.kernel d.id.name = .ok () ∧
    engine.InstallStepFails env (w.unloaded d) d ∧
    ∀ m, engine.ReloadLoads env (w.unloaded d) d m → m.text ≠ d.id.name

variable {engine env}

/-- How the install step ends, as an effect. -/
theorem installEffect_failed_iff {w : World} {d : DriverEntry}
    (hloads : w.calls Event.isLoadModule = 0) :
    (engine.installEffect env w d).result ≠ .ok () ↔ engine.InstallStepFails env w d := by
  rw [installEffect, InstallStepFails, hloads]
  cases d.id.moduleType with
  | kernelModule =>
      dsimp only
      split_ifs with hex hav
      · simp only [← loadOutcome_ok]
        cases loadOutcome env 0 w.kernel w.fs d.id.name (engine.findPackagePath w d) <;>
          simp [Except.map]
      · simp [hav]
      · simpa using hav
  | firmware =>
      dsimp only
      cases (copyOutcome env (withParent env w.fs (firmwarePath d.id.name))
        (engine.findPackagePath w d) (firmwarePath d.id.name)).1 <;> simp [Except.mapError]
  | userspace => simp
  | deviceTreeOverlay => simp

/-- The files after the install step. -/
theorem installEffect_fs (w : World) (d : DriverEntry) :
    (engine.installEffect env w d).fs = engine.filesAfterInstallStep env w d := by
  rw [installEffect, filesAfterInstallStep]
  cases d.id.moduleType with
  | kernelModule =>
      dsimp only
      split_ifs <;> rfl
  | firmware => rfl
  | userspace => rfl
  | deviceTreeOverlay => rfl

/-- The loads of the install step. -/
theorem installEffect_loads (w : World) (d : DriverEntry) :
    (engine.installEffect env w d).loads = engine.loadsOfInstallStep w d := by
  rw [installEffect, loadsOfInstallStep]
  cases d.id.moduleType with
  | kernelModule =>
      dsimp only
      split_ifs <;> simp_all
  | firmware => rfl
  | userspace => rfl
  | deviceTreeOverlay => rfl

/-! ## The kernel after a rollback -/

/-- Unless it is an update that unloads its module, a call that fails has not
changed the kernel. -/
theorem effect_kernel_of_failed {op : Operation} {w : World} {d : DriverEntry}
    {e : ServiceError} (hfailed : (engine.effect env op w d).result = .error e)
    (hkeeps : ¬ (op.action = .updateDriver ∧
      unloadOutcome env w.kernel d.id.name = .ok ())) :
    (engine.effect env op w d).kernel = w.kernel := by
  have hne : (engine.effect env op w d).result ≠ .ok () := by rw [hfailed]; simp
  cases op with
  | install request caller devices => exact engine.kernel_of_failed_install env hne
  | remove request caller =>
      simp only [effect, removeEffect] at hne ⊢
      cases htype : d.id.moduleType with
      | kernelModule =>
          simp only [htype] at hne ⊢
          split_ifs at hne ⊢ with hloaded
          · cases hunload : unloadOutcome env w.kernel d.id.name with
            | ok u => simp [hunload] at hne
            | error e => rfl
          · rfl
      | firmware =>
          dsimp only
          split_ifs
          · cases removeOutcome env w.fs (firmwarePath d.id.name) <;> rfl
          · rfl
      | userspace => rfl
      | deviceTreeOverlay => rfl
  | update request caller =>
      simp only [effect, updateEffect] at hne ⊢
      split_ifs at hne ⊢ with hloaded
      · cases hunload : unloadOutcome env w.kernel d.id.name with
        | ok u => exact absurd ⟨rfl, hunload⟩ hkeeps
        | error e => rfl
      · exact engine.kernel_of_failed_install env hne

/-- A load that is tried because the module was loaded changes nothing about the
module, if it is still loaded. -/
theorem lists_reload {w : World} {d : DriverEntry} {outcome : ServiceResult ModuleName}
    (hloaded : isLoaded w d.id.name = true)
    (hvalid : ∀ m, outcome = .ok m → validateModuleName d.id.name = .ok ()) :
    (w.kernel.afterLoad outcome).lists (kernelName d.id.name) =
      w.kernel.lists (kernelName d.id.name) := by
  rw [Bool.eq_iff_iff, lists_afterLoad]
  refine ⟨fun h => ?_, Or.inl⟩
  rcases h with h | ⟨m, hm, _⟩
  · exact h
  · have hlists := isLoaded_of_valid w (hvalid m hm) ▸ hloaded
    rw [kernelName_of_isModuleName (Kernel.isModuleName_of_lists hlists)]
    exact hlists

/-- The kernel after the rollback of an install step that failed. -/
theorem lists_rollback_install {w : World} {d : DriverEntry} {name : String}
    (hloads : w.calls Event.isLoadModule = 0)
    (hfailed : (engine.installEffect env w d).result ≠ .ok ()) :
    ((engine.installEffect env w d).kernel.afterLoad
        (engine.reload env w d (engine.installEffect env w d))).lists name = true ↔
      (∃ m, engine.ReloadLoads env w d m ∧ m.text = name) ∨ w.kernel.lists name = true := by
  rw [lists_afterLoad, reload, reloadPath, engine.kernel_of_failed_install env hfailed,
    installEffect_fs, installEffect_loads, hloads]
  simp only [loadOutcome_ok, Nat.zero_add]
  exact or_comm

/-- An update that can unload its module goes on as an installation. -/
theorem effect_of_unload {request : UpdateRequest} {caller : String} {w : World}
    {d : DriverEntry} (hunload : unloadOutcome env w.kernel d.id.name = .ok ()) :
    engine.effect env (.update request caller) w d =
      engine.installEffect env (w.unloaded d) d := by
  have hloaded := isLoaded_of_lists (lists_of_unloadOutcome hunload)
  simp only [effect, updateEffect, hloaded, if_true, hunload]

/-- An update of a driver that is not loaded is an installation. -/
theorem effect_of_not_loaded {request : UpdateRequest} {caller : String} {w : World}
    {d : DriverEntry} (hloaded : ¬ isLoaded w d.id.name = true) :
    engine.effect env (.update request caller) w d = engine.installEffect env w d := by
  simp only [effect, updateEffect, if_neg hloaded]

/-- An update that loses its module fails. -/
theorem LosesModule.failed {op : Operation} {w : World} {d : DriverEntry}
    (h : engine.LosesModule env op w d) (hloads : w.calls Event.isLoadModule = 0) :
    (engine.effect env op w d).result ≠ .ok () := by
  obtain ⟨haction, _, hunload, hstep, _⟩ := h
  cases op with
  | install => cases haction
  | remove => cases haction
  | update request caller =>
      have hfresh : (w.unloaded d).calls Event.isLoadModule = 0 := hloads
      rw [effect_of_unload hunload]
      exact (installEffect_failed_iff hfresh).mpr hstep

/-- After the rollback of a failed call the module is loaded exactly if it was
before, unless the call is an update that loses it. -/
theorem lists_rollbackKernel {op : Operation} {w : World} {d : DriverEntry} {e : ServiceError}
    (hloads : w.calls Event.isLoadModule = 0) (hadmits : engine.Admits env op w d)
    (hfailed : (engine.effect env op w d).result = .error e) :
    (engine.rollbackKernel env w d (engine.effect env op w d)).lists (kernelName d.id.name) =
        w.kernel.lists (kernelName d.id.name) ↔
      ¬ engine.LosesModule env op w d := by
  by_cases hunloads : op.action = .updateDriver ∧
      unloadOutcome env w.kernel d.id.name = .ok ()
  · -- The module is unloaded, and back exactly if the second load brings it back.
    obtain ⟨haction, hunload⟩ := hunloads
    obtain ⟨request, caller, rfl⟩ : ∃ request caller, op = .update request caller := by
      cases op with
      | install => cases haction
      | remove => cases haction
      | update request caller => exact ⟨request, caller, rfl⟩
    have hlists := lists_of_unloadOutcome hunload
    have hname := kernelName_of_isModuleName (Kernel.isModuleName_of_lists hlists)
    have hloaded := isLoaded_of_lists hlists
    rw [effect_of_unload hunload] at hfailed ⊢
    have hne : (engine.installEffect env (w.unloaded d) d).result ≠ .ok () := by
      rw [hfailed]
      simp
    have hfresh : (w.unloaded d).calls Event.isLoadModule = 0 := hloads
    have hstep := (installEffect_failed_iff hfresh).mp hne
    have herased : (w.unloaded d).kernel.lists d.id.name = false := by
      simp [World.unloaded, Kernel.lists_erase]
    have hback : (engine.rollbackKernel env w d (engine.installEffect env (w.unloaded d) d)).lists
          d.id.name = true ↔ ∃ m, engine.ReloadLoads env (w.unloaded d) d m ∧
            m.text = d.id.name := by
      rw [rollbackKernel, if_pos hloaded]
      refine (lists_rollback_install hfresh hne).trans ?_
      rw [herased]
      simp
    rw [hname, hlists, hback, LosesModule]
    simp only [hadmits, hunload, hstep, true_and, not_and, not_forall, not_not, exists_prop]
    exact ⟨fun h _ => h, fun h => h rfl⟩
  · -- The kernel is as it was when the rollback begins.
    have hkernel := effect_kernel_of_failed hfailed hunloads
    refine ⟨fun _ hloses => hunloads ⟨hloses.1, hloses.2.2.1⟩, fun _ => ?_⟩
    rw [rollbackKernel, hkernel]
    split_ifs with hloaded
    · exact lists_reload hloaded fun m hm => (loadOutcome_ok.mp hm).1
    · rfl

end DriverExecutionEngine

/-! ## Rolled-back calls -/

/-- The result of a call that failed and was rolled back. -/
def OperationResult.RolledBack (r : OperationResult) : Prop :=
  r.status = .failed ∧ r.message ∈ rolledBackMessages

/-- A call that is rolled back leaves the module of its driver loaded exactly if
it was loaded before, unless the call is an update that loses the module. -/
theorem rollback_restores_iff (engine : DriverExecutionEngine) (env : Env) (op : Operation)
    (inventory : DriverInventory) (sequence : UInt64) (kernel : Kernel)
    (moduleDirs : ModuleDirs) (fs : FileSystem) (d : DriverEntry)
    (hfound : inventory.drivers.find? op.wants = some d) :
    ((engine.result env op (World.boot inventory sequence kernel moduleDirs fs)).RolledBack →
        (engine.next (.call env op)
            (World.boot inventory sequence kernel moduleDirs fs)).kernel.lists
          (kernelName d.id.name) = kernel.lists (kernelName d.id.name)) ↔
      ¬ engine.LosesModule env op (World.boot inventory sequence kernel moduleDirs fs) d := by
  have hdone := engine.performed_of_tracker env op
    (w := World.boot inventory sequence kernel moduleDirs fs) rfl
  generalize engine.result env op (World.boot inventory sequence kernel moduleDirs fs) = r
    at hdone ⊢
  generalize engine.next (.call env op) (World.boot inventory sequence kernel moduleDirs fs) = w'
    at hdone ⊢
  cases hdone with
  | refused r w' _ hrefused hchecks =>
      refine ⟨fun _ hloses => hchecks d hloses.2.1, fun _ hrolled => ?_⟩
      exact absurd hrolled.2 hrefused.2
  | executed d' w₁ r w' hadmits hquiet _ hfound' _ hdone =>
      obtain rfl : d' = d := Option.some.inj (hfound'.symm.trans hfound)
      cases hdone with
      | committed now es hresult _ =>
          refine ⟨fun _ hloses => hloses.failed rfl hresult, fun _ hrolled => ?_⟩
          rw [OperationResult.RolledBack, op.success_status] at hrolled
          cases hrolled.1
      | rolledBack e es hresult _ =>
          have hiff := DriverExecutionEngine.lists_rollbackKernel rfl hadmits hresult
          rw [← engine.rollbackKernel_congr env d' _ hquiet.kernel_eq hquiet.fs_eq
            hquiet.loads_eq] at hiff
          exact Iff.trans ⟨fun h => h ⟨rfl, op.failure_mem⟩, fun h _ => h⟩ hiff

/-- The update of a driver that is not loaded, and cannot be found on disk. -/
theorem failed_update_restores :
    (DriverExecutionEngine.strict.result .smooth (.update ⟨"e1000e", none, false⟩ ":1.5")
          (World.boot ⟨[e1000eDriver .available], [], 0⟩ 0 ⟨[]⟩ ⟨none, none, none⟩
            .empty)).RolledBack ∧
      (DriverExecutionEngine.strict.next (.call .smooth (.update ⟨"e1000e", none, false⟩ ":1.5"))
          (World.boot ⟨[e1000eDriver .available], [], 0⟩ 0 ⟨[]⟩ ⟨none, none, none⟩
            .empty)).kernel.lists (kernelName "e1000e") =
        (⟨[]⟩ : Kernel).lists (kernelName "e1000e") := by
  have hrolled : (DriverExecutionEngine.strict.result .smooth
      (.update ⟨"e1000e", none, false⟩ ":1.5") (World.boot ⟨[e1000eDriver .available], [], 0⟩ 0
        ⟨[]⟩ ⟨none, none, none⟩ .empty)).RolledBack := ⟨rfl, by decide⟩
  refine ⟨hrolled, (rollback_restores_iff .strict .smooth
    (.update ⟨"e1000e", none, false⟩ ":1.5") ⟨[e1000eDriver .available], [], 0⟩ 0 ⟨[]⟩
    ⟨none, none, none⟩ .empty (e1000eDriver .available) rfl).mpr (fun hloses => ?_) hrolled⟩
  cases hloses.2.2.1

/-- A file in the package store that is no kernel module. -/
def brokenStore : FileSystem :=
  FileSystem.empty.write (Path.new "/var/cache/mission/driverd/packages/e1000e.ko") [0xde, 0xad]

/-- Not every rollback restores the module: an update unloads `e1000e`, is refused
the staged file, and is refused it again by the rollback. -/
theorem rollback_loses_e1000e :
    ¬ ∀ (engine : DriverExecutionEngine) (env : Env) (op : Operation)
      (inventory : DriverInventory) (sequence : UInt64) (kernel : Kernel)
      (moduleDirs : ModuleDirs) (fs : FileSystem) (d : DriverEntry),
      inventory.drivers.find? op.wants = some d →
      (engine.result env op (World.boot inventory sequence kernel moduleDirs fs)).RolledBack →
        (engine.next (.call env op)
            (World.boot inventory sequence kernel moduleDirs fs)).kernel.lists
          (kernelName d.id.name) = kernel.lists (kernelName d.id.name) := by
  intro h
  have hlost := h .strict .smooth (.update ⟨"e1000e", none, false⟩ ":1.5")
    ⟨[e1000eDriver .active], [], 0⟩ 0 (.ofNames [e1000eModule]) inTreeModules brokenStore
    (e1000eDriver .active) rfl ⟨rfl, by decide⟩
  revert hlost
  decide

end MissionOs.Driverd
