import MissionOs.Driverd.InventoryFrame
import MissionOs.Driverd.Rollback

/-!
# The inventory and the kernel

`Truthful` relates the status of a kernel module in the inventory to the kernel:
an active module is loaded, and a removed one is not.

A call can load one module and unload one.  `LoadsModule` and `UnloadsModule`
say which, and `lists_kernelAfter` says that these two decide what the kernel
lists after the call.  `KeepsTruth` is the condition under which the status
that the call writes agrees with them: it fails, for one, for every update that
unloads a module of the kernel tree, since nothing loads it again.
-/

namespace MissionOs.Driverd

open MissionOs.Rust MissionOs.Lib

/-- The status of an entry agrees with the kernel. -/
def TellsTruth (kernel : Kernel) (e : DriverEntry) : Prop :=
  e.id.moduleType = .kernelModule →
    (e.status = .active → kernel.lists (kernelName e.id.name) = true) ∧
    (e.status = .removed → kernel.lists (kernelName e.id.name) = false)

/-- The status of every entry agrees with the kernel. -/
def Truthful (w : World) : Prop := ∀ e ∈ w.inventory.drivers, TellsTruth w.kernel e

namespace DriverExecutionEngine

variable (engine : DriverExecutionEngine) (env : Env)

/-! ## What a call loads and unloads -/

/-- The install step loads the module `m`. -/
def InstallStepLoads (w : World) (d : DriverEntry) (m : ModuleName) : Prop :=
  d.id.moduleType = .kernelModule ∧ w.pathExists (engine.findPackagePath w d) = true ∧
    Loadable env 0 w.kernel w.fs d.id.name (engine.findPackagePath w d) m

/-- The remove step fails. -/
def RemoveStepFails (w : World) (d : DriverEntry) : Prop :=
  match d.id.moduleType with
  | .kernelModule =>
    isLoaded w d.id.name = true ∧ unloadOutcome env w.kernel d.id.name ≠ .ok ()
  | .firmware =>
    w.pathExists (firmwarePath d.id.name) = true ∧
      removeOutcome env w.fs (firmwarePath d.id.name) ≠ .ok ()
  | .userspace => False
  | .deviceTreeOverlay => True

/-- The call unloads the module of its driver `d`. -/
def UnloadsModule (op : Operation) (w : World) (d : DriverEntry) : Prop :=
  match op with
  | .install _ _ _ => False
  | .remove _ _ =>
    d.id.moduleType = .kernelModule ∧ unloadOutcome env w.kernel d.id.name = .ok ()
  | .update _ _ => unloadOutcome env w.kernel d.id.name = .ok ()

/-- The execute step of the call fails. -/
def StepFails (op : Operation) (w : World) (d : DriverEntry) : Prop :=
  match op with
  | .install _ _ _ => engine.InstallStepFails env w d
  | .remove _ _ => RemoveStepFails env w d
  | .update _ _ =>
    if isLoaded w d.id.name = true then
      unloadOutcome env w.kernel d.id.name = .ok () →
        engine.InstallStepFails env (w.unloaded d) d
    else engine.InstallStepFails env w d

/-- The call, with the driver `d`, loads the module `m`: in its install step, or
in its rollback. -/
def LoadsModule (op : Operation) (w : World) (d : DriverEntry) (m : ModuleName) : Prop :=
  match op with
  | .install _ _ _ =>
    engine.InstallStepLoads env w d m ∨
      isLoaded w d.id.name = true ∧ engine.InstallStepFails env w d ∧
        engine.ReloadLoads env w d m
  | .remove _ _ =>
    isLoaded w d.id.name = true ∧ RemoveStepFails env w d ∧
      Loadable env 0 w.kernel w.fs d.id.name (engine.findPackagePath w d) m
  | .update _ _ =>
    if isLoaded w d.id.name = true then
      (unloadOutcome env w.kernel d.id.name = .ok () ∧
          (engine.InstallStepLoads env (w.unloaded d) d m ∨
            engine.InstallStepFails env (w.unloaded d) d ∧
              engine.ReloadLoads env (w.unloaded d) d m)) ∨
        unloadOutcome env w.kernel d.id.name ≠ .ok () ∧
          Loadable env 0 w.kernel w.fs d.id.name (engine.findPackagePath w d) m
    else engine.InstallStepLoads env w d m

/-- The kernel after the second stage of a call. -/
def kernelAfter (op : Operation) (w : World) (d : DriverEntry) : Kernel :=
  match (engine.effect env op w d).result with
  | .ok () => (engine.effect env op w d).kernel
  | .error _ => engine.rollbackKernel env w d (engine.effect env op w d)

variable {engine env}

theorem InstallStepLoads.succeeds {w : World} {d : DriverEntry} {m : ModuleName}
    (h : engine.InstallStepLoads env w d m) : ¬ engine.InstallStepFails env w d := by
  obtain ⟨htype, hex, hload⟩ := h
  simp only [InstallStepFails, htype, hex, if_true]
  exact fun hnone => hnone m hload

/-- The kernel after an install step. -/
theorem lists_installEffect {w : World} {d : DriverEntry} {name : String}
    (hloads : w.calls Event.isLoadModule = 0) :
    (engine.installEffect env w d).kernel.lists name = true ↔
      (∃ m, engine.InstallStepLoads env w d m ∧ m.text = name) ∨
        w.kernel.lists name = true := by
  simp only [installEffect, InstallStepLoads, hloads]
  cases d.id.moduleType with
  | kernelModule =>
      dsimp only
      split_ifs with hex hav
      · simp only [lists_afterLoad, loadOutcome_ok, hex, true_and]
        exact or_comm
      · simp [hex]
      · simp [hex]
  | firmware => simp
  | userspace => simp
  | deviceTreeOverlay => simp

/-- The remove step ends as `RemoveStepFails` says. -/
theorem removeEffect_failed_iff {w : World} {d : DriverEntry} :
    (removeEffect env w d).result ≠ .ok () ↔ RemoveStepFails env w d := by
  rw [removeEffect, RemoveStepFails]
  cases d.id.moduleType with
  | kernelModule =>
      dsimp only
      split_ifs with hloaded <;> simp [hloaded]
  | firmware =>
      dsimp only
      split_ifs with hex
      · cases removeOutcome env w.fs (firmwarePath d.id.name) <;> simp [hex]
      · simp [hex]
  | userspace => simp
  | deviceTreeOverlay => simp

/-- A remove step that failed has changed nothing. -/
theorem removeEffect_failed {w : World} {d : DriverEntry}
    (h : (removeEffect env w d).result ≠ .ok ()) :
    (removeEffect env w d).kernel = w.kernel ∧ (removeEffect env w d).fs = w.fs ∧
      (removeEffect env w d).loads = 0 := by
  rw [removeEffect] at h ⊢
  cases htype : d.id.moduleType with
  | kernelModule =>
      simp only [htype] at h ⊢
      split_ifs at h ⊢ with hloaded
      · cases hunload : unloadOutcome env w.kernel d.id.name with
        | ok u => exact absurd hunload h
        | error e => exact ⟨rfl, rfl, rfl⟩
      · exact ⟨rfl, rfl, rfl⟩
  | firmware =>
      simp only [htype] at h ⊢
      split_ifs at h ⊢ with hex
      · cases hremove : removeOutcome env w.fs (firmwarePath d.id.name) with
        | ok u => simp [hremove] at h
        | error e => exact ⟨rfl, rfl, rfl⟩
      · exact ⟨rfl, rfl, rfl⟩
  | userspace => exact ⟨rfl, rfl, rfl⟩
  | deviceTreeOverlay => exact ⟨rfl, rfl, rfl⟩

/-- The kernel after a remove step. -/
theorem lists_removeEffect (request : RemoveRequest) (caller : String) {w : World}
    {d : DriverEntry} {name : String} :
    (removeEffect env w d).kernel.lists name = true ↔
      w.kernel.lists name = true ∧
        ¬ (UnloadsModule env (.remove request caller) w d ∧ name = d.id.name) := by
  rw [removeEffect, UnloadsModule]
  cases d.id.moduleType with
  | kernelModule =>
      dsimp only
      split_ifs with hloaded
      · cases hunload : unloadOutcome env w.kernel d.id.name with
        | ok u =>
            simp only [Kernel.afterUnload, Kernel.lists_erase, Bool.and_eq_true,
              decide_eq_true_eq, true_and]
            exact and_comm
        | error e => simp [Kernel.afterUnload]
      · have hkept : unloadOutcome env w.kernel d.id.name ≠ .ok () :=
          fun h => hloaded (isLoaded_of_lists (lists_of_unloadOutcome h))
        simp [hkept]
  | firmware =>
      dsimp only
      split_ifs
      · cases removeOutcome env w.fs (firmwarePath d.id.name) <;> simp
      · simp
  | userspace => simp
  | deviceTreeOverlay => simp

/-- The execute step of a call ends as `StepFails` says. -/
theorem stepFails_iff {op : Operation} {w : World} {d : DriverEntry}
    (hloads : w.calls Event.isLoadModule = 0) :
    (engine.effect env op w d).result ≠ .ok () ↔ engine.StepFails env op w d := by
  cases op with
  | install request caller devices => exact installEffect_failed_iff hloads
  | remove request caller => exact removeEffect_failed_iff
  | update request caller =>
      have hfresh : (w.unloaded d).calls Event.isLoadModule = 0 := hloads
      simp only [effect, updateEffect, StepFails]
      split_ifs with hloaded
      · cases hunload : unloadOutcome env w.kernel d.id.name with
        | ok u => simpa using installEffect_failed_iff hfresh
        | error e => simp
      · exact installEffect_failed_iff hloads

theorem kernelAfter_of_ok (op : Operation) {w : World} {d : DriverEntry}
    (h : (engine.effect env op w d).result = .ok ()) :
    engine.kernelAfter env op w d = (engine.effect env op w d).kernel := by
  rw [kernelAfter, h]

theorem kernelAfter_of_failed (op : Operation) {w : World} {d : DriverEntry}
    (h : (engine.effect env op w d).result ≠ .ok ()) :
    engine.kernelAfter env op w d =
      engine.rollbackKernel env w d (engine.effect env op w d) := by
  rw [kernelAfter]
  cases hresult : (engine.effect env op w d).result with
  | ok u => exact absurd hresult h
  | error e => rfl

variable (engine env) in
/-- The kernel after an install step, and after its rollback if `reloads` says that
there is one. -/
theorem lists_of_installEffect {w : World} (d : DriverEntry) (name : String) (reloads : Prop)
    (kernel : Kernel) (hloads : w.calls Event.isLoadModule = 0)
    (hok : (engine.installEffect env w d).result = .ok () →
      kernel = (engine.installEffect env w d).kernel)
    (hreload : (engine.installEffect env w d).result ≠ .ok () → reloads →
      kernel = (engine.installEffect env w d).kernel.afterLoad
        (engine.reload env w d (engine.installEffect env w d)))
    (hkeep : (engine.installEffect env w d).result ≠ .ok () → ¬ reloads →
      kernel = (engine.installEffect env w d).kernel) :
    kernel.lists name = true ↔
      (∃ m, (engine.InstallStepLoads env w d m ∨
          reloads ∧ engine.InstallStepFails env w d ∧ engine.ReloadLoads env w d m) ∧
        m.text = name) ∨ w.kernel.lists name = true := by
  have hiff : (engine.installEffect env w d).result ≠ .ok () ↔ engine.InstallStepFails env w d :=
    installEffect_failed_iff hloads
  by_cases hresult : (engine.installEffect env w d).result = .ok ()
  · have hstep : ¬ engine.InstallStepFails env w d := fun h => hiff.mpr h hresult
    simp only [hok hresult, lists_installEffect hloads, hstep, false_and, and_false, or_false]
  · have hstep := hiff.mp hresult
    have hnone : ∀ m, ¬ engine.InstallStepLoads env w d m := fun m h => h.succeeds hstep
    by_cases hre : reloads
    · simp only [hreload hresult hre, lists_rollback_install hloads hresult, hstep, hnone, hre,
        false_or, true_and]
    · simp [hkeep hresult hre, hnone, hre, engine.kernel_of_failed_install env hresult]

/-- The kernel after an installation. -/
theorem lists_after_install {request : InstallRequest} {caller : String}
    {devices : List HardwareDevice} {w : World} {d : DriverEntry} {name : String}
    (hloads : w.calls Event.isLoadModule = 0) :
    (engine.kernelAfter env (.install request caller devices) w d).lists name = true ↔
      (∃ m, engine.LoadsModule env (.install request caller devices) w d m ∧ m.text = name) ∨
        w.kernel.lists name = true := by
  refine engine.lists_of_installEffect env d name _ _ hloads
    (kernelAfter_of_ok (.install request caller devices)) ?_ ?_
  · intro hresult hloaded
    rw [kernelAfter_of_failed (.install request caller devices) hresult, rollbackKernel,
      if_pos hloaded]
    rfl
  · intro hresult hloaded
    rw [kernelAfter_of_failed (.install request caller devices) hresult, rollbackKernel,
      if_neg hloaded]
    rfl

/-- The kernel after a removal. -/
theorem lists_after_remove {request : RemoveRequest} {caller : String} {w : World}
    {d : DriverEntry} {name : String} (hloads : w.calls Event.isLoadModule = 0) :
    (engine.kernelAfter env (.remove request caller) w d).lists name = true ↔
      (∃ m, engine.LoadsModule env (.remove request caller) w d m ∧ m.text = name) ∨
        w.kernel.lists name = true ∧
          ¬ (UnloadsModule env (.remove request caller) w d ∧ name = d.id.name) := by
  simp only [LoadsModule]
  by_cases hresult : (removeEffect env w d).result = .ok ()
  · have hstep : ¬ RemoveStepFails env w d := fun h => removeEffect_failed_iff.mpr h hresult
    rw [kernelAfter_of_ok (.remove request caller) hresult]
    simp only [effect, lists_removeEffect request caller, hstep,
      false_and, and_false, exists_false, false_or]
  · have hstep := removeEffect_failed_iff.mp hresult
    obtain ⟨hkernel, hfs, hn⟩ := removeEffect_failed hresult
    have hkeeps : ¬ UnloadsModule env (.remove request caller) w d := by
      intro hright
      obtain ⟨htype, hunload⟩ := hright
      simp only [RemoveStepFails, htype] at hstep
      exact hstep.2 hunload
    rw [kernelAfter_of_failed (.remove request caller) hresult]
    simp only [effect, rollbackKernel, reload, reloadPath, hkernel, hfs, hn, hloads, hstep,
      hkeeps, true_and, false_and, not_false_eq_true, and_true]
    by_cases hloaded : isLoaded w d.id.name = true
    · simp only [hloaded, if_true, true_and, lists_afterLoad, loadOutcome_ok]
      exact or_comm
    · simp [hloaded]

/-- The kernel after an update. -/
theorem lists_after_update {request : UpdateRequest} {caller : String} {w : World}
    {d : DriverEntry} {name : String} (hloads : w.calls Event.isLoadModule = 0) :
    (engine.kernelAfter env (.update request caller) w d).lists name = true ↔
      (∃ m, engine.LoadsModule env (.update request caller) w d m ∧ m.text = name) ∨
        w.kernel.lists name = true ∧
          ¬ (UnloadsModule env (.update request caller) w d ∧ name = d.id.name) := by
  simp only [LoadsModule, UnloadsModule]
  by_cases hloaded : isLoaded w d.id.name = true
  · simp only [if_pos hloaded]
    cases hunload : unloadOutcome env w.kernel d.id.name with
    | ok u =>
        have hfresh : (w.unloaded d).calls Event.isLoadModule = 0 := hloads
        have heff : engine.effect env (.update request caller) w d =
            engine.installEffect env (w.unloaded d) d := effect_of_unload hunload
        rw [engine.lists_of_installEffect env d name True
          (engine.kernelAfter env (.update request caller) w d) hfresh
          (fun h => by rw [kernelAfter_of_ok _ (by rw [heff, h]), heff])
          (fun h _ => by
            rw [kernelAfter_of_failed _ (by rw [heff]; exact h), rollbackKernel, if_pos hloaded,
              heff]
            rfl)
          (fun _ h => absurd trivial h)]
        have herased : (w.unloaded d).kernel.lists name = true ↔
            w.kernel.lists name = true ∧ ¬ name = d.id.name := by
          simp only [World.unloaded, Kernel.lists_erase, Bool.and_eq_true, decide_eq_true_eq]
          exact and_comm
        simp [herased]
    | error e =>
        have hfailed : (engine.effect env (.update request caller) w d).result ≠ .ok () := by
          simp [effect, updateEffect, hloaded, hunload]
        rw [kernelAfter_of_failed _ hfailed]
        simp [effect, updateEffect, hloaded, hunload, rollbackKernel, lists_afterLoad, reload,
          hloads, loadOutcome_ok, reloadPath, or_comm]
  · have hkept : unloadOutcome env w.kernel d.id.name ≠ .ok () :=
      fun h => hloaded (isLoaded_of_lists (lists_of_unloadOutcome h))
    have heff : engine.effect env (.update request caller) w d =
        engine.installEffect env w d := effect_of_not_loaded hloaded
    rw [engine.lists_of_installEffect env d name False
      (engine.kernelAfter env (.update request caller) w d) hloads
      (fun h => by rw [kernelAfter_of_ok _ (by rw [heff, h]), heff])
      (fun _ h => h.elim)
      (fun h _ => by
        rw [kernelAfter_of_failed _ (by rw [heff]; exact h), rollbackKernel, if_neg hloaded,
          heff])]
    simp [hloaded, hkept]

/-- A call leaves in the kernel what it loads, and what was there and it does not
unload. -/
theorem lists_kernelAfter {op : Operation} {w : World} {d : DriverEntry} {name : String}
    (hloads : w.calls Event.isLoadModule = 0) :
    (engine.kernelAfter env op w d).lists name = true ↔
      (∃ m, engine.LoadsModule env op w d m ∧ m.text = name) ∨
        w.kernel.lists name = true ∧ ¬ (UnloadsModule env op w d ∧ name = d.id.name) := by
  cases op with
  | install request caller devices =>
      rw [lists_after_install hloads]
      simp [UnloadsModule]
  | remove request caller => exact lists_after_remove hloads
  | update request caller => exact lists_after_update hloads

/-! ## The condition on a call -/

variable (engine env)

/-- The status that the call writes, and those of the other entries, agree with
what it loads and unloads.  `others` are the entries beside the one that the
call finds. -/
structure KeepsTruth (op : Operation) (w : World) (d : DriverEntry) : Prop where
  /-- No other module is marked removed and gets loaded. -/
  loads : ∀ m, engine.LoadsModule env op w d m →
    ∀ e ∈ w.inventory.drivers.eraseP op.wants, e.id.moduleType = .kernelModule →
      e.status = .removed → kernelName e.id.name ≠ m.text
  /-- No other module is marked active and gets unloaded. -/
  unloads : UnloadsModule env op w d →
    ∀ e ∈ w.inventory.drivers.eraseP op.wants, e.id.moduleType = .kernelModule →
      e.status = .active → kernelName e.id.name = d.id.name →
        ∃ m, engine.LoadsModule env op w d m ∧ m.text = d.id.name
  /-- An active module whose update fails is loaded again. -/
  restores : UnloadsModule env op w d → engine.StepFails env op w d →
    d.id.moduleType = .kernelModule → d.status = .active →
      ∃ m, engine.LoadsModule env op w d m ∧ m.text = d.id.name
  /-- A module that is removed without an unload is not listed. -/
  removes : op.action = .removeDriver → d.id.moduleType = .kernelModule →
    isLoaded w d.id.name = false → w.kernel.lists (kernelName d.id.name) = false
  /-- A module whose update succeeds is loaded, or was and still is. -/
  updates : op.action = .updateDriver → d.id.moduleType = .kernelModule →
    ¬ engine.StepFails env op w d →
      (∃ m, engine.LoadsModule env op w d m ∧ m.text = kernelName d.id.name) ∨
        ¬ UnloadsModule env op w d ∧ w.kernel.lists (kernelName d.id.name) = true

/-- The condition on an input: a call keeps the truth, and nothing else writes to
the inventory or the kernel. -/
def TruthfulStep (w : World) : Input → Prop
  | .call env op => ∀ d, engine.Admits env op w.fresh d →
      w.inventory.drivers.find? op.wants = some d → engine.KeepsTruth env op w.fresh d
  | .outside inventory kernel _ _ => inventory = w.inventory ∧ kernel = w.kernel

variable {engine env}

/-- An entry that the call does not write to stays truthful. -/
theorem KeepsTruth.other {op : Operation} {w : World} {d e : DriverEntry}
    (hloads : w.calls Event.isLoadModule = 0) (h : engine.KeepsTruth env op w d)
    (he : e ∈ w.inventory.drivers.eraseP op.wants) (htruth : TellsTruth w.kernel e) :
    TellsTruth (engine.kernelAfter env op w d) e := by
  intro htype
  obtain ⟨hactive, hremoved⟩ := htruth htype
  refine ⟨fun hstatus => ?_, fun hstatus => ?_⟩
  · rw [lists_kernelAfter hloads]
    by_cases hgone : UnloadsModule env op w d ∧ kernelName e.id.name = d.id.name
    · obtain ⟨m, hm, hname⟩ := h.unloads hgone.1 e he htype hstatus hgone.2
      exact Or.inl ⟨m, hm, hname.trans hgone.2.symm⟩
    · exact Or.inr ⟨hactive hstatus, hgone⟩
  · rw [Bool.eq_false_iff, ne_eq, lists_kernelAfter hloads]
    intro hright
    rcases hright with ⟨m, hm, hname⟩ | ⟨hlisted, _⟩
    · exact h.loads m hm e he htype hstatus hname.symm
    · rw [hremoved hstatus] at hlisted
      cases hlisted

/-- A call that fails loads a module only if its driver was loaded before. -/
theorem listed_of_failed_load {op : Operation} {w : World} {d : DriverEntry} {m : ModuleName}
    (hfails : engine.StepFails env op w d) (h : engine.LoadsModule env op w d m) :
    w.kernel.lists (kernelName d.id.name) = true := by
  have hloaded : isLoaded w d.id.name = true ∧ validateModuleName d.id.name = .ok () := by
    cases op with
    | install request caller devices =>
        rcases h with hstep | ⟨hloaded, _, hvalid, _⟩
        · exact absurd hfails hstep.succeeds
        · exact ⟨hloaded, hvalid⟩
    | remove request caller => exact ⟨h.1, h.2.2.1⟩
    | update request caller =>
        simp only [LoadsModule, StepFails] at h hfails
        split_ifs at h hfails with hloaded
        · rcases h with ⟨hunload, _⟩ | ⟨_, hvalid, _⟩
          · exact ⟨hloaded, (unloadOutcome_ok.mp hunload).1⟩
          · exact ⟨hloaded, hvalid⟩
        · exact absurd hfails h.succeeds
  have hlists := isLoaded_of_valid w hloaded.2 ▸ hloaded.1
  rw [kernelName_of_isModuleName (Kernel.isModuleName_of_lists hlists)]
  exact hlists

/-- After a rollback the entry that the call found is truthful. -/
theorem KeepsTruth.rolledBack {op : Operation} {w : World} {d : DriverEntry}
    (hloads : w.calls Event.isLoadModule = 0) (h : engine.KeepsTruth env op w d)
    (hfails : engine.StepFails env op w d) (htruth : TellsTruth w.kernel d) :
    TellsTruth (engine.kernelAfter env op w d) d := by
  intro htype
  obtain ⟨hactive, hremoved⟩ := htruth htype
  refine ⟨fun hstatus => ?_, fun hstatus => ?_⟩
  · rw [lists_kernelAfter hloads]
    by_cases hgone : UnloadsModule env op w d ∧ kernelName d.id.name = d.id.name
    · obtain ⟨m, hm, hname⟩ := h.restores hgone.1 hfails htype hstatus
      exact Or.inl ⟨m, hm, hname.trans hgone.2.symm⟩
    · exact Or.inr ⟨hactive hstatus, hgone⟩
  · rw [Bool.eq_false_iff, ne_eq, lists_kernelAfter hloads]
    intro hright
    rcases hright with ⟨m, hm, _⟩ | ⟨hlisted, _⟩
    · have hlisted := listed_of_failed_load hfails hm
      rw [hremoved hstatus] at hlisted
      cases hlisted
    · rw [hremoved hstatus] at hlisted
      cases hlisted

/-- A completed removal leaves the module unloaded. -/
theorem KeepsTruth.removed {request : RemoveRequest} {caller : String} {w : World}
    {d : DriverEntry} (hloads : w.calls Event.isLoadModule = 0)
    (h : engine.KeepsTruth env (.remove request caller) w d)
    (hdone : ¬ engine.StepFails env (.remove request caller) w d)
    (htype : d.id.moduleType = .kernelModule) :
    (engine.kernelAfter env (.remove request caller) w d).lists (kernelName d.id.name) =
      false := by
  rw [Bool.eq_false_iff, ne_eq, lists_kernelAfter hloads]
  intro hright
  rcases hright with ⟨m, hm, _⟩ | ⟨hlisted, hkept⟩
  · exact hdone hm.2.1
  · cases hloaded : isLoaded w d.id.name with
    | false =>
        rw [h.removes rfl htype hloaded] at hlisted
        cases hlisted
    | true =>
        have hunload : unloadOutcome env w.kernel d.id.name = .ok () := by
          by_contra hne
          refine hdone ?_
          simp only [StepFails, RemoveStepFails, htype]
          exact ⟨hloaded, hne⟩
        have hlists := lists_of_unloadOutcome hunload
        exact hkept ⟨⟨htype, hunload⟩,
          kernelName_of_isModuleName (Kernel.isModuleName_of_lists hlists)⟩

/-- A completed update leaves the module loaded. -/
theorem KeepsTruth.updated {request : UpdateRequest} {caller : String} {w : World}
    {d : DriverEntry} (hloads : w.calls Event.isLoadModule = 0)
    (h : engine.KeepsTruth env (.update request caller) w d)
    (hdone : ¬ engine.StepFails env (.update request caller) w d)
    (htype : d.id.moduleType = .kernelModule) :
    (engine.kernelAfter env (.update request caller) w d).lists (kernelName d.id.name) =
      true := by
  rw [lists_kernelAfter hloads]
  rcases h.updates rfl htype hdone with hload | ⟨hkept, hlisted⟩
  · exact Or.inl hload
  · exact Or.inr ⟨hlisted, fun hgone => hkept hgone.1⟩

/-- After a commit the entry that the call wrote to is truthful. -/
theorem KeepsTruth.committed {op : Operation} {w : World} {d : DriverEntry}
    (hloads : w.calls Event.isLoadModule = 0) (h : engine.KeepsTruth env op w d)
    (hdone : ¬ engine.StepFails env op w d) :
    TellsTruth (engine.kernelAfter env op w d) { d with status := op.newStatus } := by
  intro htype
  cases op with
  | install request caller devices => exact ⟨nofun, nofun⟩
  | remove request caller => exact ⟨nofun, fun _ => h.removed hloads hdone htype⟩
  | update request caller => exact ⟨fun _ => h.updated hloads hdone htype, nofun⟩

end DriverExecutionEngine

/-! ## Runs -/

/-- What a call leaves in the kernel: nothing new, if its checks let no driver pass, and
else what `kernelAfter` says of the driver that passed. -/
theorem kernel_of_performed {engine : DriverExecutionEngine} {env : Env} {op : Operation}
    {w w' : World} {r : OperationResult} (h : engine.Performed env op w.fresh r w') :
    (w'.kernel = w.kernel ∧ ∀ d, ¬ engine.Admits env op w.fresh d) ∨
      ∃ d, engine.Admits env op w.fresh d ∧ w.inventory.drivers.find? op.wants = some d ∧
        w'.kernel = engine.kernelAfter env op w.fresh d := by
  cases h with
  | refused r w' hquiet _ hchecks => exact Or.inl ⟨hquiet.kernel_eq, hchecks⟩
  | executed d w₁ r w' hchecks hquiet _ hfound _ hdone =>
      refine Or.inr ⟨d, hchecks, hfound, ?_⟩
      cases hdone with
      | committed now es hresult _ =>
          exact (DriverExecutionEngine.kernelAfter_of_ok op hresult).symm
      | rolledBack error es hresult _ =>
          rw [DriverExecutionEngine.kernelAfter_of_failed op (by rw [hresult]; simp)]
          exact engine.rollbackKernel_congr env d _ hquiet.kernel_eq hquiet.fs_eq
            hquiet.loads_eq

/-- A call completes exactly if its checks pass and its execute step does not fail. -/
theorem completed_of_performed {engine : DriverExecutionEngine} {env : Env} {op : Operation}
    {w w' : World} {r : OperationResult} (h : engine.Performed env op w.fresh r w') :
    r.status = .completed ↔ ∃ d, engine.Admits env op w.fresh d ∧
      w.inventory.drivers.find? op.wants = some d ∧ ¬ engine.StepFails env op w.fresh d := by
  have hloads : w.fresh.calls Event.isLoadModule = 0 := rfl
  cases h with
  | refused r w' _ hrefused hchecks =>
      refine iff_of_false (fun hc => ?_) fun ⟨d, hadmits, _⟩ => hchecks d hadmits
      cases hrefused.1.symm.trans hc
  | executed d w₁ r w' hchecks _ _ hfound _ hdone =>
      cases hdone with
      | committed now es hresult _ =>
          refine iff_of_true (op.success_status d) ⟨d, hchecks, hfound, fun hfails => ?_⟩
          exact (DriverExecutionEngine.stepFails_iff hloads).mpr hfails hresult
      | rolledBack error es hresult _ =>
          have hfails : engine.StepFails env op w.fresh d :=
            (DriverExecutionEngine.stepFails_iff hloads).mp (by rw [hresult]; simp)
          refine iff_of_false nofun ?_
          intro hright
          obtain ⟨d', hadmits, -, hdone⟩ := hright
          cases hchecks.symm.trans hadmits
          exact hdone hfails

/-- A completed update leaves the module of its driver loaded, and a completed
removal leaves it unloaded. -/
def Settled (op : Operation) (w : World) (r : OperationResult) (w' : World) : Prop :=
  ∀ d, w.inventory.drivers.find? op.wants = some d → d.id.moduleType = .kernelModule →
    r.status = .completed →
      (op.action = .updateDriver → w'.kernel.lists (kernelName d.id.name) = true) ∧
      (op.action = .removeDriver → w'.kernel.lists (kernelName d.id.name) = false)

/-- What a call that keeps the truth leaves behind. -/
theorem truthful_of_performed {engine : DriverExecutionEngine} {env : Env} {op : Operation}
    {w w' : World} {r : OperationResult} (h : engine.Performed env op w.fresh r w')
    (htruth : Truthful w)
    (hkeeps : ∀ d, engine.Admits env op w.fresh d →
      w.inventory.drivers.find? op.wants = some d → engine.KeepsTruth env op w.fresh d) :
    Truthful w' ∧ Settled op w r w' := by
  cases h with
  | refused r w' hquiet hrefused _ =>
      refine ⟨fun e he => ?_, fun d _ _ hcompleted => ?_⟩
      · rw [hquiet.inventory_eq] at he
        rw [hquiet.kernel_eq]
        exact htruth e he
      · rw [hrefused.1] at hcompleted
        cases hcompleted
  | executed d w₁ r w' hchecks hquiet _ hfound _ hdone =>
      have hfound : w.inventory.drivers.find? op.wants = some d := hfound
      have hkeep := hkeeps d hchecks hfound
      have hloads : w.fresh.calls Event.isLoadModule = 0 := rfl
      have hinv : w₁.inventory = w.inventory := hquiet.inventory_eq
      have hother : ∀ e ∈ w.inventory.drivers.eraseP op.wants,
          TellsTruth (engine.kernelAfter env op w.fresh d) e := fun e he =>
        hkeep.other hloads he (htruth e (List.mem_of_mem_eraseP he))
      cases hdone with
      | committed now es hresult _ =>
          have hkernel := DriverExecutionEngine.kernelAfter_of_ok op hresult
          have hstep : ¬ engine.StepFails env op w.fresh d :=
            fun hf => (DriverExecutionEngine.stepFails_iff hloads).mpr hf hresult
          obtain ⟨pre, post, stamp, hsplit, hpre, hcommit⟩ := Operation.commit_split now hfound
          refine ⟨fun e he => ?_, fun d' hfound' htype _ => ?_⟩
          · rw [hinv, hcommit, List.mem_append, List.mem_cons] at he
            rw [hsplit, eraseP_split hpre (List.find?_some hfound), hkernel] at hother
            rcases he with he | rfl | he
            · exact hother e (List.mem_append_left _ he)
            · exact hkernel ▸ hkeep.committed hloads hstep
            · exact hother e (List.mem_append_right _ he)
          · obtain rfl : d' = d := Option.some.inj (hfound'.symm.trans hfound)
            change (_ → (engine.effect env op w.fresh d').kernel.lists _ = true) ∧
              (_ → (engine.effect env op w.fresh d').kernel.lists _ = false)
            rw [← hkernel]
            cases op with
            | install request caller devices => exact ⟨nofun, nofun⟩
            | remove request caller => exact ⟨nofun, fun _ => hkeep.removed hloads hstep htype⟩
            | update request caller => exact ⟨fun _ => hkeep.updated hloads hstep htype, nofun⟩
      | rolledBack error es hresult _ =>
          have hne : (engine.effect env op w.fresh d).result ≠ .ok () := by rw [hresult]; simp
          have hstep := (DriverExecutionEngine.stepFails_iff hloads).mp hne
          have hkernel : engine.rollbackKernel env w₁ d (engine.effect env op w.fresh d) =
              engine.kernelAfter env op w.fresh d := by
            rw [DriverExecutionEngine.kernelAfter_of_failed op hne]
            exact engine.rollbackKernel_congr env d _ hquiet.kernel_eq hquiet.fs_eq
              hquiet.loads_eq
          refine ⟨fun e he => ?_, fun d' _ _ hcompleted => ?_⟩
          · obtain ⟨hd, pre, post, hsplit, hpre⟩ := firstMatch_split hfound
            rw [hsplit, eraseP_split hpre hd, ← hkernel] at hother
            have hself := hkeep.rolledBack hloads hstep (htruth d (by rw [hsplit]; simp))
            rw [← hkernel] at hself
            rw [hinv, Operation.restore_eq_self hfound, hsplit, List.mem_append,
              List.mem_cons] at he
            rcases he with he | rfl | he
            · exact hother e (List.mem_append_left _ he)
            · exact hself
            · exact hother e (List.mem_append_right _ he)
          · cases hcompleted

/-- In every run of a new engine whose calls keep the truth, the inventory agrees
with the kernel after every call if it does so at the beginning, and completed
updates and removals leave the module loaded and unloaded. -/
theorem inventory_truthful_of_run (engine : DriverExecutionEngine)
    (inventory : DriverInventory) (sequence : UInt64) (kernel : Kernel)
    (moduleDirs : ModuleDirs) (fs : FileSystem) (inputs : List Input)
    (htruth : Truthful (World.boot inventory sequence kernel moduleDirs fs))
    (hkeeps : ∀ t ∈ transitions engine.next
      (World.boot inventory sequence kernel moduleDirs fs) inputs,
      engine.TruthfulStep t.before t.input) :
    ∀ t ∈ transitions engine.next (World.boot inventory sequence kernel moduleDirs fs) inputs,
      Truthful t.after ∧ ∀ env op, t.input = .call env op →
        Settled op t.before (engine.result env op t.before) t.after := by
  have hstep : ∀ w input, (w.tracker = .new ∧ Truthful w) → engine.TruthfulStep w input →
      (engine.next input w).tracker = .new ∧ Truthful (engine.next input w) := by
    intro w input hpost hinput
    obtain ⟨htracker, hw⟩ := hpost
    refine ⟨engine.next_tracker input htracker, ?_⟩
    cases input with
    | call env op =>
        exact (truthful_of_performed (engine.performed_of_tracker env op htracker) hw
          hinput).1
    | outside inventory kernel moduleDirs fs =>
        obtain ⟨rfl, rfl⟩ := hinput
        exact hw
  intro t ht
  obtain ⟨⟨htracker, hbefore⟩, _, hafter⟩ :=
    transitions_invariant hstep ⟨rfl, htruth⟩ hkeeps t ht
  refine ⟨hafter, fun env op hinput => ?_⟩
  have hkeep := hkeeps t ht
  rw [hinput] at hkeep
  have hdone := engine.performed_of_tracker env op htracker
  rw [after_eq_of_mem_transitions ht, hinput]
  exact (truthful_of_performed hdone hbefore hkeep).2


/-- The removal of a loaded `e1000e`. -/
theorem removal_truthful :
    Truthful (DriverExecutionEngine.strict.next
        (.call .smooth (.remove ⟨"e1000e", true⟩ ":1.5"))
        (World.boot ⟨[e1000eDriver .active], [], 0⟩ 0 (.ofNames [e1000eModule]) inTreeModules
          .empty)) := by
  refine (inventory_truthful_of_run .strict ⟨[e1000eDriver .active], [], 0⟩ 0
    (.ofNames [e1000eModule]) inTreeModules .empty
    [.call .smooth (.remove ⟨"e1000e", true⟩ ":1.5")] ?_ ?_ _ List.mem_cons_self).1
  · intro e he _
    rw [World.boot, List.mem_singleton] at he
    subst he
    exact ⟨fun _ => rfl, nofun⟩
  · rw [transitions_cons, transitions_nil, List.forall_mem_singleton]
    intro d _ hfound
    cases hfound
    have hunload : unloadOutcome .smooth (.ofNames [e1000eModule]) "e1000e" = .ok () := rfl
    have hstep : ¬ DriverExecutionEngine.RemoveStepFails .smooth
        (World.boot ⟨[e1000eDriver .active], [], 0⟩ 0 (.ofNames [e1000eModule]) inTreeModules
          .empty) (e1000eDriver .active) := fun h => h.2 hunload
    refine ⟨fun m hm => absurd hm.2.1 hstep, fun _ e he => ?_, fun _ h => absurd h hstep,
      fun _ _ h => ?_, nofun⟩
    · cases he
    · cases h

/-- Not every run keeps the truth: the update of a loaded module of the kernel tree
unloads it, finds that it is available, and marks it active. -/
theorem update_marks_unloaded_active :
    ¬ ∀ (engine : DriverExecutionEngine) (inventory : DriverInventory) (sequence : UInt64)
      (kernel : Kernel) (moduleDirs : ModuleDirs) (fs : FileSystem)
      (calls : List (Env × Operation)),
      Truthful (World.boot inventory sequence kernel moduleDirs fs) →
      ∀ t ∈ transitions engine.next (World.boot inventory sequence kernel moduleDirs fs)
          (calls.map fun c => Input.call c.1 c.2), Truthful t.after := by
  intro h
  have htruth := h .strict ⟨[e1000eDriver .active], [], 0⟩ 0 (.ofNames [e1000eModule])
    inTreeModules .empty [(.smooth, .update ⟨"e1000e", none, false⟩ ":1.5")]
    (by
      intro e he _
      rw [World.boot, List.mem_singleton] at he
      subst he
      exact ⟨fun _ => rfl, nofun⟩)
    _ List.mem_cons_self
  have hlost := (htruth (e1000eDriver .active) List.mem_cons_self rfl).1 rfl
  revert hlost
  decide

end MissionOs.Driverd
