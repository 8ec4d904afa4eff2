import MissionOs.Driverd.Effects
import MissionOs.Driverd.Scanner
import MissionOs.Lib.Runs

/-!
# Operations and runs

One type for the three operations of the engine, and the runs of the daemon:
sequences of operations, each with its own outcomes of the outside world, with
changes of the package store and the module directories between them.

`perform_wp` says what one operation does.  It is refused by its checks, or it
passes them with a driver `d` and is then committed or rolled back
(`Transacted`); every result about the engine is a case analysis over these.
-/

namespace MissionOs.Driverd

open MissionOs.Rust MissionOs.Lib

/-! ## The transaction -/

/-- The world once the state of a driver is saved. -/
def World.saving (w : World) (driver : DriverEntry) : World :=
  { w with
    sequence := w.sequence + 1
    tracker := ⟨w.tracker.savedStates ++
      [⟨driver, isLoaded w driver.id.name, "op-" ++ toString w.sequence⟩]⟩ }

theorem saveState_wp {driver : DriverEntry} {Q : String → World → Prop} {w : World} :
    wp (OperationTracker.saveState driver) Q w ↔
      Q ("op-" ++ toString w.sequence) (w.saving driver) := Iff.rfl

namespace DriverExecutionEngine

variable (engine : DriverExecutionEngine) (env : Env)

/-- The package path at the time of the rollback of an execution. -/
def reloadPath (w : World) (driver : DriverEntry) (eff : Effect) : Path :=
  engine.findPackagePath { w with kernel := eff.kernel, fs := eff.fs } driver

/-- How the `load_module` call of a rollback ends. -/
def reload (w : World) (driver : DriverEntry) (eff : Effect) : ServiceResult ModuleName :=
  loadOutcome env (w.calls Event.isLoadModule + eff.loads) eff.kernel eff.fs driver.id.name
    (engine.reloadPath w driver eff)

/-- The kernel after a rollback: a driver that was loaded is loaded again. -/
def rollbackKernel (w : World) (driver : DriverEntry) (eff : Effect) : Kernel :=
  if isLoaded w driver.id.name then eff.kernel.afterLoad (engine.reload env w driver eff)
  else eff.kernel

/-- The kernel after a rollback depends on the kernel, the files and the number of
loads before the execution. -/
theorem rollbackKernel_congr {w w' : World} (driver : DriverEntry) (eff : Effect)
    (hkernel : w'.kernel = w.kernel) (hfs : w'.fs = w.fs)
    (hloads : w'.calls Event.isLoadModule = w.calls Event.isLoadModule) :
    engine.rollbackKernel env w' driver eff = engine.rollbackKernel env w driver eff := by
  have hpath : engine.reloadPath w' driver eff = engine.reloadPath w driver eff :=
    engine.findPackagePath_congr driver rfl rfl
  rw [rollbackKernel, rollbackKernel, isLoaded_congr hkernel hfs, reload, reload, hpath, hloads]

/-- What the second stage of an operation does from `w`, for an execution with
the effect `eff`. -/
inductive Transacted (driver : DriverEntry) (eff : Effect)
    (commit : UInt64 → DriverInventory → DriverInventory) (success : OperationResult)
    (driverName failure : String) (w : World) : OperationResult → World → Prop
  | committed (now : UInt64) (es : List Event) (hresult : eff.result = .ok ())
      (hstaged : ∀ e ∈ es, e.StagedFrom w.fs eff.path) :
      Transacted driver eff commit success driverName failure w success
        { w with
          sequence := w.sequence + 1
          inventory := commit now w.inventory
          tracker := .new
          kernel := eff.kernel
          fs := eff.fs
          trace := w.trace ++ es }
  | rolledBack (e : ServiceError) (es : List Event) (hresult : eff.result = .error e)
      (hstaged : ∀ e ∈ es, e.StagedFrom w.fs eff.path ∨
        isLoaded w driver.id.name = true ∧
          e.StagedFrom eff.fs (some (engine.reloadPath w driver eff))) :
      Transacted driver eff commit success driverName failure w
        (.failed driverName failure e.display)
        { w with
          sequence := w.sequence + 1
          inventory := { w.inventory with
            drivers := setFirst driver.id.same driver w.inventory.drivers }
          tracker := .new
          kernel := engine.rollbackKernel env w driver eff
          fs := eff.fs
          trace := w.trace ++ es }

/-- A commit changes the inventory as `commit` says, and writes an audit event. -/
def Commits (program : StateM World Unit)
    (commit : UInt64 → DriverInventory → DriverInventory) : Prop :=
  ∀ w, wp program (fun _ w' => ∃ now es,
    w' = { w with inventory := commit now w.inventory, trace := w.trace ++ es } ∧
      ∀ e ∈ es, e.isQuiet = true) w

theorem commits_audit {category : EventCategory} {severity : EventSeverity}
    {action subject details : String} {change : World → World}
    {commit : UInt64 → DriverInventory → DriverInventory}
    (hchange : ∀ w, ∃ now, change w = { w with inventory := commit now w.inventory }) :
    Commits (do modify change; audit env category severity action subject details) commit := by
  intro w
  obtain ⟨now, hnow⟩ := hchange w
  rw [wp_bind, wp_modify, hnow]
  exact ⟨now, _, rfl, by simp [Event.isQuiet, Event.isWrite, Event.isLoadModule]⟩

/-- A rollback writes the saved entry back, and loads the driver again if it was
loaded. -/
theorem rollbackOperation_wp {saved : SavedState} {correlationId caller : String} {w : World}
    (hfind : w.tracker.findState correlationId = some saved) :
    wp (engine.rollbackOperation env correlationId caller)
      (fun _ w' => ∃ es,
        w' = { w.restore saved.driver with
          tracker := ⟨w.tracker.savedStates.filter (·.correlationId != correlationId)⟩
          kernel := if saved.wasLoaded then
              w.kernel.afterLoad (loadOutcome env (w.calls Event.isLoadModule) w.kernel w.fs
                saved.driver.id.name (engine.findPackagePath w saved.driver))
            else w.kernel
          trace := w.trace ++ es } ∧
        ∀ e ∈ es, saved.wasLoaded = true ∧
          e.StagedFrom w.fs (some (engine.findPackagePath w saved.driver)) ∨
            e.stagedFile = none) w := by
  rw [rollbackOperation, wp_bind, wp_get, hfind]
  dsimp only
  rw [wp_bind, wp_modify]
  cases hloaded : saved.wasLoaded with
  | false =>
      simp only [Bool.false_eq_true, if_false, false_and, false_or, wp_bind]
      refine audit_wp fun e => ⟨[.audit e], rfl, ?_⟩
      simp [Event.stagedFile]
  | true =>
      simp only [if_true, true_and, wp_bind, wp_get, wp_discard]
      refine wp_mono (loadModule_done env saved.driver.id.name _ _) ?_
      intro _ w₁ hpost
      obtain ⟨_, es, rfl, hes, _⟩ := hpost
      refine audit_wp fun e => ⟨es ++ [.audit e], ?_, ?_⟩
      · simp only [World.record, List.append_assoc]
        rfl
      · rw [List.forall_mem_append, List.forall_mem_singleton]
        exact ⟨fun e he => Or.inl (hes e he), Or.inr rfl⟩

/-- The state that is saved first is found under its id. -/
theorem findState_saving {w : World} (htracker : w.tracker = .new) (driver : DriverEntry) :
    (w.saving driver).tracker.findState ("op-" ++ toString w.sequence) =
      some ⟨driver, isLoaded w driver.id.name, "op-" ++ toString w.sequence⟩ := by
  simp [World.saving, htracker, OperationTracker.new, OperationTracker.findState]

/-- The rule for the second stage of an operation. -/
theorem transact_wp {driver : DriverEntry} {caller : String}
    {execute : StateM World (ServiceResult Unit)} {program : StateM World Unit}
    {commit : UInt64 → DriverInventory → DriverInventory} {success : OperationResult}
    {driverName failure : String} {w : World} {eff : Effect}
    (htracker : w.tracker = .new)
    (hexec : wp execute (fun r w' => eff.Done (w.saving driver) r w') (w.saving driver))
    (hcommit : Commits program commit) :
    wp (engine.transact env driver caller execute program success driverName failure)
      (Transacted engine env driver eff commit success driverName failure w) w := by
  rw [transact, wp_bind, saveState_wp]
  refine wp_bind_of hexec ?_
  intro r w₁ hpost
  obtain ⟨rfl, es, rfl, hstaged, hcount⟩ := hpost
  cases hresult : eff.result with
  | ok u =>
      dsimp only
      refine wp_bind_of (hcommit _) ?_
      intro _ w₂ hpost
      obtain ⟨now, es', rfl, hquiet⟩ := hpost
      simp only [wp_bind, OperationTracker.removeState, wp_modify, wp_pure]
      have hstaged' : ∀ e ∈ es ++ es', e.StagedFrom w.fs eff.path := by
        rw [List.forall_mem_append]
        exact ⟨hstaged, fun e he =>
          Event.stagedFrom_of_none (Event.stagedFile_of_isQuiet (hquiet e he))⟩
      convert Transacted.committed now (es ++ es') hresult hstaged' using 1
      simp [World.saving, htracker, OperationTracker.new]
  | error e =>
      dsimp only
      refine wp_bind_of (engine.rollbackOperation_wp env (findState_saving htracker driver)) ?_
      intro _ w₂ hpost
      obtain ⟨es', rfl, hes'⟩ := hpost
      rw [wp_pure]
      have hstaged' : ∀ e ∈ es ++ es', e.StagedFrom w.fs eff.path ∨
          isLoaded w driver.id.name = true ∧
            e.StagedFrom eff.fs (some (engine.reloadPath w driver eff)) := by
        rw [List.forall_mem_append]
        refine ⟨fun e he => Or.inl (hstaged e he), fun e he => ?_⟩
        rcases hes' e he with h | h
        · exact Or.inr h
        · exact Or.inl (Event.stagedFrom_of_none h)
      have hcalls : World.calls { w.saving driver with
            kernel := eff.kernel, fs := eff.fs, trace := (w.saving driver).trace ++ es }
          Event.isLoadModule = w.calls Event.isLoadModule + eff.loads := by
        rw [World.calls, List.countP_append, hcount]
        rfl
      rw [hcalls]
      convert Transacted.rolledBack e (es ++ es') hresult hstaged' using 1
      simp only [World.restore, World.saving, htracker, OperationTracker.new,
        List.nil_append, List.append_assoc, bne_self_eq_false, Bool.false_eq_true,
        not_false_eq_true, List.filter_cons_of_neg, List.filter_nil]
      rfl

end DriverExecutionEngine

/-! ## The three operations as one -/

/-- A call of the engine. -/
inductive Operation where
  | install (request : InstallRequest) (caller : String) (devices : List HardwareDevice)
  | remove (request : RemoveRequest) (caller : String)
  | update (request : UpdateRequest) (caller : String)
deriving DecidableEq, Repr

namespace Operation

/-- Who makes the call. -/
def caller : Operation → String
  | install _ caller _ => caller
  | remove _ caller => caller
  | update _ caller => caller

/-- The action that the call needs. -/
def action : Operation → DriverAction
  | install _ _ _ => .installDriver
  | remove _ _ => .removeDriver
  | update _ _ => .updateDriver

/-- The test by which the call looks its driver up. -/
def wants : Operation → DriverEntry → Bool
  | install request _ _ => DriverInventory.named request.driverName request.provider
  | remove request _ => fun d => eqIgnoreAsciiCase d.id.name request.driverName
  | update request _ => fun d => eqIgnoreAsciiCase d.id.name request.driverName

/-- The status that the driver gets. -/
def newStatus : Operation → DriverStatus
  | install _ _ _ => .installed
  | remove _ _ => .removed
  | update _ _ => .active

/-- The test by which the commit finds the entry to write to. -/
def writesTo (op : Operation) (d : DriverEntry) : DriverEntry → Bool :=
  match op with
  | install _ _ _ => d.id.same
  | remove _ _ => d.id.same
  | update request _ => DriverExecutionEngine.updateTarget request d

/-- What the commit does to the inventory. -/
def commit (op : Operation) (d : DriverEntry) (now : UInt64) (inv : DriverInventory) :
    DriverInventory :=
  match op with
  | install _ _ _ | remove _ _ =>
    { inv with
      drivers := updateFirst (op.writesTo d) (fun e => { e with status := op.newStatus })
        inv.drivers
      lastScanTimestamp := now }
  | update _ _ =>
    { inv with
      drivers := setFirst (op.writesTo d) { d with status := op.newStatus } inv.drivers }

/-- The result after a commit. -/
def success (op : Operation) (d : DriverEntry) : OperationResult :=
  match op with
  | install _ _ _ =>
    .success d.id.name ("Driver '" ++ d.id.name ++ "' installed successfully")
  | remove _ _ => .success d.id.name ("Driver '" ++ d.id.name ++ "' removed successfully")
  | update request _ =>
    .success request.driverName ("Driver '" ++ request.driverName ++ "' updated successfully")

/-- The driver name in the result after a rollback. -/
def failedName (op : Operation) (d : DriverEntry) : String :=
  match op with
  | install _ _ _ => d.id.name
  | remove _ _ => d.id.name
  | update request _ => request.driverName

/-- The message in the result after a rollback. -/
def failure : Operation → String
  | install _ _ _ => "Installation failed and was rolled back"
  | remove _ _ => "Removal failed and was rolled back"
  | update _ _ => "Update failed and was rolled back"

theorem success_status (op : Operation) (d : DriverEntry) :
    (op.success d).status = .completed := by
  cases op <;> rfl

theorem failure_mem (op : Operation) : op.failure ∈ rolledBackMessages := by
  cases op <;> simp [failure, rolledBackMessages]

end Operation

namespace DriverExecutionEngine

variable (engine : DriverExecutionEngine) (env : Env)

/-- The checks of a call. -/
def checks : Operation → StateM World (Except OperationResult DriverEntry)
  | .install request caller devices => engine.installChecks env request caller devices
  | .remove request caller => engine.removeChecks env request caller
  | .update request caller => engine.updateChecks env request caller

/-- A call. -/
def perform : Operation → StateM World OperationResult
  | .install request caller devices => engine.installDriver env request caller devices
  | .remove request caller => engine.removeDriver env request caller
  | .update request caller => engine.updateDriver env request caller

/-- What the execution of a call does. -/
def effect (op : Operation) (w : World) (d : DriverEntry) : Effect :=
  match op with
  | .install _ _ _ => engine.installEffect env w d
  | .remove _ _ => removeEffect env w d
  | .update _ _ => engine.updateEffect env w d

/-- The checks of a call pass in `w`, with the driver `d`. -/
def Admits (op : Operation) (w : World) (d : DriverEntry) : Prop :=
  ((engine.checks env op).run w).1 = .ok d

/-- What a call does from `w`. -/
inductive Performed (op : Operation) (w : World) : OperationResult → World → Prop
  | refused (r : OperationResult) (w' : World) (hquiet : Quiet w w') (hrefused : r.Refused)
      (hchecks : ∀ d, ¬ engine.Admits env op w d) : Performed op w r w'
  | executed (d : DriverEntry) (w₁ : World) (r : OperationResult) (w' : World)
      (hchecks : engine.Admits env op w d) (hquiet : Quiet w w₁)
      (hgranted : engine.authorizer.Granted env op.action op.caller)
      (hfound : w.inventory.drivers.find? op.wants = some d)
      (hsigned : op.action = .installDriver → engine.Signed env d w w₁)
      (hdone : Transacted engine env d (engine.effect env op w d) (op.commit d) (op.success d)
        (op.failedName d) op.failure w₁ r w') : Performed op w r w'

theorem effect_congr {w w' : World} (op : Operation) (d : DriverEntry)
    (hkernel : w'.kernel = w.kernel) (hdirs : w'.moduleDirs = w.moduleDirs)
    (hfs : w'.fs = w.fs)
    (hloads : w'.calls Event.isLoadModule = w.calls Event.isLoadModule) :
    engine.effect env op w' d = engine.effect env op w d := by
  cases op with
  | install => exact engine.installEffect_congr env d hkernel hdirs hfs hloads
  | remove => exact removeEffect_congr env d hkernel hfs
  | update => exact engine.updateEffect_congr env d hkernel hdirs hfs hloads

/-- What the checks of a call do. -/
theorem checks_wp (op : Operation) (w : World) :
    wp (engine.checks env op)
      (fun r w' => Quiet w w' ∧ match r with
        | .error res => res.Refused
        | .ok d => engine.authorizer.Granted env op.action op.caller ∧
          w.inventory.drivers.find? op.wants = some d ∧
          (op.action = .installDriver → engine.Signed env d w w')) w := by
  cases op with
  | install request caller devices =>
      refine wp_mono (engine.installChecks_wp env request caller devices w) ?_
      intro r w' hpost
      obtain ⟨hq, hr⟩ := hpost
      refine ⟨hq, ?_⟩
      cases r with
      | error res => exact hr
      | ok d => exact ⟨hr.1, hr.2.1, fun _ => hr.2.2.1⟩
  | remove request caller =>
      refine wp_mono (engine.removeChecks_wp env request caller w) ?_
      intro r w' hpost
      obtain ⟨hq, hr⟩ := hpost
      refine ⟨hq, ?_⟩
      cases r with
      | error res => exact hr
      | ok d => exact ⟨hr.1, hr.2, nofun⟩
  | update request caller =>
      refine wp_mono (engine.updateChecks_wp env request caller w) ?_
      intro r w' hpost
      obtain ⟨hq, hr⟩ := hpost
      refine ⟨hq, ?_⟩
      cases r with
      | error res => exact hr
      | ok d => exact ⟨hr.1, hr.2.1, nofun⟩

/-- Checks followed by a second stage, as every call is built: the call ends where the checks
refuse, or the second stage goes on from the world they leave. -/
theorem wp_stages {op : Operation} {w : World} {second : DriverEntry → StateM World OperationResult}
    {Q : OperationResult → World → Prop}
    (herror : ∀ res w₁, (engine.checks env op).run w = (.error res, w₁) → Q res w₁)
    (hok : ∀ d w₁, (engine.checks env op).run w = (.ok d, w₁) → wp (second d) Q w₁) :
    wp (do
        match ← engine.checks env op with
        | .error r => return r
        | .ok d => second d) Q w := by
  rw [wp_bind, wp_def]
  rcases hrun : (engine.checks env op).run w with ⟨r, w₁⟩
  cases r with
  | error res => exact herror res w₁ hrun
  | ok d => exact hok d w₁ hrun

/-- What the second stage does in a call whose checks come first. -/
theorem stages_wp (op : Operation) (w : World)
    (second : DriverEntry → StateM World OperationResult) (htracker : w.tracker = .new)
    (hsecond : ∀ d w₁, w₁.tracker = .new → wp (second d)
      (Transacted engine env d (engine.effect env op (w₁.saving d) d) (op.commit d)
        (op.success d) (op.failedName d) op.failure w₁) w₁) :
    wp (do
        match ← engine.checks env op with
        | .error r => return r
        | .ok d => second d)
      (engine.Performed env op w) w := by
  have hspec := engine.checks_wp env op w
  rw [wp_def] at hspec
  refine engine.wp_stages env (fun res w₁ hrun => ?_) fun d w₁ hrun => ?_
  · rw [hrun] at hspec
    refine .refused res w₁ hspec.1 hspec.2 fun d hd => ?_
    rw [Admits, hrun] at hd
    cases hd
  · rw [hrun] at hspec
    obtain ⟨hquiet, hgranted, hfound, hsigned⟩ := hspec
    refine wp_mono (hsecond d w₁ (hquiet.tracker_eq.trans htracker)) fun r' w' hdone => ?_
    have heff : engine.effect env op (w₁.saving d) d = engine.effect env op w d :=
      engine.effect_congr env op d hquiet.kernel_eq hquiet.moduleDirs_eq hquiet.fs_eq
        hquiet.loads_eq
    rw [heff] at hdone
    exact .executed d w₁ r' w' (by rw [Admits, hrun]) hquiet hgranted hfound hsigned hdone

/-- What one call of the engine does. -/
theorem perform_wp (op : Operation) (w : World) (htracker : w.tracker = .new) :
    wp (engine.perform env op) (engine.Performed env op w) w := by
  cases op with
  | install request caller devices =>
      refine engine.stages_wp env (.install request caller devices) w _ htracker ?_
      intro d w₁ htracker₁
      refine engine.transact_wp env htracker₁ (engine.executeInstall_wp env d _) ?_
      exact commits_audit env fun w => ⟨env.now w.trace.length, rfl⟩
  | remove request caller =>
      refine engine.stages_wp env (.remove request caller) w _ htracker ?_
      intro d w₁ htracker₁
      refine engine.transact_wp env htracker₁ (executeRemove_wp env d request.force _) ?_
      exact commits_audit env fun w => ⟨env.now w.trace.length, rfl⟩
  | update request caller =>
      refine engine.stages_wp env (.update request caller) w _ htracker ?_
      intro d w₁ htracker₁
      refine engine.transact_wp env htracker₁ (engine.executeUpdate_wp env d _) ?_
      exact commits_audit env fun w => ⟨0, rfl⟩

end DriverExecutionEngine

/-! ## Runs -/

/-- What can happen next to the daemon: a call of the engine, with the outcomes
of the outside world, or a change from outside of the engine (a rescan of the
inventory, another program that loads a module or writes a file). -/
inductive Input where
  | call (env : Env) (op : Operation)
  | outside (inventory : DriverInventory) (kernel : Kernel) (moduleDirs : ModuleDirs)
      (fs : FileSystem)

/-- The world when an operation begins: no call is made yet. -/
def World.fresh (w : World) : World := { w with trace := [] }

/-- The world of an engine that was just created. -/
def World.boot (inventory : DriverInventory) (sequence : UInt64) (kernel : Kernel)
    (moduleDirs : ModuleDirs) (fs : FileSystem) : World :=
  ⟨inventory, .new, sequence, kernel, moduleDirs, fs, []⟩

namespace DriverExecutionEngine

variable (engine : DriverExecutionEngine)

/-- The result of a call. -/
def result (env : Env) (op : Operation) (w : World) : OperationResult :=
  ((engine.perform env op).run w.fresh).1

/-- The world after an input. -/
def next : Input → World → World
  | .call env op, w => ((engine.perform env op).run w.fresh).2
  | .outside inventory kernel moduleDirs fs, w =>
    { w.fresh with inventory, kernel, moduleDirs, fs }

variable {engine} in
/-- A call leaves no saved state behind. -/
theorem Performed.tracker_eq {env : Env} {op : Operation} {w w' : World}
    {r : OperationResult} (h : engine.Performed env op w r w') (htracker : w.tracker = .new) :
    w'.tracker = .new := by
  cases h with
  | refused r w' hquiet => exact hquiet.tracker_eq.trans htracker
  | executed d w₁ r w' _ _ _ _ _ hdone =>
      cases hdone <;> rfl

/-- A call from a world without saved states does what `Performed` says. -/
theorem performed_of_tracker (env : Env) (op : Operation) {w : World}
    (htracker : w.tracker = .new) :
    engine.Performed env op w.fresh (engine.result env op w) (engine.next (.call env op) w) :=
  engine.perform_wp env op w.fresh htracker

/-- No saved state is left behind by an input. -/
theorem next_tracker (input : Input) {w : World} (htracker : w.tracker = .new) :
    (engine.next input w).tracker = .new := by
  cases input with
  | call env op => exact (engine.performed_of_tracker env op htracker).tracker_eq htracker
  | outside inventory kernel moduleDirs fs => exact htracker

/-- In every run of a new engine, every call does what `Performed` says. -/
theorem performed_of_run (inventory : DriverInventory) (sequence : UInt64) (kernel : Kernel)
    (moduleDirs : ModuleDirs) (fs : FileSystem) (inputs : List Input) :
    ∀ t ∈ transitions engine.next (World.boot inventory sequence kernel moduleDirs fs) inputs,
      ∀ env op, t.input = .call env op →
        engine.Performed env op t.before.fresh (engine.result env op t.before) t.after := by
  intro t ht env op hinput
  have hinv := transitions_invariant (I := fun w : World => w.tracker = .new)
    (C := fun _ _ => True) (fun w i hw _ => engine.next_tracker i hw) rfl
    (fun _ _ => trivial) t ht
  have hdone := engine.performed_of_tracker env op hinv.1
  rw [after_eq_of_mem_transitions ht, hinput]
  exact hdone

end DriverExecutionEngine

/-! ## A machine without faults -/

/-- An environment in which no system call fails, PolKit grants every request,
no bytes are a kernel module, and no signature is good. -/
def Env.smooth : Env where
  now := fun _ => 0
  polkit := fun _ _ _ => .ok true
  tokioRuntime := true
  readFault := fun _ => none
  procModulesFault := none
  loadFault := fun _ => none
  unloadFault := none
  copyFault := none
  createDirFault := none
  removeFault := none
  notAFile := fun _ => "No such file or directory (os error 2)"
  enumerateAll := .ok []
  imageName := fun _ => none
  isVerifyingKey := fun _ => true
  ed25519Verify := fun _ _ _ => false
  unicodeLowercase := id
  debugStr := fun s => "\"" ++ s ++ "\""

/-- An engine that bypasses no check, with one trusted key. -/
def DriverExecutionEngine.strict : DriverExecutionEngine where
  authorizer := ⟨false, some ⟨true, false⟩⟩
  packageStore := ⟨Path.new "/var/cache/mission/driverd/packages", 1000000000⟩
  signatureVerifier :=
    ⟨⟨[⟨"mission", "Mission release key", List.replicate 32 0, true⟩], by simp⟩, false⟩
  conflictDetector := ⟨⟨"6.8.0", "x86_64", []⟩, id⟩
  allowUnsigned := false

/-- The loaded modules `names`, none of them built in. -/
def Kernel.ofNames (names : List ModuleName) : Kernel :=
  ⟨names.map fun name => ⟨name, 245760, 0, [], .live, false⟩⟩

/-- The module name of `e1000e`. -/
def e1000eModule : ModuleName := ⟨"e1000e", by decide⟩

/-- A module tree in which `e1000e` is installed. -/
def inTreeModules : ModuleDirs :=
  ⟨some [.dir "drivers" [.file "e1000e.ko.zst"]], none, none⟩

end MissionOs.Driverd
