import MissionOs.Driverd.Execution

/-!
# What the stages of an operation do

One specification for each stage of the engine, so that the results about the
operations never unfold them.

* The checks only look (`Quiet`), and end with a refusal or with the entry that
  the lookup of the operation finds.
* `installEffect`, `removeEffect` and `updateEffect` say in one expression what
  an execution does to the kernel and the files; `executeInstall_wp` and the
  lemmas beside it say that the execution does so.
* `transact_wp` is the rule for the second stage: after an execution that
  succeeds the commit runs, and after one that fails the entry is written back
  and a module that was loaded is loaded again (`Effect.rollback`).
-/

namespace MissionOs.Driverd

open MissionOs.Rust MissionOs.Lib

/-! ## Staged files in a trace -/

/-- If the call hands a staged file on, it is the one at `p`, with the bytes
that are there. -/
def Event.StagedFrom (fs : FileSystem) (p : Option Path) (e : Event) : Prop :=
  ∀ q data, e.stagedFile = some (q, data) → p = some q ∧ fs.get? q = some data

theorem Event.stagedFrom_of_none {fs : FileSystem} {p : Option Path} {e : Event}
    (h : e.stagedFile = none) : e.StagedFrom fs p := by
  intro q data hq
  rw [h] at hq
  cases hq

theorem Event.stagedFrom_loadModule (fs : FileSystem) (name : String) (p : Path) :
    (Event.loadModule name p (fs.get? p)).StagedFrom fs (some p) := by
  intro q data hq
  cases hget : fs.get? p with
  | none => simp [hget, stagedFile] at hq
  | some bytes =>
      rw [hget] at hq
      simp only [stagedFile, Option.some.injEq, Prod.mk.injEq] at hq
      exact ⟨congrArg some hq.1, by rw [← hq.1, hget, hq.2]⟩

theorem Event.stagedFrom_copyFile (fs : FileSystem) (p dest : Path) :
    (Event.copyFile p dest (fs.get? p)).StagedFrom fs (some p) := by
  intro q data hq
  cases hget : fs.get? p with
  | none => simp [hget, stagedFile] at hq
  | some bytes =>
      rw [hget] at hq
      simp only [stagedFile, Option.some.injEq, Prod.mk.injEq] at hq
      exact ⟨congrArg some hq.1, by rw [← hq.1, hget, hq.2]⟩

/-! ## Effects -/

/-- What an execution does: how it ends, the kernel and the files after it, how
many `load_module` calls it makes, and the package file that it hands on, if it
hands one on. -/
structure Effect where
  result : ServiceResult Unit
  kernel : Kernel
  fs : FileSystem
  loads : Nat
  path : Option Path

/-- An execution from `w` that ended with `r` in `w'` did what `eff` says, and
changed nothing else. -/
def Effect.Done (eff : Effect) (w : World) (r : ServiceResult Unit) (w' : World) : Prop :=
  r = eff.result ∧ ∃ es,
    w' = { w with kernel := eff.kernel, fs := eff.fs, trace := w.trace ++ es } ∧
      (∀ e ∈ es, e.StagedFrom w.fs eff.path) ∧ es.countP Event.isLoadModule = eff.loads

/-- An execution that makes no call does nothing. -/
theorem Effect.done_idle (w : World) (r : ServiceResult Unit) :
    (Effect.mk r w.kernel w.fs 0 none).Done w r w :=
  ⟨rfl, [], by simp, by simp, rfl⟩

/-- A `load_module` call, as an effect. -/
theorem loadModule_done (env : Env) (name : String) (path : Path) (w : World) :
    wp (loadModule env name path [])
      (fun r w' =>
        let outcome := loadOutcome env (w.calls Event.isLoadModule) w.kernel w.fs name path
        (Effect.mk (outcome.map fun _ => ()) (w.kernel.afterLoad outcome) w.fs 1
          (some path)).Done
          w r w') w := by
  refine wp_mono (loadModule_spec env name path [] w) ?_
  intro r w' hpost
  obtain ⟨hr, es, hw', hes⟩ := hpost
  have hnone : es.countP Event.isLoadModule = 0 :=
    List.countP_eq_zero.mpr fun e he => by simp [(hes e he).2]
  refine ⟨hr, _, hw', ?_, by rw [List.countP_cons, hnone]; rfl⟩
  rw [List.forall_mem_cons]
  exact ⟨Event.stagedFrom_loadModule _ _ _, fun e he => Event.stagedFrom_of_none (hes e he).1⟩

/-- An `unload_module` call, as an effect. -/
theorem unloadModule_done (env : Env) (name : String) (force : Bool) (w : World) :
    wp (unloadModule env name force)
      (fun r w' =>
        let outcome := unloadOutcome env w.kernel name
        (Effect.mk outcome (w.kernel.afterUnload name outcome) w.fs 0 none).Done w r w') w := by
  refine wp_mono (unloadModule_spec env name force w) ?_
  intro r w' hpost
  obtain ⟨hr, es, hw', hes⟩ := hpost
  refine ⟨hr, es, hw', fun e he => Event.stagedFrom_of_none (hes e he).1, ?_⟩
  exact List.countP_eq_zero.mpr fun e he => by simp [(hes e he).2]

/-- Calls that hand nothing on do not count as loads. -/
theorem countP_isLoadModule_append (l : List Event) {es : List Event}
    (hes : ∀ e ∈ es, e.stagedFile = none ∧ e.isLoadModule = false) :
    (l ++ es).countP Event.isLoadModule = l.countP Event.isLoadModule := by
  have hnone : es.countP Event.isLoadModule = 0 :=
    List.countP_eq_zero.mpr fun e he => by simp [(hes e he).2]
  rw [List.countP_append, hnone, Nat.add_zero]

/-- What is done after calls that hand nothing on is done by all of them. -/
theorem Effect.Done.preceded {eff : Effect} {w w' : World} {r : ServiceResult Unit}
    {k : Kernel} {es : List Event}
    (hes : ∀ e ∈ es, e.stagedFile = none ∧ e.isLoadModule = false)
    (h : eff.Done { w with kernel := k, trace := w.trace ++ es } r w') : eff.Done w r w' := by
  obtain ⟨hr, es', rfl, hstaged, hcount⟩ := h
  refine ⟨hr, es ++ es', by simp, ?_, ?_⟩
  · rw [List.forall_mem_append]
    exact ⟨fun e he => Event.stagedFrom_of_none (hes e he).1, hstaged⟩
  · rw [List.countP_append, List.countP_eq_zero.mpr fun e he => by simp [(hes e he).2],
      Nat.zero_add, hcount]

/-- The files after `createParent`. -/
def withParent (env : Env) (fs : FileSystem) (dest : Path) : FileSystem :=
  match dest.parent, env.createDirFault with
  | some parent, none => fs.makeDirs parent
  | _, _ => fs

@[simp] theorem get?_withParent (env : Env) (fs : FileSystem) (dest p : Path) :
    (withParent env fs dest).get? p = fs.get? p := by
  unfold withParent
  split <;> rfl

theorem createParent_wp (env : Env) (dest : Path) (w : World) :
    wp (createParent env dest)
      (fun _ w' => ∃ es,
        w' = { w with fs := withParent env w.fs dest, trace := w.trace ++ es } ∧
          ∀ e ∈ es, e.stagedFile = none ∧ e.isLoadModule = false) w := by
  rw [createParent, withParent]
  cases dest.parent with
  | none =>
      simp only [wp_pure]
      exact ⟨[], by simp, by simp⟩
  | some parent =>
      simp only [wp_discard, createDirAll, wp_bind, emit, wp_modify]
      cases env.createDirFault with
      | some e =>
          simp only [wp_pure]
          exact ⟨[.createDirAll parent], rfl, by simp [Event.stagedFile, Event.isLoadModule]⟩
      | none =>
          simp only [wp_bind, wp_modify, wp_pure]
          exact ⟨[.createDirAll parent], rfl, by simp [Event.stagedFile, Event.isLoadModule]⟩

/-- The world once the module of a driver is unloaded. -/
def World.unloaded (w : World) (driver : DriverEntry) : World :=
  { w with kernel := w.kernel.erase driver.id.name }

namespace DriverExecutionEngine

variable (engine : DriverExecutionEngine) (env : Env)

/-- What `execute_install` does. -/
def installEffect (w : World) (driver : DriverEntry) : Effect :=
  let path := engine.findPackagePath w driver
  match driver.id.moduleType with
  | .kernelModule =>
    if w.pathExists path then
      let outcome := loadOutcome env (w.calls Event.isLoadModule) w.kernel w.fs
        driver.id.name path
      ⟨outcome.map (fun _ => ()), w.kernel.afterLoad outcome, w.fs, 1, some path⟩
    else if moduleAvailable w driver.id.name then
      ⟨.ok (), w.kernel, w.fs, 0, none⟩
    else
      ⟨.error (.notFound ("Module file for '" ++ driver.id.name ++ "' not found")),
        w.kernel, w.fs, 0, none⟩
  | .firmware =>
    let dest := firmwarePath driver.id.name
    let copied := copyOutcome env (withParent env w.fs dest) path dest
    ⟨copied.1.mapError (fun e => .internal ("cannot install firmware: " ++ e)),
      w.kernel, copied.2, 0, some path⟩
  | .userspace => ⟨.ok (), w.kernel, w.fs, 0, none⟩
  | .deviceTreeOverlay =>
    ⟨.error (.notSupported "Device tree overlay installation is not supported in M2-D"),
      w.kernel, w.fs, 0, none⟩

/-- What `execute_remove` does. -/
def removeEffect (env : Env) (w : World) (driver : DriverEntry) : Effect :=
  match driver.id.moduleType with
  | .kernelModule =>
    if isLoaded w driver.id.name then
      let outcome := unloadOutcome env w.kernel driver.id.name
      ⟨outcome, w.kernel.afterUnload driver.id.name outcome, w.fs, 0, none⟩
    else
      ⟨.ok (), w.kernel, w.fs, 0, none⟩
  | .firmware =>
    if w.pathExists (firmwarePath driver.id.name) then
      match removeOutcome env w.fs (firmwarePath driver.id.name) with
      | .error e =>
        ⟨.error (.internal ("cannot remove firmware: " ++ e)), w.kernel, w.fs, 0, none⟩
      | .ok () => ⟨.ok (), w.kernel, w.fs.remove (firmwarePath driver.id.name), 0, none⟩
    else
      ⟨.ok (), w.kernel, w.fs, 0, none⟩
  | .userspace => ⟨.ok (), w.kernel, w.fs, 0, none⟩
  | .deviceTreeOverlay =>
    ⟨.error (.notSupported "Device tree overlay removal is not supported in M2-D"),
      w.kernel, w.fs, 0, none⟩

/-- What `execute_update` does. -/
def updateEffect (w : World) (driver : DriverEntry) : Effect :=
  if isLoaded w driver.id.name then
    match unloadOutcome env w.kernel driver.id.name with
    | .error e => ⟨.error e, w.kernel, w.fs, 0, none⟩
    | .ok () => engine.installEffect env (w.unloaded driver) driver
  else
    engine.installEffect env w driver

/-- An installation that failed left the kernel as it was. -/
theorem kernel_of_failed_install {w : World} {driver : DriverEntry}
    (h : (engine.installEffect env w driver).result ≠ .ok ()) :
    (engine.installEffect env w driver).kernel = w.kernel := by
  rw [installEffect] at h ⊢
  cases htype : driver.id.moduleType with
  | kernelModule =>
      simp only [htype] at h ⊢
      split_ifs at h ⊢ with hex hav
      · cases hload : loadOutcome env (w.calls Event.isLoadModule) w.kernel w.fs driver.id.name
            (engine.findPackagePath w driver) with
        | ok m => simp [hload, Except.map] at h
        | error e => rfl
      · rfl
      · rfl
  | firmware => rfl
  | userspace => rfl
  | deviceTreeOverlay => rfl

/-- The package path depends on the kernel and the files. -/
theorem findPackagePath_congr {w w' : World} (driver : DriverEntry)
    (hkernel : w'.kernel = w.kernel) (hfs : w'.fs = w.fs) :
    engine.findPackagePath w' driver = engine.findPackagePath w driver := by
  simp only [findPackagePath, World.pathExists_congr hkernel hfs]

/-- The effect of an installation depends on the kernel, the files and the
number of loads before it. -/
theorem installEffect_congr {w w' : World} (driver : DriverEntry)
    (hkernel : w'.kernel = w.kernel) (hdirs : w'.moduleDirs = w.moduleDirs)
    (hfs : w'.fs = w.fs)
    (hloads : w'.calls Event.isLoadModule = w.calls Event.isLoadModule) :
    engine.installEffect env w' driver = engine.installEffect env w driver := by
  have havailable : moduleAvailable w' driver.id.name = moduleAvailable w driver.id.name := by
    rw [moduleAvailable, moduleAvailable, hdirs]
  simp only [installEffect, engine.findPackagePath_congr driver hkernel hfs, havailable,
    World.pathExists_congr hkernel hfs, hkernel, hfs, hloads]

/-- The effect of a removal depends on the kernel and the files. -/
theorem removeEffect_congr {w w' : World} (driver : DriverEntry)
    (hkernel : w'.kernel = w.kernel) (hfs : w'.fs = w.fs) :
    removeEffect env w' driver = removeEffect env w driver := by
  simp only [removeEffect, World.pathExists_congr hkernel hfs, isLoaded_congr hkernel hfs,
    hkernel, hfs]

/-- The effect of an update depends on the kernel, the files and the number of
loads before it. -/
theorem updateEffect_congr {w w' : World} (driver : DriverEntry)
    (hkernel : w'.kernel = w.kernel) (hdirs : w'.moduleDirs = w.moduleDirs)
    (hfs : w'.fs = w.fs)
    (hloads : w'.calls Event.isLoadModule = w.calls Event.isLoadModule) :
    engine.updateEffect env w' driver = engine.updateEffect env w driver := by
  have hinstall := engine.installEffect_congr env driver hkernel hdirs hfs hloads
  have herased : engine.installEffect env (w'.unloaded driver) driver =
      engine.installEffect env (w.unloaded driver) driver :=
    engine.installEffect_congr env driver (by simp only [World.unloaded, hkernel]) hdirs hfs
      hloads
  simp only [updateEffect, isLoaded_congr hkernel hfs, hinstall, herased, hkernel, hfs]

/-- `execute_install` does what `installEffect` says. -/
theorem executeInstall_wp (driver : DriverEntry) (w : World) :
    wp (engine.executeInstall env driver)
      (fun r w' => (engine.installEffect env w driver).Done w r w') w := by
  rw [executeInstall, wp_bind, wp_get, installEffect]
  cases driver.id.moduleType with
  | kernelModule =>
      dsimp only
      rw [wp_ite]
      refine ⟨fun hex => ?_, fun hex => ?_⟩
      · rw [if_pos hex]
        exact loadModule_done env driver.id.name _ w
      · rw [if_neg hex, wp_ite]
        refine ⟨fun hav => ?_, fun hav => ?_⟩
        · rw [if_pos hav]
          exact Effect.done_idle _ _
        · rw [if_neg hav]
          exact Effect.done_idle _ _
  | firmware =>
      dsimp only
      refine wp_bind_of (createParent_wp env _ w) ?_
      intro _ w₁ hpost
      obtain ⟨es, rfl, hes⟩ := hpost
      rw [wp_bind, copyFile_wp]
      have hes' : ∀ e ∈ es ++ [Event.copyFile (engine.findPackagePath w driver)
          (firmwarePath driver.id.name) (w.fs.get? (engine.findPackagePath w driver))],
          e.StagedFrom w.fs (some (engine.findPackagePath w driver)) := by
        rw [List.forall_mem_append, List.forall_mem_singleton]
        exact ⟨fun e he => Event.stagedFrom_of_none (hes e he).1,
          Event.stagedFrom_copyFile _ _ _⟩
      have hcount : (es ++ [Event.copyFile (engine.findPackagePath w driver)
          (firmwarePath driver.id.name) (w.fs.get? (engine.findPackagePath w driver))]).countP
          Event.isLoadModule = 0 := by
        rw [List.countP_append, List.countP_eq_zero.mpr fun e he => by simp [(hes e he).2]]
        rfl
      simp only [get?_withParent]
      cases hcopy : copyOutcome env (withParent env w.fs (firmwarePath driver.id.name))
          (engine.findPackagePath w driver) (firmwarePath driver.id.name) with
      | mk r fs =>
          cases r with
          | error e =>
              simp only [wp_pure]
              exact ⟨rfl, _, by simp, hes', hcount⟩
          | ok u =>
              simp only [wp_pure]
              exact ⟨rfl, _, by simp, hes', hcount⟩
  | userspace => exact Effect.done_idle _ _
  | deviceTreeOverlay => exact Effect.done_idle _ _

/-- `execute_remove` does what `removeEffect` says. -/
theorem executeRemove_wp (driver : DriverEntry) (force : Bool) (w : World) :
    wp (executeRemove env driver force)
      (fun r w' => (removeEffect env w driver).Done w r w') w := by
  rw [executeRemove, wp_bind, wp_get, removeEffect]
  cases driver.id.moduleType with
  | kernelModule =>
      dsimp only
      rw [wp_ite]
      refine ⟨fun hl => ?_, fun hl => ?_⟩
      · rw [if_pos hl]
        exact unloadModule_done env driver.id.name force w
      · rw [if_neg hl]
        exact Effect.done_idle _ _
  | firmware =>
      dsimp only
      rw [wp_ite]
      refine ⟨fun hex => ?_, fun hex => ?_⟩
      · rw [if_pos hex]
        simp only [wp_bind, removeFile, emit, wp_modify, wp_get, World.record_fs]
        cases removeOutcome env w.fs (firmwarePath driver.id.name) with
        | error e =>
            simp only [wp_pure]
            exact ⟨rfl, [.removeFile _], rfl, by simp [Event.StagedFrom, Event.stagedFile], rfl⟩
        | ok u =>
            simp only [wp_bind, wp_modify, wp_pure]
            exact ⟨rfl, [.removeFile _], rfl, by simp [Event.StagedFrom, Event.stagedFile], rfl⟩
      · rw [if_neg hex]
        exact Effect.done_idle _ _
  | userspace => exact Effect.done_idle _ _
  | deviceTreeOverlay => exact Effect.done_idle _ _

/-- `execute_update` does what `updateEffect` says. -/
theorem executeUpdate_wp (driver : DriverEntry) (w : World) :
    wp (engine.executeUpdate env driver)
      (fun r w' => (engine.updateEffect env w driver).Done w r w') w := by
  rw [executeUpdate, wp_bind, wp_get, updateEffect, wp_ite]
  refine ⟨fun hl => ?_, fun hl => ?_⟩
  · rw [if_pos hl]
    refine wp_bind_of (unloadModule_spec env driver.id.name false w) ?_
    intro r w₁ hpost
    obtain ⟨rfl, es, rfl, hes⟩ := hpost
    cases unloadOutcome env w.kernel driver.id.name with
    | error e =>
        refine ⟨rfl, es, rfl, fun e he => Event.stagedFrom_of_none (hes e he).1, ?_⟩
        exact List.countP_eq_zero.mpr fun e he => by simp [(hes e he).2]
    | ok u =>
        refine wp_mono (engine.executeInstall_wp env driver _) ?_
        intro r w' hdone
        rw [Kernel.afterUnload] at hdone
        have heff : engine.installEffect env (w.unloaded driver) driver =
            engine.installEffect env
              { w with kernel := w.kernel.erase driver.id.name, trace := w.trace ++ es }
              driver :=
          engine.installEffect_congr env driver rfl rfl rfl
            (countP_isLoadModule_append w.trace hes).symm
        dsimp only
        rw [heff]
        exact hdone.preceded hes
  · rw [if_neg hl]
    exact engine.executeInstall_wp env driver w

/-! ## The checks -/

end DriverExecutionEngine

/-- The messages of an operation that failed in its second stage. -/
def rolledBackMessages : List String :=
  ["Installation failed and was rolled back", "Removal failed and was rolled back",
    "Update failed and was rolled back"]

/-- An operation that its checks refused. -/
def OperationResult.Refused (r : OperationResult) : Prop :=
  r.status = .failed ∧ r.message ∉ rolledBackMessages

theorem refused_failed {driverName message error : String}
    (h : message ∉ rolledBackMessages) :
    (OperationResult.failed driverName message error).Refused :=
  ⟨rfl, h⟩

theorem failOperation_wp {α : Type} {env : Env} {driverName message error caller : String}
    {category : EventCategory} {Q : Except OperationResult α → World → Prop} {w : World}
    (h : ∀ w', Quiet w w' → Q (.error (.failed driverName message error)) w') :
    wp (failOperation env driverName message error caller category) Q w :=
  (quiet_audit ..).wp_bind fun _ w' hq => h w' hq

theorem quiet_getLoadedModules (env : Env) : Keeps Quiet (getLoadedModules env) := by
  refine Keeps.bind (Keeps.bind (Logs.emit rfl) fun _ => Keeps.bind Keeps.get fun _ => ?_)
    fun _ => Keeps.pure _
  cases env.procModulesFault <;> exact Keeps.pure _

/-- The names of the modules that `/proc/modules` lists as live, none if the file cannot
be read. -/
def liveModules (env : Env) (kernel : Kernel) : List String :=
  match env.procModulesFault with
  | some _ => []
  | none =>
    (((lines kernel.procModules.toList).filterMap ModuleInfo.ofLine).filter
      (·.state = .live)).map (·.name)

theorem getLoadedModules_wp (env : Env) (w : World) :
    wp (getLoadedModules env)
      (fun modules w' => Quiet w w' ∧ modules = liveModules env w.kernel) w := by
  refine wp_and ((quiet_getLoadedModules env).wp w) ?_
  simp only [getLoadedModules, listModules, emit, liveModules, wp_bind, wp_modify, wp_get]
  cases env.procModulesFault with
  | none => exact rfl
  | some e => exact rfl

/-- The version that a request names is not below the one that `driver` records, unless
the request allows a downgrade. -/
def UpdateRequest.NoDowngrade (request : UpdateRequest) (driver : DriverEntry) : Prop :=
  request.allowDowngrade = false → ∀ target v, request.targetVersion = some target →
    DriverVersion.parse target = .ok v → driver.id.version.gt v = false

namespace DriverExecutionEngine

variable (engine : DriverExecutionEngine) (env : Env)

/-- The beginning of an operation only looks, and lets a request pass that is valid and whose
caller is granted the action. -/
theorem startOperation_wp {category : EventCategory} {event details : String}
    {action : DriverAction} {denied invalid driverName caller : String}
    {validation : ServiceResult Unit}
    {next : StateM World (Except OperationResult DriverEntry)}
    {Q : Except OperationResult DriverEntry → World → Prop} {w : World}
    (hdenied : denied ∉ rolledBackMessages) (hinvalid : invalid ∉ rolledBackMessages)
    (hrefused : ∀ r w', Quiet w w' → r.Refused → Q (.error r) w')
    (hnext : ∀ w', Quiet w w' → validation = .ok () →
      engine.authorizer.Granted env action caller → wp next Q w') :
    wp (engine.startOperation env category event details action denied invalid driverName
      caller validation next) Q w := by
  unfold startOperation
  refine Keeps.wp_bind Logs.nextSequence fun _ w₁ (h₁ : Quiet w w₁) => ?_
  refine (quiet_audit ..).wp_bind fun _ w₂ h₂ => ?_
  refine wp_bind_of (engine.authorizer.authorize_wp env action caller w₂) ?_
  intro auth w₃ hpost
  obtain ⟨h₃, hauth⟩ := hpost
  have h : Quiet w w₃ := (h₁.trans h₂).trans h₃.quiet
  rw [wp_ite]
  refine ⟨fun _ => failOperation_wp fun w' hq =>
    hrefused _ w' (h.trans hq) (refused_failed hdenied), fun hgranted => ?_⟩
  cases validation with
  | error e =>
      exact failOperation_wp fun w' hq =>
        hrefused _ w' (h.trans hq) (refused_failed hinvalid)
  | ok u => exact hnext w₃ h rfl ⟨_, by simpa [hauth] using hgranted⟩

/-- The package of `d` carries a good signature, where one is asked for. -/
def Signed (d : DriverEntry) (w w' : World) : Prop :=
  engine.allowUnsigned = false → engine.signatureVerifier.allowUnsigned = false →
    d.id.moduleType = .kernelModule ∨ d.id.moduleType = .firmware →
    ∃ data, w.fs.get? (engine.findPackagePath w d) = some data ∧
      engine.signatureVerifier.Vouches env w'.trace (engine.findPackagePath w d) data

theorem quiet_readPackageSignature (driver : DriverEntry) :
    Keeps Quiet (engine.readPackageSignature env driver) :=
  Keeps.bind Keeps.get fun _ => Keeps.bind (quiet_readFile ..) fun _ => Keeps.pure _

theorem checkSignature_wp (request : InstallRequest) (caller : String) (driver : DriverEntry)
    (w : World) :
    wp (engine.checkSignature env request caller driver)
      (fun r w' => Quiet w w' ∧ match r with
        | .error res => res.Refused
        | .ok d => d = driver ∧ engine.Signed env driver w w') w := by
  rw [checkSignature, wp_ite]
  refine ⟨fun htype => ?_, fun htype => ?_⟩
  · rw [wp_bind, wp_get]
    refine (engine.quiet_readPackageSignature env driver).wp_bind fun signature w₁ h₁ => ?_
    have hquiet := verifyPackage_quiet env engine.signatureVerifier
      (engine.findPackagePath w driver) signature none
    by_cases hstrict : engine.signatureVerifier.allowUnsigned = false
    · have hvalid := verifyPackage_valid env engine.signatureVerifier
        (engine.findPackagePath w driver) signature none hstrict w₁
      refine wp_bind_of (wp_and (hquiet.wp w₁) hvalid) ?_
      intro result w₂ hpost
      obtain ⟨h₂, hsigned⟩ := hpost
      rw [wp_ite]
      refine ⟨fun _ => failOperation_wp fun w' hq =>
        ⟨(h₁.trans h₂).trans hq, refused_failed (by decide)⟩, fun hpass => ?_⟩
      refine ⟨h₁.trans h₂, rfl, fun hunsigned _ _ => ?_⟩
      rw [← h₁.fs_eq]
      exact hsigned (by simpa [hunsigned] using hpass)
    · refine hquiet.wp_bind fun result w₂ h₂ => ?_
      rw [wp_ite]
      refine ⟨fun _ => failOperation_wp fun w' hq =>
        ⟨(h₁.trans h₂).trans hq, refused_failed (by decide)⟩, fun _ => ?_⟩
      exact ⟨h₁.trans h₂, rfl, fun _ h => absurd h hstrict⟩
  · refine ⟨Std.Refl.refl w, rfl, fun _ _ h => absurd ?_ htype⟩
    simpa using h

/-- Before the check of the signature an installation only looks, and it ends with a refusal or,
for a valid request, with the driver that `find_driver` finds; an unforced one has no conflict. -/
theorem beforeCheck_wp (request : InstallRequest) (caller : String)
    (hardwareDevices : List HardwareDevice) (w : World) :
    wp (engine.beforeCheck env request caller hardwareDevices)
      (fun r w' => Quiet w w' ∧ match r with
        | .error res => res.Refused
        | .ok d => request.validate = .ok () ∧
          engine.authorizer.Granted env .installDriver caller ∧
          w.inventory.findDriver request.driverName request.provider = some d ∧
          (request.force = false →
            (engine.conflictDetector.checkInstall d w.inventory.drivers
              (liveModules env w.kernel) hardwareDevices).hasConflicts = false)) w := by
  refine engine.startOperation_wp env (by decide) (by decide)
    (fun r w' hq hr => ⟨hq, hr⟩) fun w₁ h₁ hvalid hgranted => ?_
  rw [wp_bind, wp_get, h₁.inventory_eq]
  cases hfind : w.inventory.findDriver request.driverName request.provider with
  | none => exact failOperation_wp fun w' hq => ⟨h₁.trans hq, refused_failed (by decide)⟩
  | some driver =>
  refine wp_bind_of (getLoadedModules_wp env w₁) fun modules w₂ h₂ => ?_
  obtain ⟨h₂, rfl⟩ := h₂
  have h := h₁.trans h₂
  rw [wp_ite]
  refine ⟨fun _ => failOperation_wp fun w' hq => ⟨h.trans hq, refused_failed (by decide)⟩,
    fun hpass => ?_⟩
  rw [h₁.kernel_eq] at hpass
  exact ⟨h, hvalid, hgranted, rfl, fun hforce => by simpa [hforce] using hpass⟩

/-- The checks of an installation only look, and end with a refusal or with the
driver that `find_driver` finds; an unforced one has no conflict. -/
theorem installChecks_wp (request : InstallRequest) (caller : String)
    (hardwareDevices : List HardwareDevice) (w : World) :
    wp (engine.installChecks env request caller hardwareDevices)
      (fun r w' => Quiet w w' ∧ match r with
        | .error res => res.Refused
        | .ok d => engine.authorizer.Granted env .installDriver caller ∧
          w.inventory.findDriver request.driverName request.provider = some d ∧
          engine.Signed env d w w' ∧ (request.force = false →
            (engine.conflictDetector.checkInstall d w.inventory.drivers
              (liveModules env w.kernel) hardwareDevices).hasConflicts = false)) w := by
  refine wp_bind_of (engine.beforeCheck_wp env request caller hardwareDevices w) ?_
  intro r w₁ hpost
  obtain ⟨h, hr⟩ := hpost
  cases r with
  | error res => exact ⟨h, hr⟩
  | ok driver =>
      obtain ⟨-, hgranted, hfind, hclear⟩ := hr
      refine wp_mono (engine.checkSignature_wp env request caller driver w₁) ?_
      intro r w' hpost
      obtain ⟨hq, hr⟩ := hpost
      refine ⟨h.trans hq, ?_⟩
      cases r with
      | error res => exact hr
      | ok d =>
          obtain ⟨rfl, hsigned⟩ := hr
          refine ⟨hgranted, hfind, fun hu hv ht => ?_, hclear⟩
          have hsigned := hsigned hu hv ht
          rw [engine.findPackagePath_congr d h.kernel_eq h.fs_eq, h.fs_eq] at hsigned
          exact hsigned

/-- The checks of a removal only look, and end with a refusal or with the first
driver of the name. -/
theorem removeChecks_wp (request : RemoveRequest) (caller : String) (w : World) :
    wp (engine.removeChecks env request caller)
      (fun r w' => Quiet w w' ∧ match r with
        | .error res => res.Refused
        | .ok d => engine.authorizer.Granted env .removeDriver caller ∧
          w.inventory.findNamed request.driverName = some d) w := by
  refine engine.startOperation_wp env (by decide) (by decide)
    (fun r w' hq hr => ⟨hq, hr⟩) fun w₁ h₁ _ hgranted => ?_
  rw [wp_bind, wp_get, h₁.inventory_eq]
  cases hfind : w.inventory.findNamed request.driverName with
  | none => exact failOperation_wp fun w' hq => ⟨h₁.trans hq, refused_failed (by decide)⟩
  | some driver =>
  refine (quiet_getLoadedModules env).wp_bind fun modules w₂ h₂ => ?_
  have h := h₁.trans h₂
  rw [wp_ite]
  refine ⟨fun _ => failOperation_wp fun w' hq => ⟨h.trans hq, refused_failed (by decide)⟩,
    fun _ => ?_⟩
  exact ⟨h, hgranted, rfl⟩

theorem checkDowngrade_wp (request : UpdateRequest) (caller : String) (driver : DriverEntry)
    (w : World) :
    wp (checkDowngrade env request caller driver)
      (fun r w' => Quiet w w' ∧ match r with
        | .error res => res.Refused
        | .ok d => d = driver ∧ request.NoDowngrade driver) w := by
  rw [checkDowngrade]
  unfold UpdateRequest.NoDowngrade
  cases request.targetVersion with
  | none => exact ⟨Std.Refl.refl w, rfl, nofun⟩
  | some target =>
  dsimp only
  cases hparse : DriverVersion.parse target with
  | error e => exact failOperation_wp fun w' hq => ⟨hq, refused_failed (by decide)⟩
  | ok requestedVersion =>
  dsimp only
  rw [wp_ite]
  refine ⟨fun _ => ?_, fun hpass => ⟨Std.Refl.refl w, rfl, fun hallow target' v htarget hv => ?_⟩⟩
  rotate_left
  · cases htarget
    cases hparse.symm.trans hv
    simpa [hallow] using hpass
  refine (quiet_audit ..).wp_bind fun _ w₁ h₁ => ?_
  exact failOperation_wp fun w' hq => ⟨h₁.trans hq, refused_failed (by decide)⟩

/-- The checks of an update only look, and end with a refusal or with the first
driver of the name; they let no downgrade pass that is not allowed. -/
theorem updateChecks_wp (request : UpdateRequest) (caller : String) (w : World) :
    wp (engine.updateChecks env request caller)
      (fun r w' => Quiet w w' ∧ match r with
        | .error res => res.Refused
        | .ok d => engine.authorizer.Granted env .updateDriver caller ∧
          w.inventory.findNamed request.driverName = some d ∧ request.NoDowngrade d) w := by
  refine engine.startOperation_wp env (by decide) (by decide)
    (fun r w' hq hr => ⟨hq, hr⟩) fun w₁ h₁ _ hgranted => ?_
  rw [wp_bind, wp_get, h₁.inventory_eq]
  cases hfind : w.inventory.findNamed request.driverName with
  | none => exact failOperation_wp fun w' hq => ⟨h₁.trans hq, refused_failed (by decide)⟩
  | some driver =>
  refine wp_mono (checkDowngrade_wp env request caller driver w₁) ?_
  intro r w' hpost
  obtain ⟨hq, hr⟩ := hpost
  refine ⟨h₁.trans hq, ?_⟩
  cases r with
  | error res => exact hr
  | ok d =>
      obtain ⟨rfl, hdowngrade⟩ := hr
      exact ⟨hgranted, rfl, hdowngrade⟩

end DriverExecutionEngine

end MissionOs.Driverd
