import MissionOs.Driverd.EngineCalls
import MissionOs.Driverd.SignatureChecks

/-!
# How the checks of an operation end

`removeVerdict` and `updateVerdict` say in one expression how the checks of a removal and of an
update end, as a function of the world in which the operation begins, and `InstallPasses` when the
checks of an installation pass.  The lemmas beside them say that the checks end so.
-/

namespace MissionOs.Driverd

open MissionOs.Rust MissionOs.Lib

/-! ## Calls that read no file -/

/-- A call that only looks, and reads no file. -/
def Event.isPeek (e : Event) : Bool := e.isQuiet && !e.isReadFile

/-- Only calls that look and read no file. -/
abbrev Peeks : World → World → Prop := Logs Event.isPeek

namespace Logs

variable {w w' : World}

theorem quiet_of_peeks (h : Peeks w w') : Quiet w w' := by
  obtain ⟨seq, es, rfl, hes⟩ := h
  refine ⟨seq, es, rfl, fun e he => ?_⟩
  have hpeek := hes e he
  rw [Event.isPeek, Bool.and_eq_true] at hpeek
  exact hpeek.1

theorem peeks (h : Reports w w') : Peeks w w' := by
  obtain ⟨seq, es, rfl, hes⟩ := h
  refine ⟨seq, es, rfl, fun e he => ?_⟩
  have hreport := hes e he
  rw [Event.isPeek, Event.isQuiet_of_isReport hreport, Bool.true_and]
  cases e <;> first | rfl | cases hreport

theorem reads_eq (h : Peeks w w') : w'.calls Event.isReadFile = w.calls Event.isReadFile :=
  h.calls_eq fun e he => by
    rw [Event.isPeek, Bool.and_eq_true] at he
    simpa using he.2

end Logs

theorem peeks_getLoadedModules (env : Env) : Keeps Peeks (getLoadedModules env) := by
  refine Keeps.bind (Keeps.bind (Logs.emit rfl) fun _ => Keeps.bind Keeps.get fun _ => ?_)
    fun _ => Keeps.pure _
  cases env.procModulesFault <;> exact Keeps.pure _

/-! ## The beginning of an operation -/

namespace DriverExecutionEngine

variable (engine : DriverExecutionEngine) (env : Env)

/-- The next reply of PolKit grants the caller the action. -/
def GrantsNext (w : World) (action : DriverAction) (caller : String) : Prop :=
  engine.authorizer.grants env.tokioRuntime action
    (env.polkit (w.calls Event.isPolkitCheck) caller action.actionId) = true

instance (w : World) (action : DriverAction) (caller : String) :
    Decidable (engine.GrantsNext env w action caller) :=
  inferInstanceAs (Decidable (_ = true))

/-- How the beginning of an operation ends. -/
def startVerdict (w : World) (action : DriverAction)
    (denied invalid driverName caller : String) (validation : ServiceResult Unit) :
    Except OperationResult Unit :=
  if engine.GrantsNext env w action caller then
    match validation with
    | .error e => .error (.failed driverName invalid e.display)
    | .ok () => .ok ()
  else .error (.failed driverName denied "Permission denied by authorization policy")

theorem startVerdict_ok_iff {w : World} {action : DriverAction}
    {denied invalid driverName caller : String} {validation : ServiceResult Unit} :
    engine.startVerdict env w action denied invalid driverName caller validation = .ok () ↔
      engine.GrantsNext env w action caller ∧ validation = .ok () := by
  unfold startVerdict
  by_cases hgrants : engine.GrantsNext env w action caller
  · rw [if_pos hgrants]
    cases validation <;> simp [hgrants]
  · rw [if_neg hgrants]
    simp [hgrants]

/-- An operation begins as its verdict says. -/
theorem startOperation_verdict {category : EventCategory} {event details : String}
    {action : DriverAction} {denied invalid driverName caller : String}
    {validation : ServiceResult Unit}
    {next : StateM World (Except OperationResult DriverEntry)}
    {Q : Except OperationResult DriverEntry → World → Prop} {w : World}
    (hrefused : ∀ r w', engine.startVerdict env w action denied invalid driverName caller
      validation = .error r → Quiet w w' → Q (.error r) w')
    (hnext : ∀ w', engine.startVerdict env w action denied invalid driverName caller
      validation = .ok () → Peeks w w' → wp next Q w') :
    wp (engine.startOperation env category event details action denied invalid driverName
      caller validation next) Q w := by
  unfold startOperation
  refine Keeps.wp_bind Logs.nextSequence fun _ w₁ (h₁ : Logs (fun e => e.isReport &&
    !e.isPolkitCheck) w w₁) => ?_
  refine Keeps.wp_bind (Logs.audit (fun _ => rfl) ..) fun _ w₂ (h₂ : Logs (fun e => e.isReport &&
    !e.isPolkitCheck) w₁ w₂) => ?_
  have hpolkit : w₂.calls Event.isPolkitCheck = w.calls Event.isPolkitCheck := by
    apply (h₁.trans h₂).calls_eq
    intro e he
    rw [Bool.and_eq_true] at he
    simpa using he.2
  have hreports : Reports w w₂ := by
    obtain ⟨seq, es, heq, hes⟩ := h₁.trans h₂
    refine ⟨seq, es, heq, fun e he => ?_⟩
    have hreport := hes e he
    rw [Bool.and_eq_true] at hreport
    exact hreport.1
  refine wp_bind_of (engine.authorizer.authorize_wp env action caller w₂) ?_
  intro auth w₃ hpost
  obtain ⟨h₃, hauth⟩ := hpost
  have h : Reports w w₃ := hreports.trans h₃
  have hgranted : auth.isAuthorized = true ↔ engine.GrantsNext env w action caller := by
    rw [hauth, hpolkit, GrantsNext]
  rw [wp_ite]
  constructor
  · intro hno
    have hdenied : ¬ engine.GrantsNext env w action caller := by
      rw [← hgranted]
      simpa using hno
    refine failOperation_wp fun w' hq => hrefused _ w' ?_ (h.quiet.trans hq)
    exact if_neg hdenied
  · intro hyes
    have hgrants : engine.GrantsNext env w action caller := by
      rw [← hgranted]
      simpa using hyes
    cases validation with
    | error e =>
        refine failOperation_wp fun w' hq => hrefused _ w' ?_ (h.quiet.trans hq)
        exact if_pos hgrants
    | ok u => exact hnext w₃ ((engine.startVerdict_ok_iff env).mpr ⟨hgrants, rfl⟩) h.peeks

/-- A second stage ends with the success or the failure that is its own. -/
theorem transact_result {driver : DriverEntry} {caller : String}
    {execute : StateM World (ServiceResult Unit)} {commit : StateM World Unit}
    {success : OperationResult} {driverName failure : String} {w : World} :
    wp (engine.transact env driver caller execute commit success driverName failure)
      (fun r _ => r = success ∨ ∃ error, r = .failed driverName failure error) w := by
  unfold transact
  rw [wp_bind, saveState_wp, wp_bind, wp_def]
  cases (execute.run (w.saving driver)).1 with
  | ok u => exact Or.inl rfl
  | error e => exact Or.inr ⟨e.display, rfl⟩

/-! ## Removal -/

/-- How the checks of a removal end. -/
def removeVerdict (request : RemoveRequest) (caller : String) (w : World) :
    Except OperationResult DriverEntry :=
  match engine.startVerdict env w .removeDriver "Removal not authorized"
      "Invalid removal request" request.driverName caller request.validate with
  | .error r => .error r
  | .ok () =>
    match w.inventory.findNamed request.driverName with
    | none =>
      .error (.failed request.driverName "Driver not found"
        ("Driver '" ++ request.driverName ++ "' not found in inventory"))
    | some driver =>
      let conflictResult := engine.conflictDetector.checkRemove driver
        (liveModules env w.kernel) w.inventory.drivers
      if conflictResult.hasConflicts && !request.force then
        .error (.failed request.driverName "Removal blocked by conflicts"
          (conflictDetails conflictResult))
      else .ok driver

theorem removeChecks_verdict (request : RemoveRequest) (caller : String) (w : World) :
    wp (engine.removeChecks env request caller)
      (fun r w' => r = engine.removeVerdict env request caller w ∧ Quiet w w') w := by
  unfold removeChecks removeVerdict
  refine engine.startOperation_verdict env ?_ ?_
  · intro r w' hverdict hquiet
    rw [hverdict]
    exact ⟨rfl, hquiet⟩
  intro w₁ hverdict h₁
  rw [hverdict, wp_bind, wp_get, h₁.inventory_eq]
  cases w.inventory.findNamed request.driverName with
  | none => exact failOperation_wp fun w' hq => ⟨rfl, (Logs.quiet_of_peeks h₁).trans hq⟩
  | some driver =>
      refine wp_bind_of (getLoadedModules_wp env w₁) ?_
      intro _ w₂ hpost
      obtain ⟨h₂, rfl⟩ := hpost
      have h : Quiet w w₂ := (Logs.quiet_of_peeks h₁).trans h₂
      rw [wp_ite, h₁.kernel_eq]
      constructor
      · intro hblocked
        refine failOperation_wp fun w' hq => ⟨?_, h.trans hq⟩
        exact (if_pos hblocked).symm
      · intro hpass
        exact ⟨(if_neg hpass).symm, h⟩

variable {engine env} in
/-- Of a removal that finds its driver the conflicts decide. -/
theorem removeVerdict_of_found {request : RemoveRequest} {caller : String} {w : World}
    {driver : DriverEntry} (hgranted : engine.GrantsNext env w .removeDriver caller)
    (hvalid : request.validate = .ok ())
    (hfound : w.inventory.findNamed request.driverName = some driver) :
    engine.removeVerdict env request caller w =
      let conflictResult := engine.conflictDetector.checkRemove driver
        (liveModules env w.kernel) w.inventory.drivers
      if conflictResult.hasConflicts && !request.force then
        .error (.failed request.driverName "Removal blocked by conflicts"
          (conflictDetails conflictResult))
      else .ok driver := by
  have hstart : engine.startVerdict env w .removeDriver "Removal not authorized"
      "Invalid removal request" request.driverName caller request.validate = .ok () :=
    (engine.startVerdict_ok_iff env).mpr ⟨hgranted, hvalid⟩
  unfold removeVerdict
  rw [hstart, hfound]

variable {engine env} in
/-- A removal whose checks pass is granted and valid, and has found its driver. -/
theorem reaches_of_admits_remove {request : RemoveRequest} {caller : String} {w : World}
    {d : DriverEntry} (h : engine.Admits env (.remove request caller) w d) :
    engine.removeVerdict env request caller w = .ok d ∧
      engine.GrantsNext env w .removeDriver caller ∧ request.validate = .ok () ∧
      w.inventory.findNamed request.driverName = some d := by
  have hspec := engine.removeChecks_verdict env request caller w
  rw [wp_def] at hspec
  have hverdict : engine.removeVerdict env request caller w = .ok d := hspec.1.symm.trans h
  refine ⟨hverdict, ?_⟩
  unfold removeVerdict at hverdict
  split at hverdict
  · cases hverdict
  · rename_i hstart
    obtain ⟨hgranted, hvalid⟩ := (engine.startVerdict_ok_iff env).mp hstart
    refine ⟨hgranted, hvalid, ?_⟩
    cases hfound : w.inventory.findNamed request.driverName with
    | none =>
        rw [hfound] at hverdict
        cases hverdict
    | some driver =>
        rw [hfound] at hverdict
        dsimp only at hverdict
        split_ifs at hverdict
        cases hverdict
        rfl

/-! ## Update -/

/-- How the downgrade protection ends. -/
def downgradeVerdict (request : UpdateRequest) (currentDriver : DriverEntry) :
    Except OperationResult DriverEntry :=
  match request.targetVersion with
  | none => .ok currentDriver
  | some target =>
    match DriverVersion.parse target with
    | .error e => .error (.failed request.driverName "Invalid target version" e.display)
    | .ok requestedVersion =>
      if currentDriver.id.version.gt requestedVersion && !request.allowDowngrade then
        .error (.failed request.driverName "Downgrade rejected"
          ("installed version " ++ currentDriver.id.version.display ++
            " is newer than requested version " ++ requestedVersion.display ++
            "; downgrade is not permitted without explicit policy override"))
      else .ok currentDriver

theorem checkDowngrade_verdict (request : UpdateRequest) (caller : String)
    (currentDriver : DriverEntry) (w : World) :
    wp (checkDowngrade env request caller currentDriver)
      (fun r w' => r = downgradeVerdict request currentDriver ∧ Quiet w w') w := by
  unfold checkDowngrade downgradeVerdict
  cases request.targetVersion with
  | none => exact ⟨rfl, Std.Refl.refl w⟩
  | some target =>
      dsimp only
      cases DriverVersion.parse target with
      | error e => exact failOperation_wp fun w' hq => ⟨rfl, hq⟩
      | ok requestedVersion =>
          dsimp only
          rw [wp_ite]
          constructor
          · intro hdowngrade
            refine (quiet_audit ..).wp_bind fun _ w₁ h₁ => ?_
            refine failOperation_wp fun w' hq => ⟨?_, h₁.trans hq⟩
            exact (if_pos hdowngrade).symm
          · intro hpass
            exact ⟨(if_neg hpass).symm, Std.Refl.refl w⟩

/-- How the checks of an update end. -/
def updateVerdict (request : UpdateRequest) (caller : String) (w : World) :
    Except OperationResult DriverEntry :=
  match engine.startVerdict env w .updateDriver "Update not authorized"
      "Invalid update request" request.driverName caller request.validate with
  | .error r => .error r
  | .ok () =>
    match w.inventory.findNamed request.driverName with
    | none =>
      .error (.failed request.driverName "Driver not found for update"
        ("Driver '" ++ request.driverName ++ "' not found in inventory"))
    | some currentDriver => downgradeVerdict request currentDriver

theorem updateChecks_verdict (request : UpdateRequest) (caller : String) (w : World) :
    wp (engine.updateChecks env request caller)
      (fun r w' => r = engine.updateVerdict env request caller w ∧ Quiet w w') w := by
  unfold updateChecks updateVerdict
  refine engine.startOperation_verdict env ?_ ?_
  · intro r w' hverdict hquiet
    rw [hverdict]
    exact ⟨rfl, hquiet⟩
  intro w₁ hverdict h₁
  have hquiet : Quiet w w₁ := Logs.quiet_of_peeks h₁
  rw [hverdict, wp_bind, wp_get, h₁.inventory_eq]
  cases w.inventory.findNamed request.driverName with
  | none => exact failOperation_wp fun w' hq => ⟨rfl, hquiet.trans hq⟩
  | some currentDriver =>
      refine wp_mono (checkDowngrade_verdict env request caller currentDriver w₁) ?_
      intro r w' hpost
      obtain ⟨rfl, hq⟩ := hpost
      exact ⟨rfl, hquiet.trans hq⟩

/-! ## Installation -/

/-- The signature of the package of a driver, as the next read finds it. -/
def foundSignature (w : World) (driver : DriverEntry) : Bytes :=
  (w.nextRead env (engine.signaturePath driver)).toOption.getD []

/-- The package of a driver passes the signature check, which only modules and firmware have. -/
def SignaturePasses (w : World) (driver : DriverEntry) : Prop :=
  driver.id.moduleType = .kernelModule ∨ driver.id.moduleType = .firmware →
    engine.allowUnsigned = true ∨
      engine.signatureVerifier.Passes env (w.record (.readFile (engine.signaturePath driver)))
        (engine.findPackagePath w driver) (engine.foundSignature env w driver)

variable {engine env} in
theorem signaturePasses_congr {w w' : World} {driver : DriverEntry} (h : Peeks w w') :
    engine.SignaturePasses env w' driver ↔ engine.SignaturePasses env w driver := by
  have hread : ∀ p, w'.nextRead env p = w.nextRead env p := by
    intro p
    rw [World.nextRead, World.nextRead, h.reads_eq, h.fs_eq]
  have hsecond : ∀ e p, (w'.record e).nextRead env p = (w.record e).nextRead env p := by
    intro e p
    have hcalls : (w'.record e).calls Event.isReadFile = (w.record e).calls Event.isReadFile := by
      simp only [World.calls, World.record, List.countP_append]
      exact congrArg (· + _) h.reads_eq
    rw [World.nextRead, World.nextRead, hcalls, World.record_fs, World.record_fs, h.fs_eq]
  have hfound : engine.foundSignature env w' driver = engine.foundSignature env w driver := by
    rw [foundSignature, hread, foundSignature]
  unfold SignaturePasses SignatureVerifier.Passes
  rw [hfound, engine.findPackagePath_congr driver h.kernel_eq h.fs_eq]
  simp only [hsecond]

theorem readPackageSignature_wp (driver : DriverEntry) (w : World) :
    wp (engine.readPackageSignature env driver)
      (fun signature w' => signature = engine.foundSignature env w driver ∧
        w' = w.record (.readFile (engine.signaturePath driver))) w := ⟨rfl, rfl⟩

/-- The signature check lets a driver pass exactly if its package passes. -/
theorem checkSignature_passes (request : InstallRequest) (caller : String) (driver : DriverEntry)
    (w : World) :
    wp (engine.checkSignature env request caller driver)
      (fun r _ => ∀ d, r = .ok d ↔ d = driver ∧ engine.SignaturePasses env w driver) w := by
  unfold checkSignature
  rw [wp_ite]
  constructor
  · intro htype
    have htype' : driver.id.moduleType = .kernelModule ∨ driver.id.moduleType = .firmware := by
      simpa using htype
    rw [wp_bind, wp_get]
    refine wp_bind_of (engine.readPackageSignature_wp env driver w) ?_
    intro _ _ hpost
    obtain ⟨rfl, rfl⟩ := hpost
    refine wp_bind_of (verifyPackage_wp ..) ?_
    intro result w₁ hpost
    obtain ⟨-, hvalid⟩ := hpost
    have hpasses : engine.SignaturePasses env w driver ↔
        engine.allowUnsigned = true ∨ result.outcome = .valid := by
      rw [hvalid]
      exact forall_prop_of_true htype'
    rw [wp_ite]
    constructor
    · intro hfails
      refine failOperation_wp fun w' _ d => iff_of_false (by simp) ?_
      rw [hpasses]
      intro h
      obtain ⟨-, hpass⟩ := h
      revert hfails
      rcases hpass with hpass | hpass <;> simp [hpass]
    · intro hok d
      have hpass : engine.SignaturePasses env w driver := by
        rw [hpasses]
        by_contra hno
        rw [not_or] at hno
        exact hok (by simp [hno.1, hno.2])
      constructor
      · intro h
        obtain ⟨⟩ := h
        exact ⟨rfl, hpass⟩
      · intro h
        obtain ⟨rfl, -⟩ := h
        rfl
  · intro htype d
    have hpass : engine.SignaturePasses env w driver := fun h => absurd (by simpa using h) htype
    constructor
    · intro hright
      obtain ⟨⟩ := hright
      exact ⟨rfl, hpass⟩
    · intro hright
      obtain ⟨rfl, -⟩ := hright
      rfl

/-- The checks of an installation pass with a driver. -/
structure InstallPasses (request : InstallRequest) (caller : String)
    (hardwareDevices : List HardwareDevice) (w : World) (d : DriverEntry) : Prop where
  granted : engine.GrantsNext env w .installDriver caller
  valid : request.validate = .ok ()
  found : w.inventory.findDriver request.driverName request.provider = some d
  unblocked : request.force = true ∨
    (engine.conflictDetector.checkInstall d w.inventory.drivers (liveModules env w.kernel)
      hardwareDevices).hasConflicts = false
  signed : engine.SignaturePasses env w d

theorem admits_install_iff {request : InstallRequest} {caller : String}
    {hardwareDevices : List HardwareDevice} {w : World} {d : DriverEntry} :
    engine.Admits env (.install request caller hardwareDevices) w d ↔
      engine.InstallPasses env request caller hardwareDevices w d := by
  have hspec : wp (engine.installChecks env request caller hardwareDevices)
      (fun r _ => r = .ok d ↔ engine.InstallPasses env request caller hardwareDevices w d) w := by
    unfold installChecks beforeCheck
    rw [wp_bind]
    refine engine.startOperation_verdict env ?_ ?_
    · intro r w' hverdict _
      refine iff_of_false (by simp) fun h => ?_
      rw [(engine.startVerdict_ok_iff env).mpr ⟨h.granted, h.valid⟩] at hverdict
      cases hverdict
    intro w₁ hverdict h₁
    obtain ⟨hgranted, hvalid⟩ := (engine.startVerdict_ok_iff env).mp hverdict
    rw [wp_bind, wp_get, h₁.inventory_eq]
    cases hfind : w.inventory.findDriver request.driverName request.provider with
    | none =>
        refine failOperation_wp fun w' _ => iff_of_false (by simp) fun h => ?_
        cases hfind.symm.trans h.found
    | some driver =>
        refine wp_bind_of (wp_and (getLoadedModules_wp env w₁)
          ((peeks_getLoadedModules env).wp w₁)) ?_
        intro _ w₂ hpost
        obtain ⟨⟨-, rfl⟩, h₂⟩ := hpost
        have h : Peeks w w₂ := h₁.trans h₂
        rw [wp_ite, h₁.kernel_eq]
        constructor
        · intro hblocked
          refine failOperation_wp fun w' _ => iff_of_false (by simp) fun hpasses => ?_
          cases hfind.symm.trans hpasses.found
          revert hblocked
          rcases hpasses.unblocked with hforce | hnone
          · simp [hforce]
          · simp [hnone]
        · intro hunblocked
          rw [wp_pure]
          refine wp_mono (engine.checkSignature_passes env request caller driver w₂) ?_
          intro r w' hr
          rw [hr, signaturePasses_congr h]
          constructor
          · intro hright
            obtain ⟨rfl, hsigned⟩ := hright
            refine ⟨hgranted, hvalid, hfind, ?_, hsigned⟩
            by_contra hno
            rw [not_or] at hno
            exact hunblocked (by simp [hno.1, hno.2])
          · intro hpasses
            cases hfind.symm.trans hpasses.found
            exact ⟨rfl, hpasses.signed⟩
  exact hspec

end DriverExecutionEngine

end MissionOs.Driverd
