import MissionOs.Driverd.EngineCalls

/-!
# The audit trail of an operation

Each operation records its events in a category of its own: first that it was requested,
and last how it ended.  `perform_trail` says which events an operation records there, for
every way in which it can end.

A rollback records its end as an event of the installations, whichever operation it
undoes.  So the trail of a call is complete exactly if the call is an installation or is
not rolled back (`auditComplete_iff`).
-/

namespace MissionOs.Driverd

open MissionOs.Rust MissionOs.Lib

/-! ## The events of a category -/

/-- The audit event that a call records, if it is one of the category. -/
def Event.auditIn (category : EventCategory) : Event → Option AuditEvent
  | .audit e => if e.category = category then some e else none
  | _ => none

/-- The audit events of a category in a trace. -/
def auditsIn (category : EventCategory) (trace : List Event) : List AuditEvent :=
  trace.filterMap (Event.auditIn category)

/-- Of a category, `es` and nothing else was recorded between `w` and `w'`. -/
def Records (category : EventCategory) (es : List AuditEvent) (w w' : World) : Prop :=
  auditsIn category w'.trace = auditsIn category w.trace ++ es

/-- Nothing of a category was recorded. -/
abbrev Silent (category : EventCategory) : World → World → Prop := Records category []

section Silent

variable {category : EventCategory} {w w' w'' : World} {es es' : List AuditEvent}

theorem Records.trans (h : Records category es w w') (h' : Records category es' w' w'') :
    Records category (es ++ es') w w'' := by
  rw [Records, h', h, List.append_assoc]

theorem silent_of_trace_eq (h : w'.trace = w.trace) : Silent category w w' := by
  rw [Silent, Records, h, List.append_nil]

instance : Std.Refl (Silent category) := ⟨fun _ => silent_of_trace_eq rfl⟩

instance : IsTrans World (Silent category) := ⟨fun _ _ _ h h' => h.trans h'⟩

theorem silent_modify (category : EventCategory) {f : World → World}
    (h : ∀ w, (f w).trace = w.trace) :
    Keeps (Silent category) (modify f) :=
  ⟨fun w => silent_of_trace_eq (h w)⟩

/-- What is no audit event of the category is silent. -/
theorem frames_silent (category : EventCategory) :
    Frames (Silent category) fun e => e.auditIn category = none where
  event w e he := by
    show auditsIn category (w.trace ++ [e]) = auditsIn category w.trace ++ []
    simp [auditsIn, he]
  kernel _ _ := silent_of_trace_eq rfl
  fs _ _ := silent_of_trace_eq rfl

theorem auditIn_of_decides (hne : .authorization ≠ category) {e : Event} (h : e.Decides) :
    e.auditIn category = none := by
  cases h with
  | audit e h => exact if_neg (h ▸ hne)
  | polkitCheck => rfl

theorem auditIn_of_verifies (hne : .driverVerification ≠ category) {path : Path} {e : Event}
    (h : e.Verifies path) : e.auditIn category = none := by
  cases h with
  | audit e h => exact if_neg (h ▸ hne)
  | readFile => rfl
  | verified => rfl

theorem auditIn_of_loads {name : String} {path : Path} {e : Event} (h : e.Loads name path) :
    e.auditIn category = none := by
  cases h <;> rfl

theorem auditIn_of_executes (engine : DriverExecutionEngine) {driver : DriverEntry} {e : Event}
    (h : engine.Executes driver e) : e.auditIn category = none := by
  cases h with
  | load _ h => exact auditIn_of_loads h
  | _ => rfl

variable {env : Env}

theorem silent_audit {other : EventCategory} (hne : other ≠ category)
    (severity : EventSeverity) (action subject details : String) :
    Keeps (Silent category) (audit env other severity action subject details) :=
  (frames_silent category).audit (fun _ he => if_neg (he ▸ hne)) ..

/-- An event is recorded in its category. -/
theorem audit_records (severity : EventSeverity) (action subject details : String) :
    wp (audit env category severity action subject details)
      (fun _ w' => ∃ e, e.action = action ∧ Records category [e] w w') w := by
  refine ⟨.new (env.now w.trace.length) category severity action subject details, rfl, ?_⟩
  show auditsIn category (w.trace ++ [_]) = _
  simp [auditsIn, Event.auditIn, AuditEvent.new]

theorem silent_nextSequence : Keeps (Silent category) nextSequence :=
  ⟨fun _ => silent_of_trace_eq rfl⟩

end Silent

/-! ## The trail of an operation -/

namespace Operation

/-- The category of a call's own events. -/
def category : Operation → EventCategory
  | install _ _ _ => .driverInstall
  | remove _ _ => .driverRemove
  | update _ _ => .driverUpdate

theorem category_eq_iff (op : Operation) :
    op.category = .driverInstall ↔ op.action = .installDriver := by
  cases op <;> simp [category, action]

/-- The action of the first event. -/
def requested : Operation → String
  | install _ _ _ => "driver_install_requested"
  | remove _ _ => "driver_remove_requested"
  | update _ _ => "driver_update_requested"

/-- The action of the last event of a call that succeeds. -/
def completed : Operation → String
  | install _ _ _ => "driver_install_completed"
  | remove _ _ => "driver_remove_completed"
  | update _ _ => "driver_update_completed"

end Operation

/-- What a rollback records in a category: its end, and only for installations. -/
def RollbackTrail (category : EventCategory) (es : List AuditEvent) : Prop :=
  if category = .driverInstall then
    ∃ e, es = [e] ∧ e.action ∈ ["rollback_completed", "rollback_failed"]
  else es = []

/-- What the checks of an operation record once it was requested: how they fail, with a
downgrade named before. -/
def ChecksTrail : Except OperationResult DriverEntry → List AuditEvent → Prop
  | .ok _, es => es = []
  | .error r, es => r.status = .failed ∧ ∃ middle last, es = middle ++ [last] ∧
      (∀ e ∈ middle, e.action = "downgrade_rejected") ∧ last.action = "operation_failed"

section Checks

variable {category : EventCategory} {env : Env} {w w' : World}

theorem failOperation_records (driverName message error caller : String) :
    wp (failOperation env driverName message error caller category)
      (fun r w' => ∃ es, Records category es w w' ∧ ChecksTrail r es) w := by
  refine wp_bind_of (audit_records ..) ?_
  intro _ w₁ hpost
  obtain ⟨e, haction, hrecords⟩ := hpost
  exact ⟨[e], hrecords, rfl, [], e, rfl, by simp, haction⟩

/-- What is silent changes no trail. -/
theorem trail_of_silent {p : StateM World (Except OperationResult DriverEntry)}
    (hw : Silent category w w')
    (h : wp p (fun r w'' => ∃ es, Records category es w' w'' ∧ ChecksTrail r es) w') :
    wp p (fun r w'' => ∃ es, Records category es w w'' ∧ ChecksTrail r es) w' := by
  refine wp_mono h ?_
  intro r w'' hpost
  obtain ⟨es, hrecords, htrail⟩ := hpost
  exact ⟨es, hw.trans hrecords, htrail⟩

end Checks

namespace DriverExecutionEngine

variable (engine : DriverExecutionEngine) {category : EventCategory} {env : Env} {w : World}

/-- The beginning of an operation records the request. -/
theorem startOperation_records (hauth : .authorization ≠ category)
    {event details : String} {action : DriverAction} {denied invalid driverName caller : String}
    {validation : ServiceResult Unit} {next : StateM World (Except OperationResult DriverEntry)}
    (hnext : ∀ w₁, wp next
      (fun r w' => ∃ es, Records category es w₁ w' ∧ ChecksTrail r es) w₁) :
    wp (engine.startOperation env category event details action denied invalid driverName
        caller validation next)
      (fun r w' => ∃ first es, Records category (first :: es) w w' ∧ first.action = event ∧
        ChecksTrail r es) w := by
  unfold startOperation
  refine silent_nextSequence.wp_bind fun _ w₁ (h₁ : Silent category w w₁) => ?_
  refine wp_bind_of (audit_records ..) ?_
  intro _ w₂ hpost
  obtain ⟨first, haction, h₂⟩ := hpost
  refine ((frames_silent category).authorize (fun _ => auditIn_of_decides hauth) ..).wp_bind
    fun auth w₃ (h₃ : Silent category w₂ w₃) => ?_
  have hfirst : Records category [first] w w₃ := (h₁.trans h₂).trans h₃
  suffices hrest : wp _ (fun r w' => ∃ es, Records category es w₃ w' ∧ ChecksTrail r es) w₃ by
    refine wp_mono hrest ?_
    intro r w' hpost
    obtain ⟨es, hrecords, htrail⟩ := hpost
    exact ⟨first, es, hfirst.trans hrecords, haction, htrail⟩
  rw [wp_ite]
  constructor
  · intro _
    exact failOperation_records ..
  · intro _
    cases validation with
    | error e => exact failOperation_records ..
    | ok u => exact hnext w₃

theorem checkSignature_records (request : InstallRequest) (caller : String)
    (driver : DriverEntry) :
    wp (engine.checkSignature env request caller driver)
      (fun r w' => ∃ es, Records .driverInstall es w w' ∧ ChecksTrail r es) w := by
  have hpass : ∀ w₁, Silent .driverInstall w w₁ → ∃ es, Records .driverInstall es w w₁ ∧
      ChecksTrail (.ok driver) es := fun _ h => ⟨[], h, rfl⟩
  rw [checkSignature, wp_ite]
  constructor
  · intro _
    rw [wp_bind, wp_get]
    have hread : Keeps (Silent .driverInstall) (engine.readPackageSignature env driver) :=
      Keeps.bind Keeps.get fun _ =>
        Keeps.bind ((frames_silent _).readFile rfl _) fun _ => Keeps.pure _
    refine hread.wp_bind fun signature w₁ h₁ => ?_
    refine ((frames_silent _).verifyPackage
      (fun _ => auditIn_of_verifies (by decide)) ..).wp_bind
        fun result w₂ (h₂ : Silent .driverInstall w₁ w₂) => ?_
    rw [wp_ite]
    constructor
    · intro _
      exact trail_of_silent (h₁.trans h₂) (failOperation_records ..)
    · intro _
      exact hpass w₂ (h₁.trans h₂)
  · intro _
    exact hpass w (Std.Refl.refl w)

theorem beforeCheck_records (request : InstallRequest) (caller : String)
    (hardwareDevices : List HardwareDevice) :
    wp (engine.beforeCheck env request caller hardwareDevices)
      (fun r w' => ∃ first es, Records .driverInstall (first :: es) w w' ∧
        first.action = "driver_install_requested" ∧ ChecksTrail r es) w := by
  refine engine.startOperation_records (by decide) fun w₁ => ?_
  rw [wp_bind, wp_get]
  cases w₁.inventory.findDriver request.driverName request.provider with
  | none => exact failOperation_records ..
  | some driver =>
      refine ((frames_silent _).getLoadedModules rfl).wp_bind
        fun modules w₂ (h₂ : Silent .driverInstall w₁ w₂) => ?_
      rw [wp_ite]
      constructor
      · intro _
        exact trail_of_silent h₂ (failOperation_records ..)
      · intro _
        exact ⟨[], h₂, rfl⟩

theorem installChecks_records (request : InstallRequest) (caller : String)
    (hardwareDevices : List HardwareDevice) :
    wp (engine.installChecks env request caller hardwareDevices)
      (fun r w' => ∃ first es, Records .driverInstall (first :: es) w w' ∧
        first.action = "driver_install_requested" ∧ ChecksTrail r es) w := by
  refine wp_bind_of (engine.beforeCheck_records request caller hardwareDevices) ?_
  intro r w₁ hpost
  obtain ⟨first, es, hrecords, hfirst, htrail⟩ := hpost
  cases r with
  | error result => exact ⟨first, es, hrecords, hfirst, htrail⟩
  | ok driver =>
      rw [show es = [] from htrail] at hrecords
      refine wp_mono (engine.checkSignature_records request caller driver) ?_
      intro r' w' hpost
      obtain ⟨es', hrecords', htrail'⟩ := hpost
      exact ⟨first, es', hrecords.trans hrecords', hfirst, htrail'⟩

theorem removeChecks_records (request : RemoveRequest) (caller : String) :
    wp (engine.removeChecks env request caller)
      (fun r w' => ∃ first es, Records .driverRemove (first :: es) w w' ∧
        first.action = "driver_remove_requested" ∧ ChecksTrail r es) w := by
  refine engine.startOperation_records (by decide) fun w₁ => ?_
  rw [wp_bind, wp_get]
  cases w₁.inventory.findNamed request.driverName with
  | none => exact failOperation_records ..
  | some driver =>
      refine ((frames_silent _).getLoadedModules rfl).wp_bind
        fun modules w₂ (h₂ : Silent .driverRemove w₁ w₂) => ?_
      rw [wp_ite]
      constructor
      · intro _
        exact trail_of_silent h₂ (failOperation_records ..)
      · intro _
        exact ⟨[], h₂, rfl⟩

/-- A downgrade is recorded twice: by its name, and as the failure of the operation. -/
theorem checkDowngrade_records (request : UpdateRequest) (caller : String)
    (currentDriver : DriverEntry) :
    wp (checkDowngrade env request caller currentDriver)
      (fun r w' => ∃ es, Records .driverUpdate es w w' ∧ ChecksTrail r es) w := by
  have hpass : ∃ es, Records .driverUpdate es w w ∧ ChecksTrail (.ok currentDriver) es :=
    ⟨[], silent_of_trace_eq rfl, rfl⟩
  rw [checkDowngrade]
  cases request.targetVersion with
  | none => exact hpass
  | some target =>
      dsimp only
      cases DriverVersion.parse target with
      | error e => exact failOperation_records ..
      | ok requestedVersion =>
          dsimp only
          rw [wp_ite]
          constructor
          · intro _
            refine wp_bind_of (audit_records ..) ?_
            intro _ w₁ hpost
            obtain ⟨named, haction, h₁⟩ := hpost
            refine wp_bind_of (audit_records ..) ?_
            intro _ w₂ hpost
            obtain ⟨last, hlast, h₂⟩ := hpost
            exact ⟨[named, last], h₁.trans h₂, rfl, [named], last, rfl, by simpa using haction,
              hlast⟩
          · intro _
            exact hpass

theorem updateChecks_records (request : UpdateRequest) (caller : String) :
    wp (engine.updateChecks env request caller)
      (fun r w' => ∃ first es, Records .driverUpdate (first :: es) w w' ∧
        first.action = "driver_update_requested" ∧ ChecksTrail r es) w := by
  refine engine.startOperation_records (by decide) fun w₁ => ?_
  rw [wp_bind, wp_get]
  cases w₁.inventory.findNamed request.driverName with
  | none => exact failOperation_records ..
  | some currentDriver => exact checkDowngrade_records request caller currentDriver

theorem checks_records (env : Env) (w : World) (op : Operation) :
    wp (engine.checks env op)
      (fun r w' => ∃ first es, Records op.category (first :: es) w w' ∧
        first.action = op.requested ∧ ChecksTrail r es) w := by
  cases op with
  | install request caller devices => exact engine.installChecks_records request caller devices
  | remove request caller => exact engine.removeChecks_records request caller
  | update request caller => exact engine.updateChecks_records request caller

/-- A rollback tells how it ended, as an event of the installations. -/
theorem rollbackOperation_records (category : EventCategory) (correlationId caller : String) :
    wp (engine.rollbackOperation env correlationId caller)
      (fun _ w' => ∃ es, Records category es w w' ∧ RollbackTrail category es) w := by
  have hend : ∀ severity action details w₁, Silent category w w₁ →
      action ∈ ["rollback_completed", "rollback_failed"] →
      wp (audit env .driverInstall severity action caller details)
        (fun _ w' => ∃ es, Records category es w w' ∧ RollbackTrail category es) w₁ := by
    intro severity action details w₁ h₁ haction
    by_cases hcategory : category = .driverInstall
    · subst hcategory
      refine wp_mono (audit_records ..) ?_
      intro _ w' hpost
      obtain ⟨e, he, hrecords⟩ := hpost
      refine ⟨[e], h₁.trans hrecords, ?_⟩
      rw [RollbackTrail, if_pos rfl]
      exact ⟨e, rfl, he ▸ haction⟩
    · refine wp_mono ((silent_audit (Ne.symm hcategory) ..).wp w₁) ?_
      intro _ w' h'
      refine ⟨[], h₁.trans h', ?_⟩
      rw [RollbackTrail, if_neg hcategory]
  rw [rollbackOperation, wp_bind, wp_get]
  cases w.tracker.findState correlationId with
  | none => exact hend _ _ _ w (Std.Refl.refl w) (by decide)
  | some saved =>
      have hrest : ∀ w₂, Silent category w w₂ → wp
          (do
            audit env .driverInstall .warning "rollback_completed" caller
              ("Rollback completed for operation '" ++ correlationId ++
                "', restored driver '" ++ saved.driver.id.name ++ "'")
            OperationTracker.removeState correlationId)
          (fun _ w' => ∃ es, Records category es w w' ∧ RollbackTrail category es) w₂ := by
        intro w₂ h₂
        refine wp_bind_of (hend _ _ _ w₂ h₂ (by decide)) ?_
        intro _ w₃ hpost
        obtain ⟨es, hrecords, htrail⟩ := hpost
        exact ⟨es, hrecords, htrail⟩
      dsimp only
      refine (silent_modify category (f := (·.restore saved.driver)) fun _ => rfl).wp_bind
        fun _ w₁ (h₁ : Silent category w w₁) => ?_
      rw [wp_ite]
      constructor
      · intro _
        rw [wp_bind, wp_get]
        refine Keeps.wp_bind (R := Silent category)
          (Keeps.bind ((frames_silent category).loadModule (fun _ => auditIn_of_loads) _)
            fun _ => Keeps.pure _) fun _ w₂ h₂ => ?_
        exact hrest w₂ (h₁.trans h₂)
      · intro _
        exact hrest w₁ h₁

/-- A commit records its end. -/
theorem commit_records {change : World → World} (hchange : ∀ w, (change w).trace = w.trace)
    (severity : EventSeverity) (action subject details : String) :
    wp (do modify change; audit env category severity action subject details)
      (fun _ w' => ∃ e, e.action = action ∧ Records category [e] w w') w := by
  refine wp_bind_of ((silent_modify category hchange).wp w) ?_
  intro _ w₁ h₁
  refine wp_mono (audit_records ..) ?_
  intro _ w₂ hpost
  obtain ⟨e, haction, h₂⟩ := hpost
  exact ⟨e, haction, h₁.trans h₂⟩

/-- The second stage records its end: that of a commit, or that of a rollback. -/
theorem transact_records {driver : DriverEntry} {caller : String}
    {execute : StateM World (ServiceResult Unit)} {program : StateM World Unit} {eff : Effect}
    {success : OperationResult} {driverName failure completed : String}
    (hsilent : Keeps (Silent category) execute)
    (hexec : wp execute (fun r w' => eff.Done (w.saving driver) r w') (w.saving driver))
    (hcommit : ∀ w₁, wp program
      (fun _ w' => ∃ e, e.action = completed ∧ Records category [e] w₁ w') w₁) :
    wp (engine.transact env driver caller execute program success driverName failure)
      (fun r w' => ∃ es, Records category es w w' ∧
        (eff.result = .ok () ∧ r = success ∧ (∃ e, es = [e] ∧ e.action = completed) ∨
          eff.result ≠ .ok () ∧ r.status = .failed ∧ RollbackTrail category es)) w := by
  rw [transact, wp_bind, saveState_wp]
  refine wp_bind_of (wp_and hexec (hsilent.wp _)) ?_
  intro r w₁ hpost
  obtain ⟨⟨rfl, -⟩, hsaved⟩ := hpost
  have h₁ : Silent category w w₁ := (silent_of_trace_eq rfl : Silent category w _).trans hsaved
  cases hresult : eff.result with
  | ok u =>
      refine wp_bind_of (hcommit w₁) ?_
      intro _ w₂ hpost
      obtain ⟨e, haction, h₂⟩ := hpost
      exact ⟨[e], h₁.trans h₂, Or.inl ⟨rfl, rfl, e, rfl, haction⟩⟩
  | error e =>
      refine wp_bind_of (engine.rollbackOperation_records category _ _) ?_
      intro _ w₂ hpost
      obtain ⟨es, h₂, htrail⟩ := hpost
      exact ⟨es, h₁.trans h₂, Or.inr ⟨by simp, rfl, htrail⟩⟩

/-- What a call from `w` records in its own category, by how it ends. -/
inductive Trail (env : Env) (op : Operation) (w : World) : OperationResult → List AuditEvent → Prop
  | refused (r : OperationResult) (first : AuditEvent) (es : List AuditEvent)
      (hchecks : ∀ d, ¬engine.Admits env op w d) (hfirst : first.action = op.requested)
      (htrail : ChecksTrail (.error r) es) : Trail env op w r (first :: es)
  | committed (d : DriverEntry) (r : OperationResult) (first last : AuditEvent)
      (hchecks : engine.Admits env op w d) (hdone : (engine.effect env op w d).result = .ok ())
      (hfirst : first.action = op.requested) (hlast : last.action = op.completed)
      (hstatus : r.status = .completed) : Trail env op w r [first, last]
  | rolledBack (d : DriverEntry) (r : OperationResult) (first : AuditEvent)
      (es : List AuditEvent) (hchecks : engine.Admits env op w d)
      (hfailed : (engine.effect env op w d).result ≠ .ok ())
      (hfirst : first.action = op.requested) (hstatus : r.status = .failed)
      (htrail : RollbackTrail op.category es) : Trail env op w r (first :: es)

/-- Checks followed by a second stage, as every call is built. -/
theorem stages_trail (op : Operation) (second : DriverEntry → StateM World OperationResult)
    (hsecond : ∀ d w₁, wp (second d)
      (fun r w' => ∃ es, Records op.category es w₁ w' ∧
        ((engine.effect env op (w₁.saving d) d).result = .ok () ∧ r = op.success d ∧
            (∃ e, es = [e] ∧ e.action = op.completed) ∨
          (engine.effect env op (w₁.saving d) d).result ≠ .ok () ∧ r.status = .failed ∧
            RollbackTrail op.category es)) w₁) :
    wp (do
        match ← engine.checks env op with
        | .error r => return r
        | .ok d => second d)
      (fun r w' => ∃ es, Records op.category es w w' ∧ engine.Trail env op w r es) w := by
  have hspec := wp_and (engine.checks_records env w op)
    (engine.checks_wp env op w)
  rw [wp_bind, wp_def]
  rw [wp_def] at hspec
  rcases hrun : (engine.checks env op).run w with ⟨r, w₁⟩
  rw [hrun] at hspec
  obtain ⟨⟨first, es, hrecords, hfirst, htrail⟩, hquiet, -⟩ := hspec
  cases r with
  | error r =>
      refine ⟨first :: es, hrecords, .refused r first es (fun d hd => ?_) hfirst htrail⟩
      rw [Admits, hrun] at hd
      cases hd
  | ok d =>
      have hadmits : engine.Admits env op w d := by rw [Admits, hrun]
      have heff : engine.effect env op (w₁.saving d) d = engine.effect env op w d :=
        engine.effect_congr env op d hquiet.kernel_eq hquiet.moduleDirs_eq hquiet.fs_eq
          hquiet.loads_eq
      have hnil : es = [] := htrail
      subst hnil
      refine wp_mono (hsecond d w₁) ?_
      intro r w' hpost
      obtain ⟨es, hrecords', hend⟩ := hpost
      rw [heff] at hend
      refine ⟨first :: es, hrecords.trans hrecords', ?_⟩
      rcases hend with ⟨hdone, rfl, last, rfl, hlast⟩ | ⟨hfailed, hstatus, htrail⟩
      · exact .committed d _ first last hadmits hdone hfirst hlast (op.success_status d)
      · exact .rolledBack d r first es hadmits hfailed hfirst hstatus htrail

/-- What a call records in its own category. -/
theorem perform_trail (env : Env) (w : World) (op : Operation) :
    wp (engine.perform env op)
      (fun r w' => ∃ es, Records op.category es w w' ∧ engine.Trail env op w r es) w := by
  cases op with
  | install request caller devices =>
      refine engine.stages_trail (.install request caller devices) _ fun d w₁ => ?_
      refine engine.transact_records
        ((frames_silent _).executeInstall fun _ => auditIn_of_executes engine)
        (engine.executeInstall_wp env d _) fun w₂ => ?_
      exact commit_records (fun _ => rfl) ..
  | remove request caller =>
      refine engine.stages_trail (.remove request caller) _ fun d w₁ => ?_
      refine engine.transact_records
        ((frames_silent _).executeRemove (fun _ => auditIn_of_executes engine) _)
        (executeRemove_wp env d request.force _) fun w₂ => ?_
      exact commit_records (fun _ => rfl) ..
  | update request caller =>
      refine engine.stages_trail (.update request caller) _ fun d w₁ => ?_
      refine engine.transact_records
        ((frames_silent _).executeUpdate fun _ => auditIn_of_executes engine)
        (engine.executeUpdate_wp env d _) fun w₂ => ?_
      exact commit_records (fun _ => rfl) ..

end DriverExecutionEngine

/-! ## Completeness -/

/-- A `*_requested` event. -/
def AuditEvent.isRequest (e : AuditEvent) : Bool :=
  "_requested".toList.isSuffixOf e.action.toList

/-- The end of a call: a `*_completed` event or the failure of the call or of its
rollback. -/
def AuditEvent.isTerminal (e : AuditEvent) : Bool :=
  "_completed".toList.isSuffixOf e.action.toList ||
    ["operation_failed", "rollback_failed"].contains e.action

/-- The last event of a call tells how it ended. -/
def Operation.Tells (op : Operation) (r : OperationResult) (last : AuditEvent) : Prop :=
  r.status = .completed ∧ last.action = op.completed ∨
    r.status = .failed ∧
      last.action ∈ ["operation_failed", "rollback_completed", "rollback_failed"]

/-- Of the events of a call in its own category, the first is its one request, and the last
its one end, which tells the result. -/
structure AuditComplete (op : Operation) (r : OperationResult) (es : List AuditEvent) :
    Prop where
  oneRequest : es.countP AuditEvent.isRequest = 1
  first : ∃ e, es.head? = some e ∧ e.isRequest = true
  oneEnd : es.countP AuditEvent.isTerminal = 1
  last : ∃ e, es.getLast? = some e ∧ e.isTerminal = true ∧ op.Tells r e

theorem isRequest_of_action {e : AuditEvent} {action : String} (h : e.action = action) :
    e.isRequest = "_requested".toList.isSuffixOf action.toList := by
  rw [AuditEvent.isRequest, h]

theorem isTerminal_of_action {e : AuditEvent} {action : String} (h : e.action = action) :
    e.isTerminal = ("_completed".toList.isSuffixOf action.toList ||
      ["operation_failed", "rollback_failed"].contains action) := by
  rw [AuditEvent.isTerminal, h]

section Kinds

variable {op : Operation} {r : OperationResult} {e : AuditEvent}

theorem kind_of_requested (h : e.action = op.requested) :
    e.isRequest = true ∧ e.isTerminal = false := by
  rw [isRequest_of_action h, isTerminal_of_action h]
  cases op <;> rw [Operation.requested] <;> decide

theorem kind_of_downgrade (h : e.action = "downgrade_rejected") :
    e.isRequest = false ∧ e.isTerminal = false := by
  rw [isRequest_of_action h, isTerminal_of_action h]
  decide

theorem kind_of_tells (h : op.Tells r e) : e.isRequest = false ∧ e.isTerminal = true := by
  rcases h with ⟨-, haction⟩ | ⟨-, haction⟩
  · rw [isRequest_of_action haction, isTerminal_of_action haction]
    cases op <;> rw [Operation.completed] <;> decide
  · simp only [List.mem_cons, List.not_mem_nil, or_false] at haction
    rcases haction with haction | haction | haction <;>
      rw [isRequest_of_action haction, isTerminal_of_action haction] <;> decide

/-- A request, events of neither kind, and an end that tells the result. -/
theorem auditComplete_of_middle {first last : AuditEvent} (middle : List AuditEvent)
    (hfirst : first.action = op.requested)
    (hmiddle : ∀ e ∈ middle, e.action = "downgrade_rejected") (htells : op.Tells r last) :
    AuditComplete op r (first :: (middle ++ [last])) := by
  have hrequests : middle.countP AuditEvent.isRequest = 0 :=
    List.countP_eq_zero.mpr fun e he => by simp [kind_of_downgrade (hmiddle e he)]
  have hends : middle.countP AuditEvent.isTerminal = 0 :=
    List.countP_eq_zero.mpr fun e he => by simp [kind_of_downgrade (hmiddle e he)]
  constructor
  · simp [kind_of_requested hfirst, kind_of_tells htells, hrequests]
  · exact ⟨first, rfl, (kind_of_requested hfirst).1⟩
  · simp [kind_of_requested hfirst, kind_of_tells htells, hends]
  · exact ⟨last, by rw [← List.cons_append, List.getLast?_concat],
      (kind_of_tells htells).2, htells⟩

end Kinds

/-- The trail of a call is complete exactly if the call is an installation or is not rolled
back: its checks refuse it, or its execution succeeds. -/
theorem DriverExecutionEngine.auditComplete_iff (engine : DriverExecutionEngine) (env : Env)
    (op : Operation) (w : World) :
    AuditComplete op (engine.result env op w)
        (auditsIn op.category (engine.next (.call env op) w).trace) ↔
      op.action = .installDriver ∨ ∀ d, engine.Admits env op w.fresh d →
        (engine.effect env op w.fresh d).result = .ok () := by
  obtain ⟨es, hrecords, htrail⟩ := engine.perform_trail env w.fresh op
  have hes : auditsIn op.category (engine.next (.call env op) w).trace = es := hrecords
  rw [hes]
  change AuditComplete op _ es ↔ _
  cases htrail with
  | refused r first es hchecks hfirst htrail =>
      obtain ⟨hstatus, middle, last, rfl, hmiddle, hlast⟩ := htrail
      refine iff_of_true ?_ (Or.inr fun d hd => absurd hd (hchecks d))
      exact auditComplete_of_middle _ hfirst hmiddle (Or.inr ⟨hstatus, by simp [hlast]⟩)
  | committed d r first last hchecks hdone hfirst hlast hstatus =>
      refine iff_of_true ?_ (Or.inr fun d' hd' => ?_)
      · exact auditComplete_of_middle [] hfirst (by simp)
          (Or.inl ⟨hstatus, hlast⟩)
      · cases hchecks.symm.trans hd'
        exact hdone
  | rolledBack d r first es hchecks hfailed hfirst hstatus htrail =>
      by_cases hinstall : op.category = .driverInstall
      · rw [RollbackTrail, if_pos hinstall] at htrail
        obtain ⟨last, rfl, hlast⟩ := htrail
        refine iff_of_true ?_ (Or.inl (op.category_eq_iff.mp hinstall))
        exact auditComplete_of_middle [] hfirst (by simp)
          (Or.inr ⟨hstatus, List.mem_cons_of_mem _ hlast⟩)
      · -- the category of the call has only the request
        rw [RollbackTrail, if_neg hinstall] at htrail
        subst htrail
        refine iff_of_false (fun h => ?_) ?_
        · have hend := h.oneEnd
          simp [kind_of_requested hfirst] at hend
        · intro hright
          rcases hright with haction | hdone
          · exact hinstall (op.category_eq_iff.mpr haction)
          · exact hfailed (hdone d hchecks)

/-- A machine on which a module is in use and cannot be removed. -/
def Env.moduleInUse : Env := { Env.smooth with unloadFault := some 16 }

/-- The removal of `e1000e` while it is in use is rolled back, and its own category does not
say so. -/
theorem rolled_back_removal_incomplete :
    ¬∀ (engine : DriverExecutionEngine) (env : Env) (op : Operation) (w : World),
      AuditComplete op (engine.result env op w)
        (auditsIn op.category (engine.next (.call env op) w).trace) := by
  intro h
  have hend := (h .strict .moduleInUse (.remove ⟨"e1000e", false⟩ ":1.5")
    (World.boot ⟨[e1000eDriver .available], [], 0⟩ 0 (.ofNames [e1000eModule]) inTreeModules
      .empty)).oneEnd
  exact absurd hend (by decide)

end MissionOs.Driverd
