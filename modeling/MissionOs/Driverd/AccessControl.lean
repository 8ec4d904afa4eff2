import MissionOs.Driverd.CacheFiles
import MissionOs.Driverd.Dbus

/-!
# Who may do what over the bus

`handle_wp` is the one fact about the methods that this module needs: a method
only reports, or its subject is granted the action, and it changes something
only if the subject is granted the action by every layer that is asked.

Two results follow.  Where PolKit grants nothing, no sequence of messages
changes anything.  And the subject is the parameter `caller` of the body, so a
decision is about the sender exactly if the body names the sender, or if the
decision does not depend on PolKit.
-/

namespace MissionOs.Driverd

open MissionOs.Rust MissionOs.Lib

/-- Nothing of what the methods protect has changed. -/
structure Untouched (w w' : World) : Prop where
  inventory : w'.inventory = w.inventory
  kernel : w'.kernel = w.kernel
  fs : w'.fs = w.fs

theorem Logs.untouched {kind : Event → Bool} {w w' : World} (h : Logs kind w w') :
    Untouched w w' :=
  ⟨h.inventory_eq, h.kernel_eq, h.fs_eq⟩

/-! ## What a method does -/

theorem reports_emitDriverEvent (env : Env) (event : AuditEvent) :
    Keeps Reports (emitDriverEvent env event) :=
  Keeps.bind Logs.nextSequence fun _ => Keeps.bind Keeps.get fun _ => Logs.emit rfl

theorem reports_emitInventoryChanged (env : Env) : Keeps Reports (emitInventoryChanged env) :=
  Keeps.bind Logs.nextSequence fun _ => Keeps.bind Keeps.get fun _ => Logs.emit rfl

theorem reports_auditAndEmit (env : Env) (category : EventCategory) (severity : EventSeverity)
    (action subject details : String) :
    Keeps Reports (auditAndEmit env category severity action subject details) :=
  Keeps.bind Keeps.get fun _ => Keeps.bind (Logs.emit rfl) fun _ => reports_emitDriverEvent ..

/-- A program of the cache that only reads does nothing that is seen. -/
theorem reports_runCache {state : AppState} {env : Env} {α : Type} {p : CacheProg α}
    {Q : α → Prop} (hp : Fallible.Makes (CacheCall.Drops fun _ => False) p Q) :
    Keeps Reports (state.runCache env p) := by
  refine ⟨fun w => CallProg.run_keeps (CallProg.along_mono (hp.along _ w) fun c w hc => ?_)⟩
  rcases hc with hread | ⟨_, _, hfalse⟩
  · rcases c with c | p | p
    · cases c with
      | removeFile p => cases hread
      | _ => exact Std.Refl.refl w
    · exact Std.Refl.refl w
    · exact Std.Refl.refl w
  · exact hfalse.elim

namespace AppState

variable (state : AppState) (env : Env)

/-- The authorizers that are asked for an action, one after the other. -/
def layers : DriverAction → List Authorizer
  | .installDriver | .removeDriver | .updateDriver =>
    [state.authorizer, state.executionEngine.authorizer]
  | _ => [state.authorizer]

/-- What a method may do with its subject: no more than report, unless the subject
is granted the action, and change nothing, unless every layer grants it. -/
def Respects (subject : Option (String × DriverAction)) (w w' : World) : Prop :=
  Reports w w' ∨ ∃ caller action, subject = some (caller, action) ∧
    action.isReadOnly = false ∧ state.authorizer.Granted env action caller ∧
      (Untouched w w' ∨ ∀ a ∈ state.layers action, a.Granted env action caller)

variable {state env}

/-- To authorize is to report, and to go on only if the subject is granted the
action. -/
theorem authorized_wp {action : DriverAction} {caller denied : String}
    {next : StateM World (Except FdoError Reply)}
    {Q : Except FdoError Reply → World → Prop} {w : World}
    (hdenied : ∀ w', Reports w w' → Q (.error (.accessDenied denied)) w')
    (hnext : ∀ w', Reports w w' → state.authorizer.Granted env action caller → wp next Q w') :
    wp (state.authorized env action caller denied next) Q w := by
  unfold authorized
  refine wp_bind_of (state.authorizer.authorize_wp env action caller w) ?_
  intro auth w' hpost
  obtain ⟨hreports, hauth⟩ := hpost
  rw [wp_ite]
  refine ⟨fun _ => hdenied w' hreports, fun hgranted => hnext w' hreports ?_⟩
  exact ⟨w.calls Event.isPolkitCheck, by simpa [← hauth] using hgranted⟩

/-- A method that only reports once it is authorized. -/
theorem respects_of_reports {action : DriverAction} {caller denied : String}
    {next : StateM World (Except FdoError Reply)}
    {subject : Option (String × DriverAction)} (hnext : Keeps Reports next) (w : World) :
    wp (state.authorized env action caller denied next)
      (fun _ w' => state.Respects env subject w w') w :=
  authorized_wp (fun _ h => Or.inl h) fun w₁ h _ =>
    wp_mono (hnext.wp w₁) fun _ _ h' => Or.inl (h.trans h')

/-- A method that asks one layer. -/
theorem respects_of_one_layer {action : DriverAction} {caller denied : String}
    {next : StateM World (Except FdoError Reply)} (haction : action.isReadOnly = false)
    (hlayers : state.layers action = [state.authorizer]) (w : World) :
    wp (state.authorized env action caller denied next)
      (fun _ w' => state.Respects env (some (caller, action)) w w') w := by
  refine authorized_wp (fun _ h => Or.inl h) fun w₁ _ hgranted => ?_
  refine Or.inr ⟨caller, action, rfl, haction, hgranted, Or.inr fun a ha => ?_⟩
  rw [hlayers, List.mem_singleton] at ha
  exact ha ▸ hgranted

/-- An operation of the engine, and reports after it, change nothing unless the
layer of the engine grants it. -/
theorem quiet_or_granted_of_perform {op : Operation}
    {after : OperationResult → StateM World (Except FdoError Reply)}
    (hafter : ∀ r, Keeps Reports (after r)) {w : World} (htracker : w.tracker = .new) :
    wp (do
        let r ← state.executionEngine.perform env op
        after r)
      (fun _ w' => Quiet w w' ∨
        state.executionEngine.authorizer.Granted env op.action op.caller) w := by
  refine wp_bind_of (state.executionEngine.perform_wp env op w htracker) fun r w₁ hdone => ?_
  refine wp_mono ((hafter r).wp w₁) fun _ w' hreports => ?_
  cases hdone with
  | refused r w₁ hquiet => exact Or.inl (hquiet.trans hreports.quiet)
  | executed d w₂ r w₁ _ _ hgranted => exact Or.inr hgranted

/-- A method that runs an operation of the engine. -/
theorem respects_of_operation {action : DriverAction} {caller denied : String}
    {before : StateM World Unit} {rest : StateM World (Except FdoError Reply)}
    (haction : action.isReadOnly = false)
    (hlayers : state.layers action = [state.authorizer, state.executionEngine.authorizer])
    (hbefore : Keeps Reports before)
    (hrest : ∀ w, w.tracker = .new → wp rest (fun _ w' => Quiet w w' ∨
      state.executionEngine.authorizer.Granted env action caller) w)
    {w : World} (htracker : w.tracker = .new) :
    wp (state.authorized env action caller denied do
        before
        rest)
      (fun _ w' => state.Respects env (some (caller, action)) w w') w := by
  refine authorized_wp (fun _ h => Or.inl h) fun w₁ h₁ hgranted => ?_
  refine hbefore.wp_bind fun _ w₂ h₂ => ?_
  have h := h₁.trans h₂
  refine wp_mono (hrest w₂ (h.tracker_eq.trans htracker)) fun _ w' hw' => ?_
  refine Or.inr ⟨caller, action, rfl, haction, hgranted, ?_⟩
  rcases hw' with hquiet | hengine
  · exact Or.inl (h.quiet.trans hquiet).untouched
  · rw [hlayers]
    exact Or.inr (by simpa using ⟨hgranted, hengine⟩)

/-- A request that cannot be decoded or is not valid is refused without a word. -/
theorem withRequest_wp {ρ : Type} {kind : String} {parsed : Except String ρ}
    {validate : ρ → ServiceResult Unit} {next : ρ → StateM World (Except FdoError Reply)}
    {subject : Option (String × DriverAction)} {w : World}
    (hnext : ∀ request, wp (next request) (fun _ w' => state.Respects env subject w w') w) :
    wp (withRequest kind parsed validate next)
      (fun _ w' => state.Respects env subject w w') w := by
  unfold withRequest
  cases parsed with
  | error e => exact Or.inl (Std.Refl.refl w)
  | ok request =>
      dsimp only
      cases validate request with
      | error e => exact Or.inl (Std.Refl.refl w)
      | ok u => exact hnext request

variable (state env)

/-- What a method may do. -/
theorem handle_wp (body : Method) {w : World} (htracker : w.tracker = .new) :
    wp (state.handle env body) (fun _ w' => state.Respects env body.subject w w') w := by
  cases body with
  | getVersion => exact Or.inl (Std.Refl.refl w)
  | getStatus caller =>
      exact respects_of_reports (Keeps.bind Keeps.get fun _ =>
        Keeps.bind (reports_auditAndEmit ..) fun _ => Keeps.pure _) w
  | scanHardware caller => exact respects_of_one_layer rfl rfl w
  | listDrivers caller =>
      exact respects_of_reports (Keeps.bind Keeps.get fun _ => Keeps.pure _) w
  | listDevices caller =>
      exact respects_of_reports (Keeps.bind Keeps.get fun _ => Keeps.pure _) w
  | queryDriver caller driverName provider =>
      refine respects_of_reports (Keeps.bind Keeps.get fun w => ?_) w
      cases w.inventory.findDriver driverName provider <;> exact Keeps.pure _
  | checkCompatibility caller driverName provider =>
      refine respects_of_reports (Keeps.bind Keeps.get fun w => ?_) w
      cases state.compatibilityOf w.inventory driverName provider <;> exact Keeps.pure _
  | installDriver caller requestJson =>
      refine withRequest_wp fun request => ?_
      refine respects_of_operation rfl rfl (reports_auditAndEmit ..) (fun w htracker => ?_)
        htracker
      rw [wp_bind, wp_get]
      refine quiet_or_granted_of_perform (fun r => ?_) htracker
      refine Keeps.bind (reports_emitInventoryChanged env) fun _ => ?_
      refine Keeps.ite (Keeps.bind (reports_auditAndEmit ..) fun _ => ?_) ?_ <;>
        exact Keeps.pure (R := Reports) _
  | removeDriver caller requestJson =>
      refine withRequest_wp fun request => ?_
      refine respects_of_operation rfl rfl (reports_auditAndEmit ..) (fun w htracker => ?_)
        htracker
      refine quiet_or_granted_of_perform (fun r => ?_) htracker
      exact Keeps.bind (reports_emitInventoryChanged env) fun _ => Keeps.pure _
  | updateDriver caller requestJson =>
      refine withRequest_wp fun request => ?_
      refine respects_of_operation rfl rfl (reports_auditAndEmit ..) (fun w htracker => ?_)
        htracker
      refine quiet_or_granted_of_perform (fun r => ?_) htracker
      exact Keeps.bind (reports_emitInventoryChanged env) fun _ => Keeps.pure _
  | listSources caller =>
      exact respects_of_reports (Keeps.pure (R := Reports) _) w
  | refreshMetadata caller => exact respects_of_one_layer rfl rfl w
  | getCacheStatus caller =>
      have hsize := @reports_runCache state env _ _ _ state.cacheManager.currentCacheSize_drops
      have hcount := @reports_runCache state env _ _ _ state.cacheManager.cacheEntryCount_drops
      rw [handle, getCacheStatus]
      exact respects_of_reports (Keeps.bind hsize fun _ =>
        Keeps.bind hcount fun _ => Keeps.pure _) w
  | clearCache caller =>
      rw [handle, clearCache]
      exact respects_of_one_layer rfl rfl w

end AppState

/-! ## Where PolKit grants nothing -/

/-- PolKit is absent, cannot be asked, or grants nothing. -/
def Authorizer.Unanswered (authorizer : Authorizer) (env : Env) : Prop :=
  ∀ p, authorizer.polkit = some p → p.conn = false ∨ env.tokioRuntime = false ∨
    ∀ n subject actionId, PolKitAuthorizer.saysYes (env.polkit n subject actionId) = false

/-- An authorizer that bypasses nothing grants nothing on its own. -/
theorem Authorizer.not_granted {authorizer : Authorizer} {env : Env} {action : DriverAction}
    {subject : String} (hstrict : authorizer.allowUnauthorized = false)
    (hpolkit : ∀ p, authorizer.polkit = some p → p.allowUnauthorized = false)
    (hunanswered : authorizer.Unanswered env) (haction : action.isReadOnly = false) :
    ¬ authorizer.Granted env action subject := by
  intro h
  obtain ⟨n, hgrants⟩ := h
  simp only [grants, haction, hstrict, Bool.false_or, Option.any_eq_true] at hgrants
  obtain ⟨p, hp, hgrants⟩ := hgrants
  simp only [PolKitAuthorizer.grants, haction, hpolkit p hp, Bool.false_or,
    Bool.and_eq_true] at hgrants
  obtain ⟨⟨hconn, htokio⟩, hyes⟩ := hgrants
  rcases hunanswered p hp with h | h | h
  · rw [h] at hconn
    cases hconn
  · rw [h] at htokio
    cases htokio
  · rw [h] at hyes
    cases hyes

/-- The messages that arrive, each with the outcomes of the outside world. -/
def AppState.next (state : AppState) (call : Env × Message) (w : World) : World :=
  state.receive call.1 call.2 w

/-- Where no bypass is on and PolKit grants nothing, no sequence of messages changes
the inventory, the kernel or a file, and all that happens is reports. -/
theorem denied_calls_change_nothing (state : AppState) (inventory : DriverInventory)
    (sequence : UInt64) (kernel : Kernel) (moduleDirs : ModuleDirs) (fs : FileSystem)
    (calls : List (Env × Message))
    (hstrict : state.authorizer.allowUnauthorized = false)
    (hpolkit : ∀ p, state.authorizer.polkit = some p → p.allowUnauthorized = false)
    (hunanswered : ∀ call ∈ calls, state.authorizer.Unanswered call.1) :
    Untouched (World.boot inventory sequence kernel moduleDirs fs)
        (final state.next (World.boot inventory sequence kernel moduleDirs fs) calls) ∧
      ∀ t ∈ transitions state.next (World.boot inventory sequence kernel moduleDirs fs) calls,
        ∀ e ∈ t.after.trace, e.isReport = true := by
  have hreports : ∀ w call, w.tracker = .new → state.authorizer.Unanswered call.1 →
      Reports w.fresh (state.next call w) := by
    intro w call htracker hcall
    have hdone := state.handle_wp call.1 call.2.body (w := w.fresh) htracker
    rcases hdone with hreports | ⟨caller, action, _, haction, hgranted, _⟩
    · exact hreports
    · exact absurd hgranted (Authorizer.not_granted hstrict hpolkit hcall haction)
  have hstep : ∀ w call, (w.tracker = .new ∧
        Untouched (World.boot inventory sequence kernel moduleDirs fs) w) →
      state.authorizer.Unanswered call.1 → (state.next call w).tracker = .new ∧
        Untouched (World.boot inventory sequence kernel moduleDirs fs)
          (state.next call w) := by
    intro w call hpost hcall
    obtain ⟨htracker, hw⟩ := hpost
    have h := hreports w call htracker hcall
    exact ⟨h.tracker_eq.trans htracker, h.inventory_eq.trans hw.inventory,
      h.kernel_eq.trans hw.kernel, h.fs_eq.trans hw.fs⟩
  have hcalls : ∀ t ∈ transitions state.next
      (World.boot inventory sequence kernel moduleDirs fs) calls,
      state.authorizer.Unanswered t.input.1 :=
    fun t ht => hunanswered _ (input_mem_of_mem_transitions ht)
  have hboot : (World.boot inventory sequence kernel moduleDirs fs).tracker = .new ∧
      Untouched (World.boot inventory sequence kernel moduleDirs fs)
        (World.boot inventory sequence kernel moduleDirs fs) := ⟨rfl, rfl, rfl, rfl⟩
  refine ⟨(final_invariant hstep hboot hcalls).2, fun t ht e he => ?_⟩
  have htracker := (transitions_invariant hstep hboot hcalls t ht).1.1
  obtain ⟨es, htrace, hes⟩ := (hreports _ _ htracker (hcalls t ht)).trace_eq
  rw [after_eq_of_mem_transitions ht, htrace] at he
  exact hes e (by simpa [World.fresh] using he)

/-- A removal, a rescan and a cleared cache on a bus without PolKit. -/
theorem denied_without_polkit :
    Untouched
      (World.boot ⟨[e1000eDriver .active], [], 0⟩ 0 (.ofNames [e1000eModule]) inTreeModules
        .empty)
      (final AppState.strict.next
        (World.boot ⟨[e1000eDriver .active], [], 0⟩ 0 (.ofNames [e1000eModule]) inTreeModules
          .empty)
        [({ Env.smooth with polkit := fun _ _ _ => .error "PolKit D-Bus call failed" },
            ⟨":1.66", .removeDriver ":1.66" "\x7b\"driver_name\":\"e1000e\",\"force\":true\x7d"⟩),
          ({ Env.smooth with polkit := fun _ _ _ => .ok false }, ⟨":1.66", .scanHardware ":1.5"⟩),
          ({ Env.smooth with tokioRuntime := false }, ⟨":1.66", .clearCache ":1.5"⟩)]) := by
  refine (denied_calls_change_nothing .strict ⟨[e1000eDriver .active], [], 0⟩ 0
    (.ofNames [e1000eModule]) inTreeModules .empty _ rfl ?_ ?_).1
  · intro p hp
    cases hp
    rfl
  · simp only [List.forall_mem_cons, List.not_mem_nil, false_imp_iff, implies_true, and_true]
    refine ⟨fun p _ => ?_, fun p _ => ?_, fun p _ => ?_⟩
    · exact Or.inr (Or.inr fun n subject actionId => rfl)
    · exact Or.inr (Or.inr fun n subject actionId => rfl)
    · exact Or.inr (Or.inl rfl)

/-! ## Whose decision it is -/

/-- PolKit answers by subject and action alone. -/
def Env.withPolicy (env : Env) (policy : String → String → Except String Bool) : Env :=
  { env with polkit := fun _ => policy }

namespace Authorizer

/-- The authorizer lets every request pass. -/
def bypassed (authorizer : Authorizer) : Bool :=
  authorizer.allowUnauthorized || authorizer.polkit.any (·.allowUnauthorized)

/-- The authorizer can ask PolKit. -/
def asks (authorizer : Authorizer) (env : Env) : Bool :=
  authorizer.polkit.any (·.conn) && env.tokioRuntime

theorem grants_eq (authorizer : Authorizer) (env : Env) {action : DriverAction}
    (haction : action.isReadOnly = false) (reply : Except String Bool) :
    authorizer.grants env.tokioRuntime action reply =
      (authorizer.bypassed || authorizer.asks env && PolKitAuthorizer.saysYes reply) := by
  rw [grants, bypassed, asks, haction]
  cases authorizer.polkit with
  | none => simp
  | some p => simp [PolKitAuthorizer.grants, haction, Bool.or_assoc]

/-- An authorizer that bypasses nothing grants by the answer for the subject. -/
theorem saysYes_of_granted {authorizer : Authorizer} {env : Env}
    {policy : String → String → Except String Bool} {action : DriverAction} {subject : String}
    (haction : action.isReadOnly = false) (hstrict : authorizer.bypassed = false)
    (h : authorizer.Granted (env.withPolicy policy) action subject) :
    authorizer.asks env = true ∧
      PolKitAuthorizer.saysYes (policy subject action.actionId) = true := by
  obtain ⟨n, hgrants⟩ := h
  rw [grants_eq _ _ haction, hstrict, Bool.false_or, Bool.and_eq_true] at hgrants
  exact hgrants

end Authorizer

namespace AppState

variable (state : AppState) (env : Env)

/-- The authorization decision for a subject: every layer says yes. -/
def decision (action : DriverAction) (subject : String) (w : World) : Bool :=
  (state.layers action).all fun a =>
    ((a.authorize env action subject).run w).1.isAuthorized

/-- A message passes the authorization, or changes something, only if PolKit
authorizes its sender. -/
def NeedsSender (policy : String → String → Except String Bool) (action : DriverAction)
    (subject : String) (message : Message) (w : World) : Prop :=
  (state.decision (env.withPolicy policy) action subject w = true →
      PolKitAuthorizer.saysYes (policy message.sender action.actionId) = true) ∧
    (¬ Untouched w (state.receive (env.withPolicy policy) message w) →
      PolKitAuthorizer.saysYes (policy message.sender action.actionId) = true)

variable {state env}

theorem decision_withPolicy {policy : String → String → Except String Bool}
    {action : DriverAction} {subject : String} {w : World}
    (haction : action.isReadOnly = false) :
    state.decision (env.withPolicy policy) action subject w = true ↔
      ∀ a ∈ state.layers action, a.bypassed = true ∨
        a.asks env = true ∧ PolKitAuthorizer.saysYes (policy subject action.actionId) = true := by
  rw [decision, List.all_eq_true]
  refine forall₂_congr fun a _ => ?_
  have hgrants := (a.authorize_wp (env.withPolicy policy) action subject w).2
  rw [hgrants, Authorizer.grants_eq _ _ haction, Bool.or_eq_true, Bool.and_eq_true]
  rfl

/-- A change needs the consent of every layer. -/
theorem granted_of_touched {policy : String → String → Except String Bool}
    {action : DriverAction} {subject : String} {message : Message} {w : World}
    (htracker : w.tracker = .new) (hsubject : message.body.subject = some (subject, action))
    (h : ¬ Untouched w (state.receive (env.withPolicy policy) message w)) :
    ∀ a ∈ state.layers action, a.Granted (env.withPolicy policy) action subject := by
  have hdone := state.handle_wp (env.withPolicy policy) message.body (w := w.fresh) htracker
  rcases hdone with hreports | ⟨caller, action', hsubject', _, _, hrest⟩
  · exact absurd ⟨hreports.inventory_eq, hreports.kernel_eq, hreports.fs_eq⟩ h
  · rw [hsubject, Option.some.injEq, Prod.mk.injEq] at hsubject'
    obtain ⟨rfl, rfl⟩ := hsubject'
    rcases hrest with huntouched | hgranted
    · exact absurd ⟨huntouched.inventory, huntouched.kernel, huntouched.fs⟩ h
    · exact hgranted

/-- The body that names its sender, or a layer that never grants anything, makes the
decision one about the sender. -/
theorem needsSender_of_condition {policy : String → String → Except String Bool}
    {action : DriverAction} {subject : String} {message : Message} {w : World}
    (htracker : w.tracker = .new) (haction : action.isReadOnly = false)
    (hsubject : message.body.subject = some (subject, action))
    {a : Authorizer} (ha : a ∈ state.layers action) (hstrict : a.bypassed = false)
    (hcond : a.asks env = false ∨ subject = message.sender) :
    state.NeedsSender env policy action subject message w := by
  have hanswer : a.asks env = true ∧
      PolKitAuthorizer.saysYes (policy subject action.actionId) = true →
        PolKitAuthorizer.saysYes (policy message.sender action.actionId) = true := by
    intro h
    obtain ⟨hasks, hyes⟩ := h
    rcases hcond with hnone | rfl
    · rw [hnone] at hasks
      cases hasks
    · exact hyes
  refine ⟨fun hdecision => hanswer ?_, fun htouched => hanswer ?_⟩
  · rcases (decision_withPolicy haction).mp hdecision a ha with hbypassed | h
    · rw [hstrict] at hbypassed
      cases hbypassed
    · exact h
  · exact Authorizer.saysYes_of_granted haction hstrict
      (granted_of_touched htracker hsubject htouched a ha)

/-- If every layer asks PolKit or bypasses it, a body that does not name its sender
passes where only the sender is denied. -/
theorem subject_of_needsSender {action : DriverAction} {subject : String} {message : Message}
    {w : World} (haction : action.isReadOnly = false)
    (hlayers : ∀ a ∈ state.layers action, a.bypassed = false → a.asks env = true)
    (h : ∀ policy, state.NeedsSender env policy action subject message w) :
    subject = message.sender := by
  by_contra hne
  have hdecision : state.decision
      (env.withPolicy fun s _ => .ok (decide (s ≠ message.sender))) action subject w = true := by
    rw [decision_withPolicy haction]
    intro a ha
    cases hbypassed : a.bypassed with
    | true => exact Or.inl rfl
    | false => exact Or.inr ⟨hlayers a ha hbypassed, by simp [PolKitAuthorizer.saysYes, hne]⟩
  have hyes := (h _).1 hdecision
  simp [PolKitAuthorizer.saysYes] at hyes

end AppState

/-- Two messages of one sender and one action get the same decision, and need that
PolKit authorizes the sender, under every policy of PolKit, exactly if some layer
is not bypassed, and either such a layer cannot ask PolKit or both bodies name
the sender. -/
theorem sender_decides_iff (state : AppState) (env : Env) (inventory : DriverInventory)
    (sequence : UInt64) (kernel : Kernel) (moduleDirs : ModuleDirs) (fs : FileSystem)
    (m m' : Message) (c c' : String) (action : DriverAction)
    (haction : action.isReadOnly = false) (hm : m.body.subject = some (c, action))
    (hm' : m'.body.subject = some (c', action)) (hsender : m'.sender = m.sender) :
    (∀ policy,
      state.decision (env.withPolicy policy) action c
          (World.boot inventory sequence kernel moduleDirs fs) =
        state.decision (env.withPolicy policy) action c'
          (World.boot inventory sequence kernel moduleDirs fs) ∧
      state.NeedsSender env policy action c m
        (World.boot inventory sequence kernel moduleDirs fs) ∧
      state.NeedsSender env policy action c' m'
        (World.boot inventory sequence kernel moduleDirs fs)) ↔
    (∃ a ∈ state.layers action, a.bypassed = false) ∧
      ((∃ a ∈ state.layers action, a.bypassed = false ∧ a.asks env = false) ∨
        c = m.sender ∧ c' = m.sender) := by
  constructor
  · intro h
    refine ⟨?_, ?_⟩
    · by_contra hall
      have hdecision : state.decision (env.withPolicy fun _ _ => .ok false) action c
          (World.boot inventory sequence kernel moduleDirs fs) = true := by
        rw [AppState.decision_withPolicy haction]
        intro a ha
        exact Or.inl (by simpa using fun hb => hall ⟨a, ha, hb⟩)
      have hyes := (h _).2.1.1 hdecision
      simp [PolKitAuthorizer.saysYes] at hyes
    · by_cases hnone : ∃ a ∈ state.layers action, a.bypassed = false ∧ a.asks env = false
      · exact Or.inl hnone
      · have hlayers : ∀ a ∈ state.layers action, a.bypassed = false → a.asks env = true := by
          intro a ha hstrict
          by_contra hasks
          exact hnone ⟨a, ha, hstrict, by simpa using hasks⟩
        refine Or.inr ⟨AppState.subject_of_needsSender haction hlayers fun p => (h p).2.1, ?_⟩
        rw [← hsender]
        exact AppState.subject_of_needsSender haction hlayers fun p => (h p).2.2
  · intro hpost policy
    obtain ⟨⟨b, hb, hstrict⟩, hcond⟩ := hpost
    obtain ⟨a, ha, hstrict, hcond⟩ : ∃ a ∈ state.layers action, a.bypassed = false ∧
        (a.asks env = false ∨ c = m.sender ∧ c' = m'.sender) := by
      rcases hcond with ⟨a, ha, hstrict, hasks⟩ | ⟨hc, hc'⟩
      · exact ⟨a, ha, hstrict, Or.inl hasks⟩
      · exact ⟨b, hb, hstrict, Or.inr ⟨hc, hc'.trans hsender.symm⟩⟩
    refine ⟨?_,
      AppState.needsSender_of_condition rfl haction hm ha hstrict (hcond.imp_right And.left),
      AppState.needsSender_of_condition rfl haction hm' ha hstrict (hcond.imp_right And.right)⟩
    rcases hcond with hasks | ⟨hc, hc'⟩
    · -- The layer `a` grants to nobody, so neither message passes.
      have hnever : ∀ yes : Prop, ¬ ∀ a ∈ state.layers action, a.bypassed = true ∨
          a.asks env = true ∧ yes := fun yes h => by simpa [hstrict, hasks] using h a ha
      rw [Bool.eq_iff_iff, AppState.decision_withPolicy haction,
        AppState.decision_withPolicy haction]
      exact iff_of_false (hnever _) (hnever _)
    · rw [hc, hc', hsender]

/-- Two rescans that name their sender, under a policy that authorizes `:1.5` only. -/
theorem scans_decided_by_sender :
    AppState.strict.decision (Env.smooth.withPolicy fun subject _ => .ok (subject == ":1.5"))
        .scanHardware ":1.5" (World.boot ⟨[], [], 0⟩ 0 ⟨[]⟩ inTreeModules .empty) =
      AppState.strict.decision (Env.smooth.withPolicy fun subject _ => .ok (subject == ":1.5"))
        .scanHardware ":1.5" (World.boot ⟨[], [], 0⟩ 0 ⟨[]⟩ inTreeModules .empty) ∧
    AppState.strict.NeedsSender .smooth (fun subject _ => .ok (subject == ":1.5"))
      .scanHardware ":1.5" ⟨":1.5", .scanHardware ":1.5"⟩
      (World.boot ⟨[], [], 0⟩ 0 ⟨[]⟩ inTreeModules .empty) ∧
    AppState.strict.NeedsSender .smooth (fun subject _ => .ok (subject == ":1.5"))
      .scanHardware ":1.5" ⟨":1.5", .scanHardware ":1.5"⟩
      (World.boot ⟨[], [], 0⟩ 0 ⟨[]⟩ inTreeModules .empty) :=
  (sender_decides_iff .strict .smooth ⟨[], [], 0⟩ 0 ⟨[]⟩ inTreeModules .empty
    ⟨":1.5", .scanHardware ":1.5"⟩ ⟨":1.5", .scanHardware ":1.5"⟩ ":1.5" ":1.5" .scanHardware
    rfl rfl rfl rfl).mpr
      ⟨⟨⟨false, some ⟨true, false⟩⟩, List.mem_cons_self, rfl⟩, Or.inr ⟨rfl, rfl⟩⟩
      (fun subject _ => .ok (subject == ":1.5"))

/-- The body chooses the subject: PolKit denies `:1.66` and authorizes `:1.5`, and a
rescan that `:1.66` asks for in the name of `:1.5` passes. -/
theorem body_chooses_subject :
    ¬ ∀ (policy : String → String → Except String Bool) (message : Message) (c : String)
      (action : DriverAction) (w : World),
      action.isReadOnly = false → message.body.subject = some (c, action) →
        AppState.strict.NeedsSender .smooth policy action c message w := by
  intro h
  have hneeds := h (fun subject _ => .ok (subject == ":1.5"))
    ⟨":1.66", .scanHardware ":1.5"⟩ ":1.5" .scanHardware
    (World.boot ⟨[], [], 0⟩ 0 ⟨[]⟩ inTreeModules .empty) rfl rfl
  have hpass : AppState.strict.decision
      (Env.smooth.withPolicy fun subject _ => .ok (subject == ":1.5")) .scanHardware ":1.5"
      (World.boot ⟨[], [], 0⟩ 0 ⟨[]⟩ inTreeModules .empty) = true := by decide
  have hdenied : PolKitAuthorizer.saysYes (.ok (":1.66" == ":1.5")) = true := hneeds.1 hpass
  revert hdenied
  decide

end MissionOs.Driverd
