import MissionOs.Lib.Pool
import MissionOs.Securityd.Dbus
import Mathlib.Data.UInt

/-!
# The service under every schedule

The bus hands the calls to tasks that run at the same time, beside the health check.  `account`
is the service without any of this: what a job makes known, in order, and what it answers.
`served_as_alone` says that every job does just this under every schedule, up to the numbers and
times in its signals.

The two results on the service as a whole follow.  Without the bypass no change is ever
announced and no privileged call is answered with success (`fails_closed`), and the numbers of
the signals are all different as long as the counter does not come around
(`signal_numbers_distinct`).
-/

namespace MissionOs.Securityd

open MissionOs.Lib

/-! ## The service as it is meant -/

/-- What a job makes known. -/
inductive Effect where
  | recorded (content : Content)
  | signalled (content : Content)
  | health (healthy : Bool) (status : String)
deriving DecidableEq, Repr

/-- The effect of a call. -/
def BusCall.effect : BusCall → Option Effect
  | .record event => some (.recorded event.content)
  | .emitSignal (.securityEvent _ _ content) => some (.signalled content)
  | .emitSignal (.healthChanged _ _ healthy status) => some (.health healthy status)
  | .now | .nextSequence => none

/-- An entry that is recorded first and signalled then. -/
def announced (action subject details : String) : List Effect :=
  let content : Content := ⟨"security", "info", action, subject, details⟩
  [.recorded content, .signalled content]

/-- The entry of a check that ended well. -/
def granted (action : SecurityAction) (caller : String) : Effect :=
  .recorded ⟨"privilege", "info", "authorization_check", caller,
    "Authorized: " ++ action.description ++ " for " ++ caller⟩

/-- The entry of a check that ended badly. -/
def refused (action : SecurityAction) (caller : String) : Effect :=
  .recorded ⟨"privilege", "warning", "authorization_check", caller,
    "Denied: " ++ action.description ++ " for " ++ caller⟩

/-- Whether the caller of an action goes on. -/
def Authorizer.grants (authorizer : Authorizer) (action : SecurityAction) : Bool :=
  action.isReadOnly || authorizer.allowUnauthorized

/-- What a job makes known, and what it answers. -/
structure Account where
  effects : List Effect
  reply : Except FdoError Reply

/-- The account of a call that is checked first. -/
def AppState.guarded (state : AppState) (action : SecurityAction) (caller denied : String)
    (done : Account) : Account :=
  if state.authorizer.grants action then ⟨granted action caller :: done.effects, done.reply⟩
  else ⟨[refused action caller], .error (.accessDenied denied)⟩

/-- The account of a method call. -/
def AppState.account (state : AppState) : Method → Account
  | .getVersion => ⟨[], .ok (.version version)⟩
  | .getStatus caller =>
    ⟨announced "get_status" caller "Security status requested",
      .ok (.status version state.firewallEnabled state.defaultFirewallProfile
        state.auditEnabled)⟩
  | .getFirewallStatus caller =>
    state.guarded .viewFirewallStatus caller "not authorized to view firewall status"
      ⟨[], .ok (.firewallStatus
        ⟨state.firewallEnabled, state.defaultFirewallProfile, 0, false⟩)⟩
  | .setFirewallProfile caller requestJson =>
    match state.profileChange requestJson with
    | .error e => ⟨[], .error e⟩
    | .ok request =>
      state.guarded .configureFirewall caller "not authorized to change firewall profile"
        ⟨announced "firewall_profile_changed" caller
            ("Firewall profile changed to " ++ request.profile.debug ++ ": " ++ request.reason),
          .ok (.applied ⟨true, 0, 0,
            some "nftables backend not yet integrated; profile recorded but not applied"⟩)⟩
  | .addFirewallRule caller ruleJson =>
    match state.rule ruleJson with
    | .error e => ⟨[], .error e⟩
    | .ok rule =>
      state.guarded .configureFirewall caller "not authorized to add firewall rules"
        ⟨announced "firewall_rule_added" caller ("Rule added: " ++ rule.name),
          .ok (.applied ⟨true, 1, 0,
            some "nftables backend not yet integrated; rule recorded but not applied"⟩)⟩
  | .exportAuditLog caller =>
    state.guarded .exportAuditLog caller "not authorized to export audit logs"
      ⟨announced "audit_log_export" caller "Audit log export requested", .ok (.auditLog "[]")⟩

/-- What a job makes known. -/
def AppState.effects (state : AppState) : Job → List Effect
  | .method method => (state.account method).effects
  | .health status => [.health true status]

/-- What a job answers. -/
def AppState.reply (state : AppState) : Job → Option (Except FdoError Reply)
  | .method method => some (state.account method).reply
  | .health _ => none

/-! ## What the programs tell -/

/-- The program tells `out` and answers `reply`, whatever it is answered. -/
abbrev Tells {α : Type} (p : Service α) (out : List Effect) (reply : α) : Prop :=
  p.Utters BusCall.effect (· = reply) out

theorem tells_audit (action subject details : String) {Q : Unit → Prop} (hQ : Q ()) :
    (AppState.auditAndEmit .info action subject details).Utters BusCall.effect Q
      (announced action subject details) := by
  refine CallProg.utters_silent rfl fun now => ?_
  refine CallProg.utters_tell rfl fun _ => ?_
  refine CallProg.utters_silent rfl fun seq => ?_
  refine CallProg.utters_silent rfl fun ts => ?_
  exact CallProg.utters_tell rfl fun _ => ⟨rfl, hQ⟩

theorem tells_authorize (authorizer : Authorizer) (action : SecurityAction) (caller : String) :
    Tells (authorizer.authorize action caller)
      [if authorizer.grants action then granted action caller else refused action caller]
      (if authorizer.grants action then .authorized else .denied) := by
  unfold Authorizer.authorize Authorizer.grants
  cases action.isReadOnly with
  | true =>
      exact CallProg.utters_silent rfl fun now => CallProg.utters_tell rfl fun _ => ⟨rfl, rfl⟩
  | false =>
      cases authorizer.allowUnauthorized with
      | true =>
          exact CallProg.utters_silent rfl fun now =>
            CallProg.utters_tell rfl fun _ => ⟨rfl, rfl⟩
      | false =>
          exact CallProg.utters_silent rfl fun now =>
            CallProg.utters_tell rfl fun _ => ⟨rfl, rfl⟩

theorem tells_authorized (state : AppState) (action : SecurityAction) (caller denied : String)
    {next : Service (Except FdoError Reply)} {done : Account}
    (hnext : Tells next done.effects done.reply) :
    Tells (state.authorized action caller denied next)
      (state.guarded action caller denied done).effects
      (state.guarded action caller denied done).reply := by
  have hcheck := tells_authorize state.authorizer action caller
  unfold AppState.authorized AppState.guarded
  cases hgrants : state.authorizer.grants action with
  | true =>
      rw [hgrants] at hcheck
      show Tells _ ([granted action caller] ++ done.effects) done.reply
      refine hcheck.bind fun auth hauth => ?_
      rw [hauth]
      exact hnext
  | false =>
      rw [hgrants] at hcheck
      show Tells _ ([refused action caller] ++ []) _
      refine hcheck.bind fun auth hauth => ?_
      rw [hauth]
      exact ⟨rfl, rfl⟩

/-- An announcement, and then the answer. -/
theorem tells_announced (action subject details : String) (reply : Except FdoError Reply) :
    Tells (AppState.auditAndEmit .info action subject details >>= fun _ => pure reply)
      (announced action subject details) reply := by
  rw [← List.append_nil (announced action subject details)]
  have htell := tells_audit action subject details (Q := fun _ => True) trivial
  exact htell.bind fun _ _ => ⟨rfl, rfl⟩

/-- A method call tells its account. -/
theorem tells_account (state : AppState) (method : Method) :
    Tells (state.handle method) (state.account method).effects (state.account method).reply := by
  cases method with
  | getVersion => exact ⟨rfl, rfl⟩
  | getStatus caller => exact tells_announced _ _ _ _
  | getFirewallStatus caller => exact tells_authorized state _ _ _ ⟨rfl, rfl⟩
  | setFirewallProfile caller requestJson =>
      unfold AppState.handle AppState.setFirewallProfile AppState.account
      dsimp only
      cases state.profileChange requestJson with
      | error e => exact ⟨rfl, rfl⟩
      | ok request => exact tells_authorized state _ _ _ (tells_announced _ _ _ _)
  | addFirewallRule caller ruleJson =>
      unfold AppState.handle AppState.addFirewallRule AppState.account
      dsimp only
      cases state.rule ruleJson with
      | error e => exact ⟨rfl, rfl⟩
      | ok rule => exact tells_authorized state _ _ _ (tells_announced _ _ _ _)
  | exportAuditLog caller =>
      exact tells_authorized state _ _ _ (tells_announced _ _ _ _)

theorem tells_perform (state : AppState) (job : Job) :
    Tells (state.perform job) (state.effects job) (state.reply job) := by
  cases job with
  | method method =>
      show Tells _ (state.account method).effects (some (state.account method).reply)
      rw [← List.append_nil (state.account method).effects]
      exact (tells_account state method).bind fun reply hreply => ⟨rfl, by rw [hreply]⟩
  | health status =>
      refine CallProg.utters_silent rfl fun seq => ?_
      refine CallProg.utters_silent rfl fun ts => ?_
      exact CallProg.utters_tell rfl fun _ => ⟨rfl, rfl⟩

/-! ## Every schedule -/

section Runs

variable {ι : Type} [DecidableEq ι]

/-- What the calls of a log make known, each with its job. -/
def effectsOf (log : List (ι × Exchange bus)) : List (ι × Effect) :=
  tokensOfLog (fun x : Exchange bus => x.call.effect) log

/-- What a job has made known. -/
def knownFrom (i : ι) (log : List (ι × Exchange bus)) : List Effect :=
  (saidBy i log).filterMap fun x => x.call.effect

/-- The service after the turns of a schedule. -/
def AppState.serve (state : AppState) (clock : Nat → UInt64) (jobs : ι → Job) (start : Shared)
    (schedule : List ι) : Pool ι bus (Option (Except FdoError Reply)) Shared :=
  Pool.run (answer clock) (fun i => state.perform (jobs i)) start schedule

theorem knownFrom_serve (state : AppState) (clock : Nat → UInt64) (jobs : ι → Job)
    (start : Shared) (schedule : List ι) (i : ι) :
    knownFrom i (state.serve clock jobs start schedule).log <+: state.effects (jobs i) :=
  Pool.told_before_return (tells_perform state (jobs i))

theorem knownFrom_of_returned {state : AppState} {clock : Nat → UInt64} {jobs : ι → Job}
    {start : Shared} {schedule : List ι} {i : ι} {reply : Option (Except FdoError Reply)}
    (h : (state.serve clock jobs start schedule).tasks i = .ret reply) :
    knownFrom i (state.serve clock jobs start schedule).log = state.effects (jobs i) ∧
      reply = state.reply (jobs i) :=
  Pool.told_of_returned (Q := (· = state.reply (jobs i))) (tells_perform state (jobs i)) h

/-- A job does under every schedule what it does alone: it has made known the first part of its
account, and when it has returned, all of it, with the answer of its account. -/
theorem served_as_alone (state : AppState) (clock : Nat → UInt64) (jobs : ι → Job)
    (start : Shared) (schedule : List ι) (i : ι) :
    knownFrom i (state.serve clock jobs start schedule).log <+: state.effects (jobs i) ∧
      ∀ reply, (state.serve clock jobs start schedule).tasks i = .ret reply →
        knownFrom i (state.serve clock jobs start schedule).log = state.effects (jobs i) ∧
          reply = state.reply (jobs i) :=
  ⟨knownFrom_serve state clock jobs start schedule i, fun _ h => knownFrom_of_returned h⟩

/-! ## Changes -/

/-- The actions of the entries that announce a change or an export. -/
def changeActions : List String :=
  ["firewall_profile_changed", "firewall_rule_added", "audit_log_export"]

/-- The effect announces a change or an export. -/
def Effect.IsChange : Effect → Prop
  | .recorded content | .signalled content => content.action ∈ changeActions
  | .health _ _ => False

/-- In a list of effects a change stands only after a granted check of an action that is not
read-only, and only under the bypass. -/
def AppState.ChangesGranted (state : AppState) (effects : List Effect) : Prop :=
  ∀ before effect after, effects = before ++ effect :: after → effect.IsChange →
    state.authorizer.allowUnauthorized = true ∧
      ∃ action caller, action.isReadOnly = false ∧ granted action caller ∈ before

theorem not_isChange_granted (action : SecurityAction) (caller : String) :
    ¬(granted action caller).IsChange := by
  show "authorization_check" ∉ changeActions
  decide

theorem not_isChange_refused (action : SecurityAction) (caller : String) :
    ¬(refused action caller).IsChange := by
  show "authorization_check" ∉ changeActions
  decide

theorem changesGranted_of_none {state : AppState} {effects : List Effect}
    (h : ∀ effect ∈ effects, ¬effect.IsChange) : state.ChangesGranted effects := by
  intro before effect after heffects hchange
  refine absurd hchange (h effect ?_)
  rw [heffects]
  exact List.mem_append_right _ List.mem_cons_self

theorem changesGranted_guarded (state : AppState) {action : SecurityAction}
    (haction : action.isReadOnly = false) (caller denied : String) (done : Account) :
    state.ChangesGranted (state.guarded action caller denied done).effects := by
  unfold AppState.guarded
  split
  next hgrants =>
    have hallow : state.authorizer.allowUnauthorized = true := by
      simpa [Authorizer.grants, haction] using hgrants
    intro before effect after heffects hchange
    cases before with
    | nil =>
        have hfirst : granted action caller = effect := (List.cons.inj heffects).1
        rw [← hfirst] at hchange
        exact absurd hchange (not_isChange_granted action caller)
    | cons first before =>
        have hfirst : granted action caller = first := (List.cons.inj heffects).1
        exact ⟨hallow, action, caller, haction, hfirst ▸ List.mem_cons_self⟩
  next =>
    refine changesGranted_of_none fun effect heffect => ?_
    rw [List.mem_singleton.mp heffect]
    exact not_isChange_refused action caller

theorem changesGranted_effects (state : AppState) (job : Job) :
    state.ChangesGranted (state.effects job) := by
  cases job with
  | health status =>
      refine changesGranted_of_none fun effect heffect => ?_
      rw [List.mem_singleton.mp heffect]
      exact id
  | method method =>
      unfold AppState.effects AppState.account
      cases method with
      | getVersion => exact changesGranted_of_none fun _ h => absurd h List.not_mem_nil
      | getStatus caller =>
          refine changesGranted_of_none fun effect heffect => ?_
          have hnone : "get_status" ∉ changeActions := by decide
          rcases List.mem_pair.mp heffect with rfl | rfl
          · exact hnone
          · exact hnone
      | getFirewallStatus caller =>
          refine changesGranted_of_none fun effect heffect => ?_
          rw [List.mem_singleton.mp heffect]
          exact not_isChange_granted _ caller
      | setFirewallProfile caller requestJson =>
          dsimp only
          cases state.profileChange requestJson with
          | error e => exact changesGranted_of_none fun _ h => absurd h List.not_mem_nil
          | ok request => exact changesGranted_guarded state rfl _ _ _
      | addFirewallRule caller ruleJson =>
          dsimp only
          cases state.rule ruleJson with
          | error e => exact changesGranted_of_none fun _ h => absurd h List.not_mem_nil
          | ok rule => exact changesGranted_guarded state rfl _ _ _
      | exportAuditLog caller => exact changesGranted_guarded state rfl _ _ _

/-- Of the jobs' effects, those of one job. -/
theorem effectsOf_filter (log : List (ι × Exchange bus)) (i : ι) :
    ((effectsOf log).filter fun x => x.1 = i).map (·.2) = knownFrom i log :=
  tokensOfLog_filter _ log i

/-- The methods that change something or give the audit log away. -/
def Method.isPrivileged : Method → Bool
  | .setFirewallProfile .. | .addFirewallRule .. | .exportAuditLog _ => true
  | .getVersion | .getStatus _ | .getFirewallStatus _ => false

/-- Without the bypass the account of a privileged call is no change, and its answer an error. -/
theorem account_of_strict {state : AppState} (hstrict : state.authorizer.allowUnauthorized = false)
    {method : Method} (hprivileged : method.isPrivileged = true) :
    ∃ e, (state.account method).reply = .error e := by
  have hrefuses : ∀ (action : SecurityAction) (caller denied : String) (done : Account),
      action.isReadOnly = false →
        (state.guarded action caller denied done).reply = .error (.accessDenied denied) := by
    intro action caller denied done haction
    rw [AppState.guarded, if_neg]
    rw [Authorizer.grants, haction, hstrict]
    exact Bool.false_ne_true
  cases method with
  | getVersion => cases hprivileged
  | getStatus caller => cases hprivileged
  | getFirewallStatus caller => cases hprivileged
  | setFirewallProfile caller requestJson =>
      unfold AppState.account
      dsimp only
      cases state.profileChange requestJson with
      | error e => exact ⟨e, rfl⟩
      | ok request => exact ⟨_, hrefuses _ _ _ _ rfl⟩
  | addFirewallRule caller ruleJson =>
      unfold AppState.account
      dsimp only
      cases state.rule ruleJson with
      | error e => exact ⟨e, rfl⟩
      | ok rule => exact ⟨_, hrefuses _ _ _ _ rfl⟩
  | exportAuditLog caller => exact ⟨_, hrefuses _ _ _ _ rfl⟩

/-- In the log of a run a change stands only after a granted check of the same job, and only
under the bypass; without the bypass a privileged call that has returned has failed. -/
structure AppState.FailsClosed (state : AppState) (jobs : ι → Job)
    (pool : Pool ι bus (Option (Except FdoError Reply)) Shared) : Prop where
  granted : ∀ before i effect after, effectsOf pool.log = before ++ (i, effect) :: after →
    effect.IsChange → state.authorizer.allowUnauthorized = true ∧
      ∃ action caller, action.isReadOnly = false ∧ (i, granted action caller) ∈ before
  refused : state.authorizer.allowUnauthorized = false → ∀ i method, jobs i = .method method →
    method.isPrivileged = true → ∀ reply, pool.tasks i = .ret reply → ∃ e, reply = some (.error e)

/-- The service fails closed under every schedule of any jobs. -/
theorem fails_closed (state : AppState) (clock : Nat → UInt64) (jobs : ι → Job) (start : Shared)
    (schedule : List ι) : state.FailsClosed jobs (state.serve clock jobs start schedule) where
  granted := by
    intro before i effect after heffects hchange
    have hknown := knownFrom_serve state clock jobs start schedule i
    rw [← effectsOf_filter, heffects, List.filter_append, List.map_append,
      List.filter_cons_of_pos (by simp), List.map_cons] at hknown
    obtain ⟨rest, hrest⟩ := hknown
    obtain ⟨hallow, action, caller, haction, hmem⟩ :=
      changesGranted_effects state (jobs i) _ effect _ (hrest.symm.trans (List.append_assoc ..))
        hchange
    obtain ⟨x, hx, hgranted⟩ := List.mem_map.mp hmem
    have hi : x.1 = i := by simpa using (List.mem_filter.mp hx).2
    refine ⟨hallow, action, caller, haction, ?_⟩
    rw [← hgranted, ← hi]
    exact (List.mem_filter.mp hx).1
  refused := by
    intro hstrict i method hjob hprivileged reply hreturned
    have hreply := (knownFrom_of_returned hreturned).2
    obtain ⟨e, he⟩ := account_of_strict hstrict hprivileged
    refine ⟨e, ?_⟩
    rw [hreply, hjob, AppState.reply, he]

/-! ## The numbers of the signals -/

/-- The number that a call draws. -/
def drawnNumber : (c : BusCall) → c.Reply → Option UInt64
  | .nextSequence, seq => some seq
  | .now, _ | .record _, _ | .emitSignal _, _ => none

/-- The number of the signal that a call emits. -/
def BusCall.signalNumber : BusCall → Option UInt64
  | .emitSignal (.securityEvent seq _ _) | .emitSignal (.healthChanged seq _ _ _) => some seq
  | .now | .record _ | .nextSequence => none

/-- The numbers that the jobs of a log have drawn, in the order of the log. -/
def numbersDrawn (log : List (ι × Exchange bus)) : List (ι × UInt64) :=
  tokensOfLog (fun x : Exchange bus => drawnNumber x.call x.reply) log

/-- The numbers of the signals of a log, in the order of the log. -/
def numbersSignalled (log : List (ι × Exchange bus)) : List (ι × UInt64) :=
  tokensOfLog (fun x : Exchange bus => x.call.signalNumber) log

/-- A program keeps no number that it has drawn, and spends none that it has not. -/
abbrev Spends {α : Type} (p : Service α) : Prop :=
  p.Thrifty drawnNumber BusCall.signalNumber (fun _ held => held = []) []

theorem nothing_left (seq : UInt64) : ([seq].erase seq ++ [] : List UInt64) = [] := by simp

theorem spends_announced (action subject details : String) (reply : Except FdoError Reply) :
    Spends (AppState.auditAndEmit .info action subject details >>= fun _ => pure reply) := by
  intro now _ seq ts
  exact ⟨List.mem_singleton_self seq, fun _ => nothing_left seq⟩

theorem spends_authorize (authorizer : Authorizer) (action : SecurityAction) (caller : String) :
    Spends (authorizer.authorize action caller) := by
  unfold Authorizer.authorize
  cases action.isReadOnly with
  | true => exact fun now _ => rfl
  | false =>
      cases authorizer.allowUnauthorized with
      | true => exact fun now _ => rfl
      | false => exact fun now _ => rfl

theorem spends_authorized (state : AppState) (action : SecurityAction) (caller denied : String)
    {next : Service (Except FdoError Reply)} (hnext : Spends next) :
    Spends (state.authorized action caller denied next) := by
  refine (spends_authorize state.authorizer action caller).bind fun auth left hleft => ?_
  rw [hleft]
  cases auth with
  | authorized => exact hnext
  | denied => exact rfl
  | indeterminate => exact rfl

theorem spends_perform (state : AppState) (job : Job) : Spends (state.perform job) := by
  cases job with
  | health status =>
      intro seq ts
      exact ⟨List.mem_singleton_self seq, fun _ => nothing_left seq⟩
  | method method =>
      have hmethod : Spends (state.handle method) := by
        cases method with
        | getVersion => exact rfl
        | getStatus caller => exact spends_announced _ _ _ _
        | getFirewallStatus caller => exact spends_authorized state _ _ _ rfl
        | setFirewallProfile caller requestJson =>
            unfold AppState.handle AppState.setFirewallProfile
            dsimp only
            cases state.profileChange requestJson with
            | error e => exact rfl
            | ok request => exact spends_authorized state _ _ _ (spends_announced _ _ _ _)
        | addFirewallRule caller ruleJson =>
            unfold AppState.handle AppState.addFirewallRule
            dsimp only
            cases state.rule ruleJson with
            | error e => exact rfl
            | ok rule => exact spends_authorized state _ _ _ (spends_announced _ _ _ _)
        | exportAuditLog caller =>
            exact spends_authorized state _ _ _ (spends_announced _ _ _ _)
      exact hmethod.bind fun _ _ hleft => hleft

/-- The `n` numbers from `first` on. -/
def numbersFrom (first : UInt64) (n : Nat) : List UInt64 :=
  (List.range n).map fun k => first + UInt64.ofNat k

theorem nodup_numbersFrom (first : UInt64) {n : Nat} (hn : n ≤ 2 ^ 64) :
    (numbersFrom first n).Nodup := by
  refine List.Nodup.map_on ?_ List.nodup_range
  intro j hj k hk hjk
  rw [List.mem_range] at hj hk
  have hofNat : UInt64.ofNat j = UInt64.ofNat k := by
    simpa using hjk
  have htoNat := congrArg UInt64.toNat hofNat
  have hsize : UInt64.size = 2 ^ 64 := rfl
  rwa [UInt64.toNat_ofNat_of_lt' (by omega), UInt64.toNat_ofNat_of_lt' (by omega)] at htoNat

theorem numbersFrom_succ (first : UInt64) (n : Nat) :
    numbersFrom first (n + 1) = numbersFrom first n ++ [first + UInt64.ofNat n] := by
  rw [numbersFrom, numbersFrom, List.range_succ, List.map_append, List.map_singleton]

omit [DecidableEq ι] in
theorem numbersDrawn_snoc (log : List (ι × Exchange bus)) (i : ι) (x : Exchange bus) :
    numbersDrawn (log ++ [(i, x)]) =
      numbersDrawn log ++ ((drawnNumber x.call x.reply).map (i, ·)).toList := by
  cases hx : drawnNumber x.call x.reply <;> simp [numbersDrawn, tokensOfLog, hx]

omit [DecidableEq ι] in
/-- The numbers drawn are consecutive, and the counter shows the next one. -/
theorem numbersDrawn_of_answered {clock : Nat → UInt64} {start s : Shared}
    {log : List (ι × Exchange bus)} (h : Pool.Answered (answer clock) start log s) :
    (numbersDrawn log).map (·.2) = numbersFrom start.sequence (numbersDrawn log).length ∧
      s.sequence = start.sequence + UInt64.ofNat (numbersDrawn log).length := by
  induction h with
  | nil => exact ⟨rfl, by simp [numbersDrawn, tokensOfLog]⟩
  | @snoc log t _ i c ih =>
      obtain ⟨hdrawn, hnext⟩ := ih
      have hsilent : ∀ x : Exchange bus, drawnNumber x.call x.reply = none →
          numbersDrawn (log ++ [(i, x)]) = numbersDrawn log := by
        intro x hx
        rw [numbersDrawn_snoc, hx, Option.map_none, Option.toList_none, List.append_nil]
      cases c with
      | now =>
          rw [hsilent _ rfl]
          exact ⟨hdrawn, hnext⟩
      | record event =>
          rw [hsilent _ rfl]
          exact ⟨hdrawn, hnext⟩
      | emitSignal signal =>
          rw [hsilent _ rfl]
          exact ⟨hdrawn, hnext⟩
      | nextSequence =>
          have hdraw : numbersDrawn
              (log ++ [(i, ⟨.nextSequence, (answer clock .nextSequence t).1⟩)]) =
                numbersDrawn log ++ [(i, t.sequence)] := numbersDrawn_snoc log i _
          show _ ∧ t.sequence + 1 = _
          rw [hdraw, List.length_append, List.length_singleton, numbersFrom_succ, List.map_append,
            hdrawn, ← hnext]
          refine ⟨rfl, ?_⟩
          rw [hnext, UInt64.ofNat_add, UInt64.add_assoc]
          rfl

/-- The numbers of the signals of a run. -/
structure NumbersInOrder (start : Shared) (log : List (ι × Exchange bus)) : Prop where
  consecutive : (numbersDrawn log).map (·.2) = numbersFrom start.sequence (numbersDrawn log).length
  own : ∀ x ∈ numbersSignalled log, x ∈ numbersDrawn log
  distinct : (numbersDrawn log).length ≤ 2 ^ 64 → ((numbersSignalled log).map (·.2)).Nodup

/-- Under every schedule the numbers are drawn one after the other, every signal carries a number
that its own job has drawn, and no two signals carry the same one. -/
theorem signal_numbers_distinct (state : AppState) (clock : Nat → UInt64) (jobs : ι → Job)
    (start : Shared) (schedule : List ι) :
    NumbersInOrder start (state.serve clock jobs start schedule).log := by
  have hconsecutive := (numbersDrawn_of_answered
    (Pool.answered_run (answer clock) (fun i => state.perform (jobs i)) start schedule)).1
  have hthrifty : ∀ i, Spends (state.perform (jobs i)) := fun i => spends_perform state (jobs i)
  refine ⟨hconsecutive, fun x hx => Pool.spent_handed hthrifty hx, fun hlength => ?_⟩
  refine Pool.spent_nodup hthrifty ?_
  show ((numbersDrawn _).map (·.2)).Nodup
  rw [hconsecutive]
  exact nodup_numbersFrom start.sequence hlength

end Runs

end MissionOs.Securityd
