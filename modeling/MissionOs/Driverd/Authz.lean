import MissionOs.Driverd.World

/-!
# Authorization

The authorization boundary of `authz.rs` and its PolKit backend of `polkit.rs`.
Both layers are asked with the name of an action and of a subject, and both
write an audit event for each decision.

`authorize_wp` says what a decision depends on: `grants` is the decision as a
function of the reply that PolKit gives next.
-/

namespace MissionOs.Driverd

open MissionOs.Rust MissionOs.Lib

/-! ## Actions and decisions -/

/-- `DriverAction`. -/
inductive DriverAction where
  | viewStatus
  | listDrivers
  | queryDriver
  | checkCompatibility
  | installDriver
  | updateDriver
  | removeDriver
  | configureSources
  | scanHardware
deriving DecidableEq, Repr

namespace DriverAction

/-- `DriverAction::action_id`. -/
def actionId : DriverAction → String
  | viewStatus => "org.mission.driver.view-status"
  | listDrivers => "org.mission.driver.list-drivers"
  | queryDriver => "org.mission.driver.query-driver"
  | checkCompatibility => "org.mission.driver.check-compatibility"
  | installDriver => "org.mission.driver.install-driver"
  | updateDriver => "org.mission.driver.update-driver"
  | removeDriver => "org.mission.driver.remove-driver"
  | configureSources => "org.mission.driver.configure-sources"
  | scanHardware => "org.mission.driver.scan-hardware"

/-- `DriverAction::description`. -/
def description : DriverAction → String
  | viewStatus => "View driver service status"
  | listDrivers => "List all drivers in inventory"
  | queryDriver => "Query detailed driver information"
  | checkCompatibility => "Check driver compatibility with hardware"
  | installDriver => "Install a driver on the system"
  | updateDriver => "Update an installed driver"
  | removeDriver => "Remove a driver from the system"
  | configureSources => "Configure driver sources and repositories"
  | scanHardware => "Trigger hardware inventory scan"

/-- `DriverAction::is_read_only`. -/
def isReadOnly : DriverAction → Bool
  | viewStatus | listDrivers | queryDriver | checkCompatibility => true
  | _ => false

end DriverAction

/-- `Authorization`. -/
inductive Authorization where
  | authorized
  | denied
  | indeterminate
deriving DecidableEq, Repr

/-- `Authorization::is_authorized`. -/
def Authorization.isAuthorized : Authorization → Bool
  | authorized => true
  | _ => false

/-! ## The PolKit backend -/

/-- `PolKitAuthorizer`: whether it has a bus connection, and whether it lets
every request pass. -/
structure PolKitAuthorizer where
  conn : Bool
  allowUnauthorized : Bool
deriving DecidableEq, Repr

/-- An audit event on a decision.  The two layers differ in the action and in
the words. -/
def auditDecision (env : Env) (action granted denied indeterminate : String)
    (subject description : String) : Authorization → StateM World Unit
  | .authorized =>
      audit env .authorization .info action subject
        (granted ++ ": " ++ description ++ " for " ++ subject)
  | .denied =>
      audit env .authorization .warning action subject
        (denied ++ ": " ++ description ++ " for " ++ subject)
  | .indeterminate =>
      audit env .authorization .error action subject
        (indeterminate ++ ": " ++ description ++ " for " ++ subject)

/-- Whether a call asks PolKit. -/
def Event.isPolkitCheck : Event → Bool
  | .polkitCheck _ _ => true
  | _ => false

namespace PolKitAuthorizer

/-- `PolKitAuthorizer::audit_authorization`. -/
def auditAuthorization (env : Env) (action : DriverAction) (subject : String)
    (result : Authorization) : StateM World Unit :=
  auditDecision env "polkit_authorization_check" "PolKit authorized" "PolKit denied"
    "PolKit indeterminate" subject action.description result

/-- `call_polkit_check`: the reply for the subject of that bus name. -/
def callPolkitCheck (env : Env) (action : DriverAction) (caller : String) :
    StateM World (Except String Bool) := do
  let w ← get
  emit (.polkitCheck caller action.actionId)
  return env.polkit (w.calls Event.isPolkitCheck) caller action.actionId

/-- A decision, recorded. -/
def decide (env : Env) (action : DriverAction) (caller : String) (result : Authorization) :
    StateM World Authorization := do
  auditAuthorization env action caller result
  return result

/-- `check_authorization_sync`. -/
def checkAuthorizationSync (env : Env) (polkit : PolKitAuthorizer) (action : DriverAction)
    (caller : String) : StateM World Authorization := do
  if action.isReadOnly then decide env action caller .authorized
  else if polkit.allowUnauthorized then decide env action caller .authorized
  else if !polkit.conn then decide env action caller .denied
  else if !env.tokioRuntime then decide env action caller .denied
  else
    match ← callPolkitCheck env action caller with
    | .ok true => decide env action caller .authorized
    | .ok false => decide env action caller .denied
    | .error _ => decide env action caller .denied

/-- A reply that grants the request. -/
def saysYes : Except String Bool → Bool
  | .ok b => b
  | .error _ => false

/-- Whether a request passes the PolKit layer, with `reply` the reply of PolKit
for the subject and the action. -/
def grants (polkit : PolKitAuthorizer) (tokioRuntime : Bool) (action : DriverAction)
    (reply : Except String Bool) : Bool :=
  action.isReadOnly || polkit.allowUnauthorized ||
    (polkit.conn && tokioRuntime && saysYes reply)

end PolKitAuthorizer

/-! ## The authorizer -/

/-- `Authorizer`. -/
structure Authorizer where
  allowUnauthorized : Bool
  polkit : Option PolKitAuthorizer
deriving DecidableEq, Repr

namespace Authorizer

/-- `Authorizer::audit_authorization`. -/
def auditAuthorization (env : Env) (action : DriverAction) (subject : String)
    (result : Authorization) : StateM World Unit :=
  auditDecision env "authorization_check" "Authorized" "Denied"
    "Authorization indeterminate" subject action.description result

/-- A decision, recorded. -/
def decide (env : Env) (action : DriverAction) (subject : String) (result : Authorization) :
    StateM World Authorization := do
  auditAuthorization env action subject result
  return result

/-- `Authorizer::authorize`. -/
def authorize (env : Env) (authorizer : Authorizer) (action : DriverAction)
    (subject : String) : StateM World Authorization := do
  if action.isReadOnly then decide env action subject .authorized
  else if authorizer.allowUnauthorized then decide env action subject .authorized
  else
    match authorizer.polkit with
    | some polkit =>
      let result ← polkit.checkAuthorizationSync env action subject
      decide env action subject result
    | none => decide env action subject .denied

/-- Whether a request passes, with `reply` the reply of PolKit for the subject
and the action. -/
def grants (authorizer : Authorizer) (tokioRuntime : Bool) (action : DriverAction)
    (reply : Except String Bool) : Bool :=
  action.isReadOnly || authorizer.allowUnauthorized ||
    authorizer.polkit.any fun polkit => polkit.grants tokioRuntime action reply

/-- The subject is granted the action by some reply of PolKit. -/
def Granted (authorizer : Authorizer) (env : Env) (action : DriverAction)
    (subject : String) : Prop :=
  ∃ n, authorizer.grants env.tokioRuntime action
    (env.polkit n subject action.actionId) = true

end Authorizer

/-! ## What a decision depends on -/

theorem reports_auditDecision (env : Env) (action granted denied indeterminate : String)
    (subject description : String) (result : Authorization) :
    Keeps Reports
      (auditDecision env action granted denied indeterminate subject description result) := by
  cases result <;> exact reports_audit ..

theorem PolKitAuthorizer.decide_wp {env : Env} {action : DriverAction} {caller : String}
    {result : Authorization} {Q : Authorization → World → Prop} {w : World}
    (h : ∀ w', Reports w w' → Q result w') : wp (decide env action caller result) Q w :=
  (reports_auditDecision ..).wp_bind fun _ w' hq => h w' hq

/-- The PolKit layer passes a request exactly if the action is read-only, the
bypass is on, or PolKit can be asked and says yes. -/
theorem PolKitAuthorizer.checkAuthorizationSync_wp (env : Env) (polkit : PolKitAuthorizer)
    (action : DriverAction) (caller : String) (w : World) :
    wp (polkit.checkAuthorizationSync env action caller)
      (fun r w' => Reports w w' ∧
        r.isAuthorized = polkit.grants env.tokioRuntime action
          (env.polkit (w.calls Event.isPolkitCheck) caller action.actionId)) w := by
  rw [checkAuthorizationSync, grants]
  cases action.isReadOnly with
  | true => exact decide_wp fun w' hq => ⟨hq, by simp [Authorization.isAuthorized]⟩
  | false =>
  cases polkit.allowUnauthorized with
  | true => exact decide_wp fun w' hq => ⟨hq, by simp [Authorization.isAuthorized]⟩
  | false =>
  cases polkit.conn with
  | false => exact decide_wp fun w' hq => ⟨hq, by simp [Authorization.isAuthorized]⟩
  | true =>
  cases env.tokioRuntime with
  | false => exact decide_wp fun w' hq => ⟨hq, by simp [Authorization.isAuthorized]⟩
  | true =>
  have hask : Reports w (w.record (.polkitCheck caller action.actionId)) :=
    (Logs.emit (e := .polkitCheck caller action.actionId) rfl).wp w
  simp only [Bool.false_eq_true, if_false, Bool.not_true, wp_bind, callPolkitCheck, wp_get,
    emit, wp_modify, wp_pure]
  cases env.polkit (w.calls Event.isPolkitCheck) caller action.actionId with
  | error e =>
      exact decide_wp fun w' hq =>
        ⟨hask.trans hq, by simp [Authorization.isAuthorized, saysYes]⟩
  | ok b =>
      cases b <;> exact decide_wp fun w' hq =>
        ⟨hask.trans hq, by simp [Authorization.isAuthorized, saysYes]⟩

theorem Authorizer.decide_wp {env : Env} {action : DriverAction} {subject : String}
    {result : Authorization} {Q : Authorization → World → Prop} {w : World}
    (h : ∀ w', Reports w w' → Q result w') : wp (decide env action subject result) Q w :=
  (reports_auditDecision ..).wp_bind fun _ w' hq => h w' hq

/-- A request passes exactly if `grants` says so for the next reply of PolKit,
and to decide is to do no more than look. -/
theorem Authorizer.authorize_wp (env : Env) (authorizer : Authorizer) (action : DriverAction)
    (subject : String) (w : World) :
    wp (authorizer.authorize env action subject)
      (fun r w' => Reports w w' ∧
        r.isAuthorized = authorizer.grants env.tokioRuntime action
          (env.polkit (w.calls Event.isPolkitCheck) subject action.actionId)) w := by
  rw [authorize, grants]
  cases action.isReadOnly with
  | true => exact decide_wp fun w' hq => ⟨hq, by simp [Authorization.isAuthorized]⟩
  | false =>
  cases authorizer.allowUnauthorized with
  | true => exact decide_wp fun w' hq => ⟨hq, by simp [Authorization.isAuthorized]⟩
  | false =>
  cases authorizer.polkit with
  | none => exact decide_wp fun w' hq => ⟨hq, by simp [Authorization.isAuthorized]⟩
  | some polkit =>
      simp only [Bool.false_eq_true, if_false]
      refine wp_bind_of (polkit.checkAuthorizationSync_wp env action subject w) ?_
      intro r w' hpost
      obtain ⟨hq, hr⟩ := hpost
      exact decide_wp fun w'' hq' => ⟨hq.trans hq', by simpa using hr⟩

end MissionOs.Driverd
