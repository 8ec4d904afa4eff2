import MissionOs.Securityd.Authz
import MissionOs.Securityd.Firewall

/-!
# The D-Bus service

The methods of the three interfaces of `dbus.rs`, and the health signal that `main.rs` emits.
The name of the caller is an argument of the message.  The JSON of the requests is decoded by
`RequestFormat`, and the answers are kept as values.
-/

namespace MissionOs.Securityd

open MissionOs.Lib MissionOs.Rust

/-! ## Requests and answers -/

/-- `ProfileChangeRequest`. -/
structure ProfileChangeRequest where
  profile : FirewallProfile
  reason : String
deriving DecidableEq, Repr

/-- `ProfileChangeRequest::validate`. -/
def ProfileChangeRequest.validate (request : ProfileChangeRequest) : Except FirewallError Unit :=
  if trimIsEmpty request.reason then .error (.validationError "reason must not be empty")
  else .ok ()

/-- The `Debug` text of a `FirewallProfile`. -/
def FirewallProfile.debug : FirewallProfile → String
  | publicProfile => "Public"
  | privateProfile => "Private"
  | development => "Development"
  | custom => "Custom"

/-- The decoding of the JSON requests. -/
structure RequestFormat where
  profileChange : String → Except String ProfileChangeRequest
  rule : String → Except String FirewallRule

/-- The method calls. -/
inductive Method where
  | getVersion
  | getStatus (caller : String)
  | getFirewallStatus (caller : String)
  | setFirewallProfile (caller requestJson : String)
  | addFirewallRule (caller ruleJson : String)
  | exportAuditLog (caller : String)
deriving DecidableEq, Repr

/-- `zbus::fdo::Error`, as far as a method returns it. -/
inductive FdoError where
  | accessDenied (msg : String)
  | invalidArgs (msg : String)
deriving DecidableEq, Repr

/-- `FirewallStatus`. -/
structure FirewallStatus where
  enabled : Bool
  activeProfile : FirewallProfile
  ruleCount : UInt32
  backendAvailable : Bool
deriving DecidableEq, Repr

/-- `ApplyResult`. -/
structure ApplyResult where
  success : Bool
  rulesApplied : UInt32
  rulesFailed : UInt32
  error : Option String
deriving DecidableEq, Repr

/-- What a method returns. -/
inductive Reply where
  | version (text : String)
  | status (version : String) (firewallEnabled : Bool) (profile : FirewallProfile)
      (auditEnabled : Bool)
  | firewallStatus (status : FirewallStatus)
  | applied (result : ApplyResult)
  | auditLog (json : String)
deriving DecidableEq, Repr

/-- `AppState`, with what the methods read of its configuration. -/
structure AppState where
  firewallEnabled : Bool
  defaultFirewallProfile : FirewallProfile
  auditEnabled : Bool
  authorizer : Authorizer
  requests : RequestFormat

/-! ## Signals -/

/-- `emit_security_event`. -/
def emitSecurityEvent (event : AuditEvent) : Service Unit := do
  let seq ← busCall .nextSequence
  let ts ← busCall .now
  busCall (.emitSignal (.securityEvent seq ts event.content))

/-- `emit_health_changed`. -/
def emitHealthChanged (healthy : Bool) (status : String) : Service Unit := do
  let seq ← busCall .nextSequence
  let ts ← busCall .now
  busCall (.emitSignal (.healthChanged seq ts healthy status))

/-! ## Methods -/

/-- The version of the package. -/
def version : String := "0.1.0"

namespace AppState

variable (state : AppState)

/-- `AppState::audit`. -/
def audit (severity : EventSeverity) (action subject details : String) : Service AuditEvent := do
  let event ← AuditEvent.new .security severity action subject details
  busCall (.record event)
  return event

/-- An audited event that is emitted as well. -/
def auditAndEmit (severity : EventSeverity) (action subject details : String) :
    Service Unit := do
  let event ← audit severity action subject details
  emitSecurityEvent event

/-- A method goes on if its caller is authorized. -/
def authorized (action : SecurityAction) (caller denied : String)
    (next : Service (Except FdoError Reply)) : Service (Except FdoError Reply) := do
  let auth ← state.authorizer.authorize action caller
  if !auth.isAuthorized then return .error (.accessDenied denied)
  next

/-- A request that is decoded and valid; both errors are told in the same way. -/
def checked {ρ : Type} (kind : String) (decoded : Except String ρ)
    (validate : ρ → Except FirewallError Unit) : Except FdoError ρ :=
  match decoded with
  | .error e => .error (.invalidArgs ("invalid " ++ kind ++ ": " ++ e))
  | .ok request =>
    match validate request with
    | .error e => .error (.invalidArgs ("invalid " ++ kind ++ ": " ++ e.display))
    | .ok () => .ok request

/-- The request of `set_firewall_profile`. -/
def profileChange (requestJson : String) : Except FdoError ProfileChangeRequest :=
  checked "profile change request" (state.requests.profileChange requestJson)
    ProfileChangeRequest.validate

/-- The request of `add_firewall_rule`. -/
def rule (ruleJson : String) : Except FdoError FirewallRule :=
  checked "firewall rule" (state.requests.rule ruleJson) FirewallRule.validate

/-- `SecurityInterface::get_version`. -/
def getVersion : Service (Except FdoError Reply) := return .ok (.version version)

/-- `SecurityInterface::get_status`. -/
def getStatus (caller : String) : Service (Except FdoError Reply) := do
  auditAndEmit .info "get_status" caller "Security status requested"
  return .ok (.status version state.firewallEnabled state.defaultFirewallProfile
    state.auditEnabled)

/-- `FirewallInterface::get_firewall_status`. -/
def getFirewallStatus (caller : String) : Service (Except FdoError Reply) :=
  state.authorized .viewFirewallStatus caller "not authorized to view firewall status" do
    return .ok (.firewallStatus ⟨state.firewallEnabled, state.defaultFirewallProfile, 0, false⟩)

/-- `FirewallInterface::set_firewall_profile`. -/
def setFirewallProfile (caller requestJson : String) : Service (Except FdoError Reply) :=
  match state.profileChange requestJson with
  | .error e => return .error e
  | .ok request =>
    state.authorized .configureFirewall caller "not authorized to change firewall profile" do
      auditAndEmit .info "firewall_profile_changed" caller
        ("Firewall profile changed to " ++ request.profile.debug ++ ": " ++ request.reason)
      return .ok (.applied ⟨true, 0, 0,
        some "nftables backend not yet integrated; profile recorded but not applied"⟩)

/-- `FirewallInterface::add_firewall_rule`. -/
def addFirewallRule (caller ruleJson : String) : Service (Except FdoError Reply) :=
  match state.rule ruleJson with
  | .error e => return .error e
  | .ok rule =>
    state.authorized .configureFirewall caller "not authorized to add firewall rules" do
      auditAndEmit .info "firewall_rule_added" caller ("Rule added: " ++ rule.name)
      return .ok (.applied ⟨true, 1, 0,
        some "nftables backend not yet integrated; rule recorded but not applied"⟩)

/-- `AuditInterface::export_audit_log`. -/
def exportAuditLog (caller : String) : Service (Except FdoError Reply) :=
  state.authorized .exportAuditLog caller "not authorized to export audit logs" do
    auditAndEmit .info "audit_log_export" caller "Audit log export requested"
    return .ok (.auditLog "[]")

/-- The answer to a method call. -/
def handle : Method → Service (Except FdoError Reply)
  | .getVersion => getVersion
  | .getStatus caller => state.getStatus caller
  | .getFirewallStatus caller => state.getFirewallStatus caller
  | .setFirewallProfile caller requestJson => state.setFirewallProfile caller requestJson
  | .addFirewallRule caller ruleJson => state.addFirewallRule caller ruleJson
  | .exportAuditLog caller => state.exportAuditLog caller

end AppState

/-! ## The service as it runs -/

/-- What the service is busy with: a method call, or one tick of the health check of `main`. -/
inductive Job where
  | method (method : Method)
  | health (status : String)
deriving DecidableEq, Repr

/-- The program of a job.  A tick of the health check answers nothing. -/
def AppState.perform (state : AppState) : Job → Service (Option (Except FdoError Reply))
  | .method method => some <$> state.handle method
  | .health status => do
    emitHealthChanged true status
    return none

/-- What the jobs share: the signal counter, and how often the clock was read. -/
structure Shared where
  sequence : UInt64
  readings : Nat
deriving DecidableEq, Repr

/-- The answers to the calls, with a clock that shows `clock n` when it is read after `n` other
readings.  `nextSequence` is the `fetch_add` of `next_sequence`. -/
def answer (clock : Nat → UInt64) : Handler bus Shared
  | .now, s => (clock s.readings, { s with readings := s.readings + 1 })
  | .record _, s => ((), s)
  | .nextSequence, s => (s.sequence, { s with sequence := s.sequence + 1 })
  | .emitSignal _, s => ((), s)

end MissionOs.Securityd
