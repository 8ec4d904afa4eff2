import MissionOs.Lib.CallProg

/-!
# Audit events and authorization

The events of `audit.rs` and the authorization boundary of `authz.rs`.  The service reaches its
surroundings through four calls: it reads the clock, records an audit event, draws a sequence
number and emits a signal.  The audit backends of the service and of its authorizer write to one
place.
-/

namespace MissionOs.Securityd

open MissionOs.Lib

/-! ## Audit events -/

/-- `EventCategory`. -/
inductive EventCategory where
  | authentication
  | privilege
  | security
  | privacy
  | update
  | driver
  | system
deriving DecidableEq, Repr

/-- The `Display` text of an `EventCategory`. -/
def EventCategory.display : EventCategory → String
  | authentication => "authentication"
  | privilege => "privilege"
  | security => "security"
  | privacy => "privacy"
  | update => "update"
  | driver => "driver"
  | system => "system"

/-- `EventSeverity`. -/
inductive EventSeverity where
  | debug
  | info
  | warning
  | error
  | critical
deriving DecidableEq, Repr

/-- The `Display` text of an `EventSeverity`. -/
def EventSeverity.display : EventSeverity → String
  | debug => "debug"
  | info => "info"
  | warning => "warning"
  | error => "error"
  | critical => "critical"

/-- `AuditEvent`. -/
structure AuditEvent where
  timestamp : UInt64
  category : EventCategory
  severity : EventSeverity
  action : String
  subject : String
  details : String
  correlationId : Option String
deriving DecidableEq, Repr

/-- What a `SecurityEvent` signal shows of an event. -/
structure Content where
  category : String
  severity : String
  action : String
  subject : String
  details : String
deriving DecidableEq, Repr

/-- The texts of an event. -/
def AuditEvent.content (event : AuditEvent) : Content where
  category := event.category.display
  severity := event.severity.display
  action := event.action
  subject := event.subject
  details := event.details

/-! ## The surroundings -/

/-- The signals of the service. -/
inductive Signal where
  | securityEvent (sequence timestamp : UInt64) (content : Content)
  | healthChanged (sequence timestamp : UInt64) (healthy : Bool) (status : String)
deriving DecidableEq, Repr

/-- The calls of the service. -/
inductive BusCall where
  | now
  | record (event : AuditEvent)
  | nextSequence
  | emitSignal (signal : Signal)
deriving DecidableEq, Repr

/-- What a call is answered. -/
abbrev BusCall.Reply : BusCall → Type
  | now => UInt64
  | record _ => Unit
  | nextSequence => UInt64
  | emitSignal _ => Unit

/-- The surroundings of the service. -/
abbrev bus : Interface where
  Call := BusCall
  Reply := BusCall.Reply

/-- A program of the service. -/
abbrev Service (α : Type) := CallProg bus α

/-- Make one call. -/
abbrev busCall (c : BusCall) : Service c.Reply := CallProg.perform (I := bus) c

/-- `AuditEvent::new`. -/
def AuditEvent.new (category : EventCategory) (severity : EventSeverity)
    (action subject details : String) : Service AuditEvent := do
  let now ← busCall .now
  return ⟨now, category, severity, action, subject, details, none⟩

/-! ## Authorization -/

/-- `SecurityAction`. -/
inductive SecurityAction where
  | viewFirewallStatus
  | configureFirewall
  | viewAuditLog
  | exportAuditLog
  | changeSecurityPolicy
  | manageCertificates
  | viewSecureBootStatus
  | configureSecureBoot
  | viewSandboxStatus
  | configureSandbox
deriving DecidableEq, Repr

namespace SecurityAction

/-- `SecurityAction::description`. -/
def description : SecurityAction → String
  | viewFirewallStatus => "View firewall status and rules"
  | configureFirewall => "Modify firewall configuration"
  | viewAuditLog => "View security audit logs"
  | exportAuditLog => "Export or forward audit logs"
  | changeSecurityPolicy => "Change security policy settings"
  | manageCertificates => "Manage certificate trust store"
  | viewSecureBootStatus => "View Secure Boot status"
  | configureSecureBoot => "Modify Secure Boot configuration"
  | viewSandboxStatus => "View sandbox/MAC policy status"
  | configureSandbox => "Modify sandbox/MAC policy"

/-- `SecurityAction::is_read_only`. -/
def isReadOnly : SecurityAction → Bool
  | viewFirewallStatus | viewAuditLog | viewSecureBootStatus | viewSandboxStatus => true
  | _ => false

end SecurityAction

/-- `Authorization`. -/
inductive Authorization where
  | authorized
  | denied
  | indeterminate
deriving DecidableEq, Repr

/-- `Authorization::is_authorized`. -/
def Authorization.isAuthorized : Authorization → Bool
  | authorized => true
  | _ => false

/-- `Authorizer`. -/
structure Authorizer where
  allowUnauthorized : Bool
deriving DecidableEq, Repr

namespace Authorizer

/-- `Authorizer::audit_authorization`. -/
def auditAuthorization (action : SecurityAction) (subject : String) (result : Authorization) :
    Service Unit := do
  let (severity, details) := match result with
    | .authorized =>
        (EventSeverity.info, "Authorized: " ++ action.description ++ " for " ++ subject)
    | .denied => (.warning, "Denied: " ++ action.description ++ " for " ++ subject)
    | .indeterminate =>
      (.error, "Authorization indeterminate: " ++ action.description ++ " for " ++ subject)
  let event ← AuditEvent.new .privilege severity "authorization_check" subject details
  busCall (.record event)

/-- `Authorizer::authorize`. -/
def authorize (authorizer : Authorizer) (action : SecurityAction) (subject : String) :
    Service Authorization := do
  if action.isReadOnly then
    auditAuthorization action subject .authorized
    return .authorized
  if authorizer.allowUnauthorized then
    auditAuthorization action subject .authorized
    return .authorized
  auditAuthorization action subject .denied
  return .denied

end Authorizer

end MissionOs.Securityd
