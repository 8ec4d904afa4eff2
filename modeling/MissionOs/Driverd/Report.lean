import MissionOs.Rust.Text

/-!
# What the driver service reports

The two kinds of report that every operation of `mission-driverd` makes: the
error of a failed step (`error.rs`) and the record of the audit trail
(`audit.rs`).
-/

namespace MissionOs.Driverd

/-! ## Service errors -/

/-- `ServiceError`: the error variants of the service, each with its message. -/
inductive ServiceError where
  | permissionDenied (msg : String)
  | invalidArgument (msg : String)
  | notFound (msg : String)
  | alreadyExists (msg : String)
  | internal (msg : String)
  | notSupported (msg : String)
  | backendUnavailable (msg : String)
  | busy (msg : String)
  | conflict (msg : String)
  | verificationFailed (msg : String)
  | rollbackFailed (msg : String)
  | packageError (msg : String)
  | downloadFailed (msg : String)
  | sourceError (msg : String)
  | metadataError (msg : String)
  | downgradeRejected (msg : String)
deriving DecidableEq, Repr

/-- The `Display` text of a `ServiceError`. -/
def ServiceError.display : ServiceError → String
  | .permissionDenied msg => "permission denied: " ++ msg
  | .invalidArgument msg => "invalid argument: " ++ msg
  | .notFound msg => "not found: " ++ msg
  | .alreadyExists msg => "already exists: " ++ msg
  | .internal msg => "internal error: " ++ msg
  | .notSupported msg => "not supported: " ++ msg
  | .backendUnavailable msg => "backend unavailable: " ++ msg
  | .busy msg => "busy: " ++ msg
  | .conflict msg => "conflict: " ++ msg
  | .verificationFailed msg => "verification failed: " ++ msg
  | .rollbackFailed msg => "rollback failed: " ++ msg
  | .packageError msg => "package error: " ++ msg
  | .downloadFailed msg => "download failed: " ++ msg
  | .sourceError msg => "source error: " ++ msg
  | .metadataError msg => "metadata error: " ++ msg
  | .downgradeRejected msg => "downgrade rejected: " ++ msg

/-- `ServiceResult`. -/
abbrev ServiceResult (α : Type) := Except ServiceError α

/-! ## Audit events -/

/-- `EventCategory`. -/
inductive EventCategory where
  | driverInstall
  | driverUpdate
  | driverRemove
  | driverVerification
  | hardwareDetection
  | authorization
  | configuration
  | system
  | source
  | download
  | integrity
deriving DecidableEq, Repr

/-- `EventSeverity`. -/
inductive EventSeverity where
  | debug
  | info
  | warning
  | error
  | critical
deriving DecidableEq, Repr

/-- `AuditEvent`. -/
structure AuditEvent where
  timestamp : UInt64
  category : EventCategory
  severity : EventSeverity
  action : String
  subject : String
  details : String
  correlationId : Option String
deriving DecidableEq, Repr

/-- `AuditEvent::new`, at the time `now`. -/
def AuditEvent.new (now : UInt64) (category : EventCategory) (severity : EventSeverity)
    (action subject details : String) : AuditEvent where
  timestamp := now
  category := category
  severity := severity
  action := action
  subject := subject
  details := details
  correlationId := none

end MissionOs.Driverd
