import MissionOs.Rust.Text

/-!
# Firewall rules

The rules of `firewall.rs`, with their validation.  Of an address only the service that reads
the generated ruleset knows whether it is one: `validate` does not look at the addresses.
-/

namespace MissionOs.Securityd

open MissionOs.Rust

/-- `FirewallProfile`.  `public` and `private` are words of the language here. -/
inductive FirewallProfile where
  | publicProfile
  | privateProfile
  | development
  | custom
deriving DecidableEq, Repr

/-- `Direction`, which is `In` or `Out`. -/
inductive Direction where
  | incoming
  | outgoing
deriving DecidableEq, Repr

/-- `RuleAction`. -/
inductive RuleAction where
  | accept
  | drop
  | reject
deriving DecidableEq, Repr

/-- `Protocol`. -/
inductive Protocol where
  | tcp
  | udp
  | icmp
  | other
deriving DecidableEq, Repr

/-- `FirewallRule`. -/
structure FirewallRule where
  name : String
  direction : Direction
  action : RuleAction
  protocol : Option Protocol
  source : Option String
  destination : Option String
  sourcePort : Option UInt16
  destinationPort : Option UInt16
  enabled : Bool
deriving DecidableEq, Repr

/-- `FirewallError`. -/
inductive FirewallError where
  | validationError (msg : String)
  | notSupported (msg : String)
  | internal (msg : String)
  | backendUnavailable
deriving DecidableEq, Repr

/-- The `Display` text of a `FirewallError`. -/
def FirewallError.display : FirewallError → String
  | .validationError msg => "validation error: " ++ msg
  | .notSupported msg => "not supported: " ++ msg
  | .internal msg => "internal error: " ++ msg
  | .backendUnavailable => "nftables backend unavailable"

namespace FirewallRule

/-- `FirewallRule::validate`. -/
def validate (rule : FirewallRule) : Except FirewallError Unit :=
  if trimIsEmpty rule.name then .error (.validationError "rule name must not be empty")
  else if rule.sourcePort = some 0 then
    .error (.validationError "source port must not be 0")
  else if rule.destinationPort = some 0 then
    .error (.validationError "destination port must not be 0")
  else if (rule.sourcePort.isSome || rule.destinationPort.isSome) && rule.protocol.isNone then
    .error (.validationError "protocol required when specifying ports")
  else .ok ()

/-- A rule that passes validation. -/
abbrev Valid (rule : FirewallRule) : Prop := rule.validate = .ok ()

/-- A valid rule without a protocol has no ports. -/
theorem Valid.noPorts {rule : FirewallRule} (h : rule.Valid) (hprotocol : rule.protocol = none) :
    rule.sourcePort = none ∧ rule.destinationPort = none := by
  unfold Valid validate at h
  split_ifs at h with _ _ _ hports
  rw [hprotocol] at hports
  simpa using hports

end FirewallRule

end MissionOs.Securityd
