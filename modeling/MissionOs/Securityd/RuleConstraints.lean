import MissionOs.Securityd.RuleMeaning

/-!
# What a generated rule matches

The text of `generate_rule` against the fields of the rule.

The text says what the fields say exactly if they can be said in this form (`exact_iff`): IPv4
addresses and networks only, one port for TCP and UDP and none for ICMP, no other protocol, and
a name that stays in its comment.
-/

namespace MissionOs.Securityd

open MissionOs.Rust MissionOs.Lib.BlockText

section Fields

variable (ipv6 : String → BitVec 128 → Prop)

/-- The addresses that an address field stands for: an IPv4 address or network, or else what it
stands for in IPv6. -/
def Stands (text : String) : Address → Prop
  | .ipv4 a => ∃ network, readNetwork text.toList = some network ∧ network.Has a
  | .ipv6 a => readNetwork text.toList = none ∧ ipv6 text a

/-- The packets that meet every constraint of a rule. -/
structure FirewallRule.Admits (rule : FirewallRule) (packet : Packet) : Prop where
  source : ∀ text, rule.source = some text → Stands ipv6 text packet.source
  destination : ∀ text, rule.destination = some text → Stands ipv6 text packet.destination
  protocol : ∀ protocol, rule.protocol = some protocol → packet.protocol = protocol
  sourcePort : ∀ port, rule.sourcePort = some port → packet.sourcePort = some port
  destinationPort : ∀ port, rule.destinationPort = some port →
    packet.destinationPort = some port

/-- The text of a rule is a rule statement that matches the packets that meet every constraint
of the rule, and no others, with the action of the rule. -/
def FirewallRule.Exact (rule : FirewallRule) : Prop :=
  ∃ text reading, generateRule rule = .ok text ∧ ReadsAs text reading ∧
    reading.action = rule.action ∧
    ∀ packet, reading.Matches packet ↔ rule.Admits ipv6 packet

/-- The fields of a rule that the text can say. -/
structure FirewallRule.Expressible (rule : FirewallRule) : Prop where
  name : rule.OneComment
  source : ∀ text, rule.source = some text → (readNetwork text.toList).isSome = true
  destination : ∀ text, rule.destination = some text → (readNetwork text.toList).isSome = true
  tcp : rule.protocol = some .tcp → rule.sourcePort.isSome ≠ rule.destinationPort.isSome
  udp : rule.protocol = some .udp → rule.sourcePort.isSome ≠ rule.destinationPort.isSome
  icmp : rule.protocol = some .icmp → rule.sourcePort = none ∧ rule.destinationPort = none
  other : rule.protocol ≠ some .other

variable {ipv6}

/-! ## Conditions and fields -/

/-- Nothing is left out of the text of a network. -/
theorem escapeAddr_of_readNetwork {text : String} {network : Network}
    (h : readNetwork text.toList = some network) : escapeAddr text = text := by
  unfold escapeAddr
  rw [List.filter_eq_self.mpr, String.ofList_toList]
  intro c hc
  rcases addressChar_of_readNetwork h c hc with hdigit | rfl | rfl
  · simp [Char.isAlphanum, hdigit]
  · rfl
  · rfl

theorem Condition.source_holds (network : Network) (packet : Packet) :
    (Condition.source network).Holds packet ↔
      ∃ a, packet.source = .ipv4 a ∧ network.Has a := Iff.rfl

theorem Condition.destination_holds (network : Network) (packet : Packet) :
    (Condition.destination network).Holds packet ↔
      ∃ a, packet.destination = .ipv4 a ∧ network.Has a := Iff.rfl

/-- The condition of an address field that is a network holds of the addresses that the field
stands for. -/
theorem addressConditions_of_isSome {condition : Network → Condition} {address : Packet → Address}
    (hholds : ∀ network packet, (condition network).Holds packet ↔
      ∃ a, address packet = .ipv4 a ∧ network.Has a) {addr : Option String}
    (h : ∀ text, addr = some text → (readNetwork text.toList).isSome = true) :
    ∃ conditions, addressConditions condition addr = some conditions ∧
      ∀ packet, (∀ c ∈ conditions, c.Holds packet) ↔
        ∀ text, addr = some text → Stands ipv6 text (address packet) := by
  cases addr with
  | none => exact ⟨[], rfl, by simp⟩
  | some text =>
      obtain ⟨network, hnetwork⟩ := Option.isSome_iff_exists.mp (h text rfl)
      refine ⟨[condition network], ?_, fun packet => ?_⟩
      · rw [addressConditions, escapeAddr_of_readNetwork hnetwork, hnetwork]
        rfl
      · rw [List.forall_mem_singleton, hholds]
        have hstands : Stands ipv6 text (address packet) ↔
            ∃ a, address packet = .ipv4 a ∧ network.Has a := by
          cases address packet with
          | ipv4 a => simp [Stands, hnetwork]
          | ipv6 a => simp [Stands, hnetwork]
        rw [← hstands]
        simp

/-- The condition of one port holds of the packets that have it. -/
theorem portConditions_of_one {protocol : Protocol} {source destination : Option UInt16}
    (h : source.isSome ≠ destination.isSome) :
    ∃ conditions, portConditions protocol source destination = some conditions ∧
      ∀ packet : Packet, (∀ c ∈ conditions, c.Holds packet) ↔ packet.protocol = protocol ∧
        (∀ port, source = some port → packet.sourcePort = some port) ∧
        ∀ port, destination = some port → packet.destinationPort = some port := by
  cases source with
  | none =>
      cases destination with
      | none => exact absurd rfl h
      | some port => exact ⟨_, rfl, by simp [Condition.Holds]⟩
  | some port =>
      cases destination with
      | none => exact ⟨_, rfl, by simp [Condition.Holds]⟩
      | some port' => exact absurd rfl h

/-- The conditions of the protocol and the ports hold of the packets that have them. -/
theorem protocolConditions_of_expressible {rule : FirewallRule} (h : rule.Expressible)
    (hvalid : rule.Valid) :
    ∃ conditions, rule.protocolConditions = some conditions ∧
      ∀ packet : Packet, (∀ c ∈ conditions, c.Holds packet) ↔
        (∀ protocol, rule.protocol = some protocol → packet.protocol = protocol) ∧
        (∀ port, rule.sourcePort = some port → packet.sourcePort = some port) ∧
        ∀ port, rule.destinationPort = some port → packet.destinationPort = some port := by
  unfold FirewallRule.protocolConditions
  cases hprotocol : rule.protocol with
  | none =>
      have hports := hvalid.noPorts hprotocol
      exact ⟨[], rfl, by simp [hports.1, hports.2]⟩
  | some protocol =>
      simp only [Option.some.injEq, forall_eq']
      cases protocol with
      | tcp => exact portConditions_of_one (h.tcp hprotocol)
      | udp => exact portConditions_of_one (h.udp hprotocol)
      | icmp =>
          have hports := h.icmp hprotocol
          refine ⟨_, rfl, fun packet => ?_⟩
          rw [List.forall_mem_singleton, hports.1, hports.2]
          constructor
          · intro hicmp
            refine ⟨?_, by simp, by simp⟩
            rw [Packet.protocol, hicmp.2]
          · intro hpacket
            have htransport := Packet.transport_of_icmp hpacket.1
            exact ⟨packet.icmp_isIpv4 htransport, htransport⟩
      | other => exact absurd hprotocol h.other

/-- The text of a rule that it can say is exact. -/
theorem exact_of_expressible {rule : FirewallRule} (henabled : rule.enabled = true)
    (hvalid : rule.Valid) (h : rule.Expressible) : rule.Exact ipv6 := by
  obtain ⟨text, htext, hreads⟩ := readsAs_iff henabled hvalid
  obtain ⟨source, hsource, hsourceHolds⟩ :=
    addressConditions_of_isSome Condition.source_holds
      h.source
  obtain ⟨destination, hdestination, hdestinationHolds⟩ :=
    addressConditions_of_isSome Condition.destination_holds h.destination
  obtain ⟨protocol, hprotocol, hprotocolHolds⟩ := protocolConditions_of_expressible h hvalid
  have hconditions : rule.conditions = some (source ++ (destination ++ protocol)) := by
    rw [FirewallRule.conditions, hsource, hdestination, hprotocol]
    rfl
  refine ⟨text, ⟨source ++ (destination ++ protocol), rule.action⟩, htext,
    (hreads _).mpr ⟨h.name, _, hconditions, rfl⟩, rfl, fun packet => ?_⟩
  unfold Reading.Matches
  rw [List.forall_mem_append, List.forall_mem_append, hsourceHolds, hdestinationHolds,
    hprotocolHolds]
  constructor
  · intro hall
    exact ⟨hall.1, hall.2.1, hall.2.2.1, hall.2.2.2.1, hall.2.2.2.2⟩
  · intro hadmits
    exact ⟨hadmits.source, hadmits.destination, hadmits.protocol, hadmits.sourcePort,
      hadmits.destinationPort⟩

/-! ## Some packet that a text matches -/

theorem Network.has_address (network : Network) : network.Has network.address := rfl

/-- The condition of an address field holds of some IPv4 address. -/
theorem addressConditions_holds {condition : Network → Condition} {address : Packet → Address}
    (hholds : ∀ network packet, (condition network).Holds packet ↔
      ∃ a, address packet = .ipv4 a ∧ network.Has a) {addr : Option String}
    {conditions : List Condition} (h : addressConditions condition addr = some conditions) :
    ∃ a : BitVec 32, ∀ packet, address packet = .ipv4 a → ∀ c ∈ conditions, c.Holds packet := by
  cases addr with
  | none =>
      cases h
      exact ⟨0, fun _ _ => List.forall_mem_nil _⟩
  | some text =>
      obtain ⟨network, -, rfl⟩ := Option.map_eq_some_iff.mp h
      refine ⟨network.address, fun packet hpacket => ?_⟩
      rw [List.forall_mem_singleton, hholds]
      exact ⟨network.address, hpacket, network.has_address⟩

/-- The condition of one port holds of some segment of the protocol. -/
theorem portConditions_holds {protocol : Protocol} {source destination : Option UInt16}
    {conditions : List Condition}
    (h : portConditions protocol source destination = some conditions) :
    source.isSome ≠ destination.isSome ∧
      ∃ s d : UInt16, ∀ packet : Packet, packet.protocol = protocol →
        packet.sourcePort = some s → packet.destinationPort = some d →
        ∀ c ∈ conditions, c.Holds packet := by
  cases source with
  | none =>
      cases destination with
      | none => cases h
      | some port =>
          cases h
          refine ⟨Bool.false_ne_true, 0, port, fun packet hprotocol _ hport => ?_⟩
          exact List.forall_mem_singleton.mpr ⟨hprotocol, hport⟩
  | some port =>
      cases destination with
      | none =>
          cases h
          refine ⟨Bool.false_ne_true.symm, port, 0, fun packet hprotocol hport _ => ?_⟩
          exact List.forall_mem_singleton.mpr ⟨hprotocol, hport⟩
      | some port' => cases h

/-- The conditions of the protocol and the ports hold of some packets of a protocol that the
text can name. -/
theorem protocolConditions_holds {rule : FirewallRule} {conditions : List Condition}
    (h : rule.protocolConditions = some conditions) :
    ∃ transport : Transport, (∀ ports, transport ≠ .other ports) ∧
      ∀ packet : Packet, packet.source.isIpv4 = true → packet.transport = transport →
        ∀ c ∈ conditions, c.Holds packet := by
  unfold FirewallRule.protocolConditions at h
  split at h
  · obtain ⟨-, s, d, hports⟩ := portConditions_holds h
    refine ⟨.tcp s d, by simp, fun packet _ htransport => hports packet ?_ ?_ ?_⟩
    · rw [Packet.protocol, htransport]
    · rw [Packet.sourcePort, htransport]
    · rw [Packet.destinationPort, htransport]
  · obtain ⟨-, s, d, hports⟩ := portConditions_holds h
    refine ⟨.udp s d, by simp, fun packet _ htransport => hports packet ?_ ?_ ?_⟩
    · rw [Packet.protocol, htransport]
    · rw [Packet.sourcePort, htransport]
    · rw [Packet.destinationPort, htransport]
  · cases h
    refine ⟨.icmp, by simp, fun packet hipv4 htransport => ?_⟩
    exact List.forall_mem_singleton.mpr ⟨hipv4, htransport⟩
  · cases h
    exact ⟨.tcp 0 0, by simp, fun _ _ _ => List.forall_mem_nil _⟩
  · cases h
    exact ⟨.tcp 0 0, by simp, fun _ _ _ => List.forall_mem_nil _⟩

/-- Some IPv4 packet of a protocol that the text can name meets all conditions of a rule. -/
theorem conditions_hold {rule : FirewallRule} {conditions : List Condition}
    (h : rule.conditions = some conditions) :
    ∃ packet : Packet, (∃ a, packet.source = .ipv4 a) ∧ (∃ a, packet.destination = .ipv4 a) ∧
      (∀ ports, packet.transport ≠ .other ports) ∧ ∀ c ∈ conditions, c.Holds packet := by
  simp only [FirewallRule.conditions, Option.bind_eq_bind, Option.bind_eq_some_iff] at h
  obtain ⟨source, hsource, destination, hdestination, protocol, hprotocol, hall⟩ := h
  cases hall
  obtain ⟨a, ha⟩ := addressConditions_holds Condition.source_holds hsource
  obtain ⟨b, hb⟩ :=
    addressConditions_holds Condition.destination_holds hdestination
  obtain ⟨transport, hother, htransport⟩ := protocolConditions_holds hprotocol
  refine ⟨⟨.ipv4 a, .ipv4 b, transport, rfl, fun _ => rfl⟩, ⟨a, rfl⟩, ⟨b, rfl⟩, hother, ?_⟩
  exact List.forall_mem_append.mpr
    ⟨ha _ rfl, List.forall_mem_append.mpr ⟨hb _ rfl, htransport _ rfl rfl⟩⟩

/-- An exact text says fields that it can say. -/
theorem expressible_of_exact {rule : FirewallRule} (henabled : rule.enabled = true)
    (hvalid : rule.Valid) (h : rule.Exact ipv6) : rule.Expressible := by
  obtain ⟨text, htext, hreads⟩ := readsAs_iff henabled hvalid
  obtain ⟨text', reading, htext', hreading, -, hmatches⟩ := h
  cases htext.symm.trans htext'
  obtain ⟨hname, conditions, hconditions, rfl⟩ := (hreads reading).mp hreading
  obtain ⟨packet, ⟨a, ha⟩, ⟨b, hb⟩, hother, hholds⟩ := conditions_hold hconditions
  have hadmits : rule.Admits ipv6 packet := (hmatches packet).mp hholds
  simp only [FirewallRule.conditions, Option.bind_eq_bind, Option.bind_eq_some_iff] at hconditions
  obtain ⟨source, hsource, destination, hdestination, protocol, hprotocol, -⟩ := hconditions
  unfold FirewallRule.protocolConditions at hprotocol
  refine ⟨hname, ?_, ?_, ?_, ?_, ?_, ?_⟩
  · intro text htext
    have hstands := hadmits.source text htext
    rw [ha] at hstands
    obtain ⟨network, hnetwork, -⟩ := hstands
    exact Option.isSome_iff_exists.mpr ⟨network, hnetwork⟩
  · intro text htext
    have hstands := hadmits.destination text htext
    rw [hb] at hstands
    obtain ⟨network, hnetwork, -⟩ := hstands
    exact Option.isSome_iff_exists.mpr ⟨network, hnetwork⟩
  · intro htcp
    rw [htcp] at hprotocol
    exact (portConditions_holds hprotocol).1
  · intro hudp
    rw [hudp] at hprotocol
    exact (portConditions_holds hprotocol).1
  · intro hicmp
    have htransport := Packet.transport_of_icmp (hadmits.protocol .icmp hicmp)
    constructor
    · cases hport : rule.sourcePort with
      | none => rfl
      | some port =>
          have hpacket := hadmits.sourcePort port hport
          rw [Packet.sourcePort, htransport] at hpacket
          cases hpacket
    · cases hport : rule.destinationPort with
      | none => rfl
      | some port =>
          have hpacket := hadmits.destinationPort port hport
          rw [Packet.destinationPort, htransport] at hpacket
          cases hpacket
  · intro hrule
    have hpacket := hadmits.protocol .other hrule
    unfold Packet.protocol at hpacket
    cases htransport : packet.transport with
    | tcp s d => simp [htransport] at hpacket
    | udp s d => simp [htransport] at hpacket
    | icmp => simp [htransport] at hpacket
    | other ports => exact hother ports htransport

end Fields

/-- The text of an enabled valid rule matches exactly the packets that its fields admit exactly
if the fields can be said. -/
theorem exact_iff (ipv6 : String → BitVec 128 → Prop) (rule : FirewallRule)
    (henabled : rule.enabled = true) (hvalid : rule.Valid) :
    rule.Exact ipv6 ↔ rule.Expressible :=
  ⟨expressible_of_exact henabled hvalid, exact_of_expressible henabled hvalid⟩

theorem allow_ssh_exact :
    (allowSsh "allow-ssh" true).Exact (fun _ _ => False) ↔
      (allowSsh "allow-ssh" true).Expressible :=
  exact_iff _ (allowSsh "allow-ssh" true) rfl (by decide)

/-- A rule that lets one protocol in that is neither TCP nor UDP nor ICMP. -/
def allowOther : FirewallRule where
  name := "allow-sctp"
  direction := .incoming
  action := .accept
  protocol := some .other
  source := none
  destination := none
  sourcePort := none
  destinationPort := none
  enabled := true

/-- Its text lets every packet in. -/
theorem allow_other_not_exact :
    ¬ ∀ (ipv6 : String → BitVec 128 → Prop) (rule : FirewallRule),
      rule.enabled = true → rule.Valid → rule.Exact ipv6 := by
  intro h
  have hexact := h (fun _ _ => False) allowOther rfl (by decide)
  exact (expressible_of_exact rfl (by decide) hexact).other rfl

end MissionOs.Securityd
