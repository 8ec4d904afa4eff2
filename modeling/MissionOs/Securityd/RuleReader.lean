import MissionOs.Lib.BlockText
import MissionOs.Rust.Cut
import MissionOs.Rust.Decimal
import MissionOs.Securityd.Firewall

/-!
# Rule statements

What a packet filter makes of a rule statement: conditions on the header of a packet, a
verdict, and a comment.  A condition is three words, an object, a field and a value:
`ip saddr A`, `ip daddr A`, `ip protocol icmp`, `tcp sport N`, `tcp dport N`, `udp sport N` and
`udp dport N`.

`ip` speaks of IPv4 headers only, so its addresses are IPv4 addresses and networks
(`readNetwork`).
-/

namespace MissionOs.Securityd

open MissionOs.Rust MissionOs.Lib.BlockText

/-! ## IPv4 networks -/

/-- The numeral of a number below a bound. -/
def readNumber (bound : Nat) (s : List Char) : Option Nat :=
  if s = (decimal s).repr.toList ∧ decimal s < bound then some (decimal s) else none

theorem readNumber_repr {bound n : Nat} (h : n < bound) :
    readNumber bound n.repr.toList = some n := by
  have hdecimal : decimal n.repr.toList = n := by
    rw [decimal, Nat.toList_repr]
    exact Nat.ofDigitChars_ten_toDigits
  rw [readNumber, hdecimal, if_pos ⟨rfl, h⟩]

/-- The characters of addresses. -/
def IsAddressChar (c : Char) : Prop := c.isDigit = true ∨ c = '.' ∨ c = '/'

theorem addressChar_of_readNumber {bound n : Nat} {s : List Char}
    (h : readNumber bound s = some n) :
    ∀ c ∈ s, IsAddressChar c := by
  intro c hc
  unfold readNumber at h
  split_ifs at h with hs
  rw [hs.1, Nat.toList_repr] at hc
  exact Or.inl (Nat.isDigit_of_mem_toDigits (by decide) (by decide) hc)

/-- A text has the characters of its pieces, and those that it was split at. -/
theorem addressChar_of_splitOn {sep : Char} (hsep : IsAddressChar sep) {s : List Char}
    (h : ∀ piece ∈ s.splitOn sep, ∀ c ∈ piece, IsAddressChar c) : ∀ c ∈ s, IsAddressChar c := by
  intro c hc
  have hwhole : [sep].intercalate (s.splitOn sep) = s := List.intercalate_splitOn sep
  rw [← hwhole] at hc
  rcases mem_intercalate hc with hc | ⟨piece, hpiece, hc⟩
  · rw [hc]
    exact hsep
  · exact h piece hpiece c hc

/-- An IPv4 address, as four numbers. -/
def readAddress (s : List Char) : Option (BitVec 32) :=
  match s.splitOn '.' with
  | [a, b, c, d] => do
    let a ← readNumber 256 a
    let b ← readNumber 256 b
    let c ← readNumber 256 c
    let d ← readNumber 256 d
    return BitVec.ofNat 32 (((a * 256 + b) * 256 + c) * 256 + d)
  | _ => none

/-- An IPv4 network: the addresses whose first bits are those of an address. -/
structure Network where
  address : BitVec 32
  length : Nat
deriving DecidableEq, Repr

/-- The addresses of a network. -/
def Network.Has (network : Network) (address : BitVec 32) : Prop :=
  address >>> (32 - network.length) = network.address >>> (32 - network.length)

/-- An IPv4 address or network. -/
def readNetwork (s : List Char) : Option Network :=
  match s.splitOn '/' with
  | [address] => (readAddress address).map fun a => ⟨a, 32⟩
  | [address, length] => do
    let a ← readAddress address
    let n ← readNumber 33 length
    return ⟨a, n⟩
  | _ => none

example : readNetwork "10.0.0.0/8".toList = some ⟨0x0a000000, 8⟩ := by decide +kernel

theorem addressChar_of_readAddress {s : List Char} {a : BitVec 32} (h : readAddress s = some a) :
    ∀ c ∈ s, IsAddressChar c := by
  unfold readAddress at h
  split at h
  · rename_i w x y z hsplit
    simp only [Option.bind_eq_bind, Option.bind_eq_some_iff] at h
    obtain ⟨_, hw, _, hx, _, hy, _, hz, -⟩ := h
    refine addressChar_of_splitOn (Or.inr (Or.inl rfl)) ?_
    rw [hsplit]
    simp only [List.forall_mem_cons]
    exact ⟨addressChar_of_readNumber hw, addressChar_of_readNumber hx,
      addressChar_of_readNumber hy, addressChar_of_readNumber hz, List.forall_mem_nil _⟩
  · cases h

/-- Networks are written with digits, dots and slashes. -/
theorem addressChar_of_readNetwork {s : List Char} {network : Network}
    (h : readNetwork s = some network) : ∀ c ∈ s, IsAddressChar c := by
  unfold readNetwork at h
  split at h
  · rename_i address hsplit
    obtain ⟨a, ha, -⟩ := Option.map_eq_some_iff.mp h
    refine addressChar_of_splitOn (Or.inr (Or.inr rfl)) ?_
    rw [hsplit]
    exact List.forall_mem_singleton.mpr (addressChar_of_readAddress ha)
  · rename_i address length hsplit
    simp only [Option.bind_eq_bind, Option.bind_eq_some_iff] at h
    obtain ⟨_, ha, _, hn, -⟩ := h
    refine addressChar_of_splitOn (Or.inr (Or.inr rfl)) ?_
    rw [hsplit]
    simp only [List.forall_mem_cons]
    exact ⟨addressChar_of_readAddress ha, addressChar_of_readNumber hn, List.forall_mem_nil _⟩
  · cases h

/-! ## Packets -/

inductive Address where
  | ipv4 (address : BitVec 32)
  | ipv6 (address : BitVec 128)
deriving DecidableEq, Repr

def Address.isIpv4 : Address → Bool
  | .ipv4 _ => true
  | .ipv6 _ => false

/-- What a packet carries. -/
inductive Transport where
  | tcp (source destination : UInt16)
  | udp (source destination : UInt16)
  | icmp
  | other (ports : Option (UInt16 × UInt16))
deriving DecidableEq, Repr

/-- The header of a packet.  ICMP is a protocol of IPv4. -/
structure Packet where
  source : Address
  destination : Address
  transport : Transport
  sameVersion : source.isIpv4 = destination.isIpv4
  icmp_isIpv4 : transport = .icmp → source.isIpv4 = true

namespace Packet

variable (packet : Packet)

def protocol : Protocol :=
  match packet.transport with
  | .tcp _ _ => .tcp
  | .udp _ _ => .udp
  | .icmp => .icmp
  | .other _ => .other

def sourcePort : Option UInt16 :=
  match packet.transport with
  | .tcp source _ | .udp source _ => some source
  | .icmp => none
  | .other ports => ports.map (·.1)

def destinationPort : Option UInt16 :=
  match packet.transport with
  | .tcp _ destination | .udp _ destination => some destination
  | .icmp => none
  | .other ports => ports.map (·.2)

variable {packet}

theorem transport_of_icmp (h : packet.protocol = .icmp) : packet.transport = .icmp := by
  unfold protocol at h
  split at h
  · cases h
  · cases h
  · assumption
  · cases h

end Packet

/-! ## Statements -/

/-- A condition of a rule. -/
inductive Condition where
  | source (network : Network)
  | destination (network : Network)
  | protocolIcmp
  | sourcePort (protocol : Protocol) (port : UInt16)
  | destinationPort (protocol : Protocol) (port : UInt16)
deriving DecidableEq, Repr

/-- The packets that meet a condition. -/
def Condition.Holds (packet : Packet) : Condition → Prop
  | .source network => ∃ a, packet.source = .ipv4 a ∧ network.Has a
  | .destination network => ∃ a, packet.destination = .ipv4 a ∧ network.Has a
  | .protocolIcmp => packet.source.isIpv4 = true ∧ packet.transport = .icmp
  | .sourcePort protocol port => packet.protocol = protocol ∧ packet.sourcePort = some port
  | .destinationPort protocol port =>
    packet.protocol = protocol ∧ packet.destinationPort = some port

/-- A condition on a port. -/
def readPort (protocol : Protocol) (field value : List Char) : Option Condition :=
  if field = "sport".toList then
    (readNumber 65536 value).map fun n => .sourcePort protocol (UInt16.ofNat n)
  else if field = "dport".toList then
    (readNumber 65536 value).map fun n => .destinationPort protocol (UInt16.ofNat n)
  else none

/-- A condition. -/
def readCondition (object field value : List Char) : Option Condition :=
  if object = "ip".toList then
    if field = "saddr".toList then (readNetwork value).map .source
    else if field = "daddr".toList then (readNetwork value).map .destination
    else if field = "protocol".toList ∧ value = "icmp".toList then some .protocolIcmp
    else none
  else if object = "tcp".toList then readPort .tcp field value
  else if object = "udp".toList then readPort .udp field value
  else none

/-- The verdict, and the comment after it. -/
def readVerdict : List Token → Option RuleAction
  | [.word verdict, .word keyword, .quoted _] =>
    if keyword = "comment".toList then
      if verdict = "accept".toList then some .accept
      else if verdict = "drop".toList then some .drop
      else none
    else none
  | [.word verdict, .word preposition, .word family, .word type, .word keyword, .quoted _] =>
    if verdict = "reject".toList ∧ preposition = "with".toList ∧ family = "icmpx".toList ∧
      type = "admin-prohibited".toList ∧ keyword = "comment".toList then some .reject
    else none
  | _ => none

/-- What a rule statement says. -/
structure Reading where
  conditions : List Condition
  action : RuleAction
deriving DecidableEq, Repr

/-- The packets that a rule statement is about. -/
def Reading.Matches (reading : Reading) (packet : Packet) : Prop :=
  ∀ condition ∈ reading.conditions, condition.Holds packet

/-- A rule statement. -/
def readRule : List Token → Option Reading
  | .word object :: .word field :: .word value :: tokens =>
    match readCondition object field value with
    | some condition =>
      (readRule tokens).map fun reading =>
        ⟨condition :: reading.conditions, reading.action⟩
    | none =>
      (readVerdict (.word object :: .word field :: .word value :: tokens)).map (⟨[], ·⟩)
  | tokens => (readVerdict tokens).map (⟨[], ·⟩)

/-- A condition, and the rest of the statement. -/
theorem readRule_condition {object field value : List Char} {condition : Condition}
    (h : readCondition object field value = some condition) (tokens : List Token) :
    readRule (.word object :: .word field :: .word value :: tokens) =
      (readRule tokens).map fun reading =>
        ⟨condition :: reading.conditions, reading.action⟩ := by
  rw [readRule, h]

/-- Words that are neither a condition nor a verdict. -/
theorem readRule_eq_none {object field value : List Char}
    (h : readCondition object field value = none) (hobject : object ≠ "reject".toList)
    (tokens : List Token) :
    readRule (.word object :: .word field :: .word value :: tokens) = none := by
  rw [readRule, h]
  dsimp only
  rw [Option.map_eq_none_iff]
  unfold readVerdict
  split
  · rename_i hshape
    cases hshape
  · rename_i hshape
    cases hshape
    exact if_neg fun hwords => hobject hwords.1
  · rfl

/-- A verdict is words, and the string of the comment. -/
theorem words_of_readVerdict {tokens : List Token} {action : RuleAction}
    (h : readVerdict tokens = some action) :
    ∃ (words : List (List Char)) (s : List Char), tokens = words.map Token.word ++ [.quoted s] := by
  unfold readVerdict at h
  split at h
  · rename_i verdict keyword s
    exact ⟨[verdict, keyword], s, rfl⟩
  · rename_i verdict preposition family type keyword s
    exact ⟨[verdict, preposition, family, type, keyword], s, rfl⟩
  · cases h

/-- So is a rule statement. -/
theorem words_of_readRule {tokens : List Token} {reading : Reading}
    (h : readRule tokens = some reading) :
    ∃ (words : List (List Char)) (s : List Char), tokens = words.map Token.word ++ [.quoted s] := by
  induction tokens using readRule.induct generalizing reading with
  | case1 object field value tokens condition hcondition ih =>
      rw [readRule_condition hcondition] at h
      obtain ⟨rest, hrest, -⟩ := Option.map_eq_some_iff.mp h
      obtain ⟨words, s, rfl⟩ := ih hrest
      exact ⟨object :: field :: value :: words, s, rfl⟩
  | case2 object field value tokens hcondition =>
      rw [readRule, hcondition] at h
      obtain ⟨action, haction, -⟩ := Option.map_eq_some_iff.mp h
      exact words_of_readVerdict haction
  | case3 tokens hshape =>
      rw [readRule] at h
      · obtain ⟨action, haction, -⟩ := Option.map_eq_some_iff.mp h
        exact words_of_readVerdict haction
      · exact hshape

end MissionOs.Securityd
