import MissionOs.Lib.BlockText
import MissionOs.Securityd.Firewall

/-!
# The generated ruleset

`nftables.rs`: the text of a ruleset, from a profile and a list of rules.  The rules are put
after the chains of the profile, each on a line of its own; a rule that does not pass
validation is left out.

The text of a rule is its words with a blank after each, and its name between quotes
(`toList_generateRule`).  The addresses are reduced to letters, digits, dots, slashes and
colons; the name is put in as it stands.
-/

namespace MissionOs.Securityd

open MissionOs.Rust MissionOs.Lib.BlockText

/-- `NftablesError`. -/
inductive NftablesError where
  | invalidRule (msg : String)
  | unsupportedProfile (msg : String)
deriving DecidableEq, Repr

/-! ## The chains of a profile -/

/-- What the chains of all profiles have in common: only the statements of the input chain
differ. -/
def generateChains (input : List String) : List String :=
  ["    chain input \x7b",
    "        type filter hook input priority 0; policy drop;",
    "        ct state established,related accept",
    "        iifname lo accept"] ++
  input ++
  ["        ip protocol icmp accept",
    "    \x7d",
    "",
    "    chain forward \x7b",
    "        type filter hook forward priority 0; policy drop;",
    "    \x7d",
    "",
    "    chain output \x7b",
    "        type filter hook output priority 0; policy accept;",
    "    \x7d"]

/-- `generate_public_chains`. -/
def generatePublicChains : List String := generateChains []

/-- `generate_private_chains`. -/
def generatePrivateChains : List String :=
  generateChains [
    "        ip saddr 10.0.0.0/8 accept",
    "        ip saddr 172.16.0.0/12 accept",
    "        ip saddr 192.168.0.0/16 accept"]

/-- `generate_development_chains`. -/
def generateDevelopmentChains : List String :=
  generateChains [
    "        tcp dport 22 accept",
    "        tcp dport 80 accept",
    "        tcp dport 443 accept",
    "        tcp dport 3000 accept",
    "        tcp dport 8080 accept"]

/-- `generate_custom_chains`. -/
def generateCustomChains : List String := generateChains []

/-! ## A rule -/

/-- `escape_addr`. -/
def escapeAddr (addr : String) : String :=
  String.ofList (addr.toList.filter fun c => c.isAlphanum || c = '.' || c = '/' || c = ':')

namespace FirewallRule

variable (rule : FirewallRule)

/-- The ports of a rule, which TCP and UDP have. -/
def portParts : List String :=
  (rule.sourcePort.map fun port => "sport " ++ port.toNat.repr).toList ++
    (rule.destinationPort.map fun port => "dport " ++ port.toNat.repr).toList

/-- The protocol of a rule, with its ports. -/
def protocolParts : List String :=
  match rule.protocol with
  | some .tcp => "tcp" :: rule.portParts
  | some .udp => "udp" :: rule.portParts
  | some .icmp => ["ip protocol icmp"]
  | some .other | none => []

/-- The matches of a rule. -/
def parts : List String :=
  (rule.source.map fun src => "ip saddr " ++ escapeAddr src).toList ++
    ((rule.destination.map fun dst => "ip daddr " ++ escapeAddr dst).toList ++
      rule.protocolParts)

end FirewallRule

/-- The verdict of an action. -/
def RuleAction.verdict : RuleAction → String
  | .accept => "accept"
  | .drop => "drop"
  | .reject => "reject with icmpx admin-prohibited"

/-- `generate_rule`. -/
def generateRule (rule : FirewallRule) : Except NftablesError String :=
  if rule.enabled = false then .ok ("# rule '" ++ rule.name ++ "' is disabled")
  else
    match rule.validate with
    | .error e =>
      .error (.invalidRule ("rule '" ++ rule.name ++ "' failed validation: " ++ e.display))
    | .ok () =>
      let ruleStr :=
        if rule.parts.isEmpty then "        " ++ rule.action.verdict
        else "        " ++ join " " rule.parts ++ " " ++ rule.action.verdict
      .ok (ruleStr ++ " comment \"" ++ rule.name ++ "\"")

/-- The line of a rule in the ruleset, if it has one. -/
def ruleLine (rule : FirewallRule) : Option String :=
  (generateRule rule).toOption.map ("    " ++ ·)

/-- The lines before those of the rules. -/
def headLines (profile : FirewallProfile) : List String :=
  ["#!/usr/sbin/nft -f", "", "table inet mission_securityd \x7b"] ++
    match profile with
    | .publicProfile => generatePublicChains
    | .privateProfile => generatePrivateChains
    | .development => generateDevelopmentChains
    | .custom => generateCustomChains

/-- `generate_ruleset`. -/
def generateRuleset (profile : FirewallProfile) (rules : List FirewallRule) : String :=
  join "\n" (headLines profile ++ (rules.filterMap ruleLine ++ ["\x7d", ""]))

example : generateRule ⟨"allow-ssh", .incoming, .accept, some .tcp, some "10.0.0.0/8", none,
    none, some 22, true⟩ =
      .ok "        ip saddr 10.0.0.0/8 tcp dport 22 accept comment \"allow-ssh\"" := by decide

/-! ## The words of a rule -/

/-- Parts, each with the separator after it. -/
theorem join_append (sep : String) {parts : List String} (h : parts ≠ []) :
    (join sep parts).toList ++ sep.toList =
      parts.flatMap fun part => part.toList ++ sep.toList := by
  rw [join, String.toList_intercalate]
  induction parts with
  | nil => exact absurd rfl h
  | cons part parts ih =>
      cases parts with
      | nil => simp
      | cons next rest =>
          have hrest := ih (List.cons_ne_nil next rest)
          rw [List.map_cons, List.map_cons, List.intercalate_cons_cons, List.flatMap_cons,
            ← hrest]
          simp

/-- Words, each with a blank after it. -/
def spaced (words : List (List Char)) : List Char := words.flatMap (· ++ [' '])

theorem spaced_append (words more : List (List Char)) :
    spaced (words ++ more) = spaced words ++ spaced more := List.flatMap_append

/-- The words of an address match. -/
def addressWords (keyword : String) (addr : Option String) : List (List Char) :=
  match addr with
  | some a => ["ip".toList, keyword.toList, (escapeAddr a).toList]
  | none => []

/-- The words of a port match. -/
def portWords (keyword : String) (port : Option UInt16) : List (List Char) :=
  match port with
  | some n => [keyword.toList, n.toNat.repr.toList]
  | none => []

namespace FirewallRule

variable (rule : FirewallRule)

/-- The words of the protocol and the ports. -/
def protocolWords : List (List Char) :=
  match rule.protocol with
  | some .tcp =>
    "tcp".toList :: (portWords "sport" rule.sourcePort ++ portWords "dport" rule.destinationPort)
  | some .udp =>
    "udp".toList :: (portWords "sport" rule.sourcePort ++ portWords "dport" rule.destinationPort)
  | some .icmp => ["ip".toList, "protocol".toList, "icmp".toList]
  | some .other | none => []

/-- The words of the matches. -/
def matchWords : List (List Char) :=
  addressWords "saddr" rule.source ++
    (addressWords "daddr" rule.destination ++ rule.protocolWords)

end FirewallRule

/-- The words of a verdict. -/
def RuleAction.verdictWords : RuleAction → List (List Char)
  | .accept => ["accept".toList]
  | .drop => ["drop".toList]
  | .reject => ["reject".toList, "with".toList, "icmpx".toList, "admin-prohibited".toList]

theorem RuleAction.spaced_verdictWords (action : RuleAction) :
    spaced action.verdictWords = action.verdict.toList ++ [' '] := by
  cases action <;> decide

namespace FirewallRule

variable (rule : FirewallRule)

/-- The words of the parts of a rule. -/
theorem spaced_matchWords :
    spaced rule.matchWords = rule.parts.flatMap fun part => part.toList ++ [' '] := by
  have haddress : ∀ (keyword text : String) (addr : Option String),
      text.toList = "ip ".toList ++ (keyword.toList ++ [' ']) →
      spaced (addressWords keyword addr) =
        ((addr.map fun a => text ++ escapeAddr a).toList).flatMap
          fun part => part.toList ++ [' '] := by
    intro keyword text addr htext
    cases addr with
    | none => rfl
    | some a => simp [spaced, addressWords, htext]
  have hport : ∀ (keyword text : String) (port : Option UInt16),
      text.toList = keyword.toList ++ [' '] →
      spaced (portWords keyword port) =
        ((port.map fun n => text ++ n.toNat.repr).toList).flatMap
          fun part => part.toList ++ [' '] := by
    intro keyword text port htext
    cases port with
    | none => rfl
    | some n => simp [spaced, portWords, htext]
  have hprotocol : spaced rule.protocolWords =
      rule.protocolParts.flatMap fun part => part.toList ++ [' '] := by
    have hports := hport "sport" "sport " rule.sourcePort (by decide)
    have hports' := hport "dport" "dport " rule.destinationPort (by decide)
    have hboth : spaced (portWords "sport" rule.sourcePort ++
        portWords "dport" rule.destinationPort) =
        rule.portParts.flatMap fun part => part.toList ++ [' '] := by
      rw [spaced_append, hports, hports', portParts, List.flatMap_append]
    unfold protocolWords protocolParts
    cases rule.protocol with
    | none => rfl
    | some protocol =>
        cases protocol with
        | tcp => exact congrArg ("tcp ".toList ++ ·) hboth
        | udp => exact congrArg ("udp ".toList ++ ·) hboth
        | icmp =>
            dsimp only
            decide
        | other => rfl
  rw [matchWords, parts, spaced_append, spaced_append, List.flatMap_append, List.flatMap_append,
    haddress "saddr" "ip saddr " rule.source (by decide),
    haddress "daddr" "ip daddr " rule.destination (by decide), hprotocol]

/-- The characters of numbers and of escaped addresses are no punctuation. -/
theorem punctuation_of_alnum {c : Char}
    (h : (c.isAlphanum || c = '.' || c = '/' || c = ':') = true) : punctuation c = none := by
  unfold punctuation
  split_ifs with h₁ h₂ h₃ h₄ h₅ h₆
  · rcases h₁ with rfl | rfl <;> exact absurd h (by decide)
  · rcases h₂ with rfl | rfl <;> exact absurd h (by decide)
  · subst h₃
    exact absurd h (by decide)
  · subst h₄
    exact absurd h (by decide)
  · subst h₅
    exact absurd h (by decide)
  · subst h₆
    exact absurd h (by decide)
  · rfl

/-- The words of a rule, before its name. -/
def words : List (List Char) :=
  rule.matchWords ++ (rule.action.verdictWords ++ ["comment".toList])

end FirewallRule

/-- Whether a word has punctuation is seen character by character. -/
theorem plain_of_all {w : List Char} (h : (w.all fun c => (punctuation c).isNone) = true) :
    ∀ c ∈ w, punctuation c = none := by
  intro c hc
  exact Option.isNone_iff_eq_none.mp (List.all_eq_true.mp h c hc)

/-- No word of a rule has punctuation in it. -/
theorem FirewallRule.words_plain (rule : FirewallRule) :
    ∀ w ∈ rule.words, ∀ c ∈ w, punctuation c = none := by
  have haddress : ∀ (keyword : String) (addr : Option String),
      (∀ c ∈ keyword.toList, punctuation c = none) →
      ∀ w ∈ addressWords keyword addr, ∀ c ∈ w, punctuation c = none := by
    intro keyword addr hkeyword
    cases addr with
    | none => exact List.forall_mem_nil _
    | some a =>
        simp only [addressWords, List.forall_mem_cons]
        refine ⟨plain_of_all rfl, hkeyword, fun c hc => ?_, List.forall_mem_nil _⟩
        rw [escapeAddr, String.toList_ofList] at hc
        exact punctuation_of_alnum (List.mem_filter.mp hc).2
  have hport : ∀ (keyword : String) (port : Option UInt16),
      (∀ c ∈ keyword.toList, punctuation c = none) →
      ∀ w ∈ portWords keyword port, ∀ c ∈ w, punctuation c = none := by
    intro keyword port hkeyword
    cases port with
    | none => exact List.forall_mem_nil _
    | some n =>
        simp only [portWords, List.forall_mem_cons]
        refine ⟨hkeyword, fun c hc => ?_, List.forall_mem_nil _⟩
        rw [Nat.toList_repr] at hc
        have hdigit : c.isDigit = true := Nat.isDigit_of_mem_toDigits (by decide) (by decide) hc
        exact punctuation_of_alnum (by simp [Char.isAlphanum, hdigit])
  have hports : ∀ w ∈ portWords "sport" rule.sourcePort ++
      portWords "dport" rule.destinationPort, ∀ c ∈ w, punctuation c = none :=
    List.forall_mem_append.mpr
      ⟨hport "sport" _ (plain_of_all rfl), hport "dport" _ (plain_of_all rfl)⟩
  have hprotocol : ∀ w ∈ rule.protocolWords, ∀ c ∈ w, punctuation c = none := by
    unfold protocolWords
    cases rule.protocol with
    | none => exact List.forall_mem_nil _
    | some protocol =>
        cases protocol with
        | tcp => exact List.forall_mem_cons.mpr ⟨plain_of_all rfl, hports⟩
        | udp => exact List.forall_mem_cons.mpr ⟨plain_of_all rfl, hports⟩
        | icmp =>
            simp only [List.forall_mem_cons]
            exact ⟨plain_of_all rfl, plain_of_all rfl, plain_of_all rfl, List.forall_mem_nil _⟩
        | other => exact List.forall_mem_nil _
  have hverdict : ∀ w ∈ rule.action.verdictWords ++ ["comment".toList],
      ∀ c ∈ w, punctuation c = none := by
    cases rule.action <;>
      simp only [RuleAction.verdictWords, List.cons_append, List.nil_append, List.forall_mem_cons]
    · exact ⟨plain_of_all rfl, plain_of_all rfl, List.forall_mem_nil _⟩
    · exact ⟨plain_of_all rfl, plain_of_all rfl, List.forall_mem_nil _⟩
    · exact ⟨plain_of_all rfl, plain_of_all rfl, plain_of_all rfl, plain_of_all rfl,
        plain_of_all rfl, List.forall_mem_nil _⟩
  rw [words, matchWords]
  refine List.forall_mem_append.mpr ⟨List.forall_mem_append.mpr ⟨?_, ?_⟩, hverdict⟩
  · exact haddress "saddr" _ (plain_of_all rfl)
  · exact List.forall_mem_append.mpr ⟨haddress "daddr" _ (plain_of_all rfl), hprotocol⟩

theorem generateRule_of_disabled {rule : FirewallRule} (h : rule.enabled = false) :
    generateRule rule = .ok ("# rule '" ++ rule.name ++ "' is disabled") := by
  rw [generateRule, if_pos h]

/-- The text of a rule: its words, and its name between quotes. -/
theorem toList_generateRule {rule : FirewallRule} (henabled : rule.enabled = true)
    (hvalid : rule.Valid) :
    ∃ text, generateRule rule = .ok text ∧
      text.toList = "        ".toList ++
        (spaced rule.words ++ ('"' :: rule.name.toList ++ ['"'])) := by
  unfold generateRule
  rw [if_neg (by simp [henabled]), hvalid]
  refine ⟨_, rfl, ?_⟩
  have hwords : spaced rule.words =
      (rule.parts.flatMap fun part => part.toList ++ [' ']) ++
        (rule.action.verdict.toList ++ " comment ".toList) := by
    rw [FirewallRule.words, spaced_append, spaced_append, rule.spaced_matchWords,
      rule.action.spaced_verdictWords]
    simp [spaced]
  rw [hwords]
  cases hparts : rule.parts with
  | nil => simp
  | cons part parts =>
      have hjoin : (join " " (part :: parts)).toList ++ [' '] =
          (part :: parts).flatMap fun part => part.toList ++ [' '] :=
        join_append " " (List.cons_ne_nil part parts)
      rw [← hjoin]
      simp

end MissionOs.Securityd
