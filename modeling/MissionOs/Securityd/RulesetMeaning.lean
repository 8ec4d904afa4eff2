import MissionOs.Securityd.RuleMeaning
import MissionOs.Securityd.RulePlacement

/-!
# What a generated ruleset does

The ruleset that `generate_ruleset` writes, read as a packet filter: chains on hooks, each with
a policy and statements.  A statement of tests and a verdict stands in a chain and nowhere else.

`ruleset_meaning` says what becomes of a profile and its rules.  A rule that is enabled and valid
has its line outside of the chains, so that the whole text is no ruleset; without one the
ruleset does what the profile says, and the other rules do nothing.
-/

namespace MissionOs.Securityd

open MissionOs.Rust MissionOs.Lib.BlockText

/-! ## Packet filters -/

/-- A packet on its way: its header, whether it belongs to a connection that is established or
related to one, and the interface that it came in by. -/
structure Traffic where
  packet : Packet
  tracked : Bool
  interface : String

/-- Where a chain is asked. -/
inductive Hook where
  | input
  | forward
  | output
deriving DecidableEq, Repr

/-- A test of a statement. -/
inductive Test where
  | tracked
  | interface (name : List Char)
  | header (condition : Condition)
deriving DecidableEq, Repr

/-- A statement of a chain. -/
structure Statement where
  tests : List Test
  action : RuleAction
deriving DecidableEq, Repr

structure Chain where
  hook : Hook
  policy : RuleAction
  statements : List Statement
deriving DecidableEq, Repr

instance decidableHas (network : Network) (address : BitVec 32) :
    Decidable (network.Has address) :=
  inferInstanceAs (Decidable (_ = _))

instance decidableHolds (packet : Packet) :
    ∀ condition, Decidable (Condition.Holds packet condition)
  | .source network =>
    match h : packet.source with
    | .ipv4 a => decidable_of_iff (network.Has a) (by simp [Condition.Holds, h])
    | .ipv6 _ => isFalse (by simp [Condition.Holds, h])
  | .destination network =>
    match h : packet.destination with
    | .ipv4 a => decidable_of_iff (network.Has a) (by simp [Condition.Holds, h])
    | .ipv6 _ => isFalse (by simp [Condition.Holds, h])
  | .protocolIcmp => inferInstanceAs (Decidable (_ ∧ _))
  | .sourcePort _ _ => inferInstanceAs (Decidable (_ ∧ _))
  | .destinationPort _ _ => inferInstanceAs (Decidable (_ ∧ _))

/-- The packets that pass a test. -/
def Test.Holds (traffic : Traffic) : Test → Prop
  | .tracked => traffic.tracked = true
  | .interface name => traffic.interface.toList = name
  | .header condition => condition.Holds traffic.packet

instance decidableTest (traffic : Traffic) : ∀ test : Test, Decidable (test.Holds traffic)
  | .tracked => inferInstanceAs (Decidable (_ = _))
  | .interface _ => inferInstanceAs (Decidable (_ = _))
  | .header condition => decidableHolds traffic.packet condition

/-- The first statement whose tests a packet passes has the verdict on it, or else the policy. -/
def Chain.verdict (chain : Chain) (traffic : Traffic) : RuleAction :=
  match chain.statements.find? fun s => decide (∀ test ∈ s.tests, test.Holds traffic) with
  | some statement => statement.action
  | none => chain.policy

/-- A packet passes a hook if every chain that stands there accepts it. -/
def verdict (filter : List Chain) (hook : Hook) (traffic : Traffic) : RuleAction :=
  (((filter.filter (·.hook = hook)).map (·.verdict traffic)).find? (· ≠ .accept)).getD .accept

/-! ## Reading a ruleset -/

/-- A statement: its tests, and the verdict. -/
def readStatement : List Token → Option Statement
  | [.word action] =>
    if action = "accept".toList then some ⟨[], .accept⟩
    else if action = "drop".toList then some ⟨[], .drop⟩
    else none
  | .word object :: .word field :: tokens =>
    if object = "iifname".toList then
      (readStatement tokens).map fun s => ⟨.interface field :: s.tests, s.action⟩
    else
      match tokens with
      | .word value :: tokens =>
        let test :=
          if object = "ct".toList ∧ field = "state".toList ∧
              value = "established,related".toList then some .tracked
          else (readCondition object field value).map .header
        test.bind fun test =>
          (readStatement tokens).map fun s => ⟨test :: s.tests, s.action⟩
      | _ => none
  | _ => none

/-- The hook that a chain stands at. -/
def readHook (tokens : List Token) : Option Hook :=
  if tokens = tokensOf "type filter hook input priority 0" then some .input
  else if tokens = tokensOf "type filter hook forward priority 0" then some .forward
  else if tokens = tokensOf "type filter hook output priority 0" then some .output
  else none

def readPolicy (tokens : List Token) : Option RuleAction :=
  if tokens = tokensOf "policy accept" then some .accept
  else if tokens = tokensOf "policy drop" then some .drop
  else none

/-- A chain: its hook, its policy, and its statements. -/
def readChain (block : Block) : Option Chain :=
  match block.head, block.statements with
  | [.word keyword, .word _], type :: policy :: statements => do
    if keyword = "chain".toList then
      let hook ← readHook type
      let policy ← readPolicy policy
      let statements ← statements.mapM readStatement
      return ⟨hook, policy, statements⟩
    else none
  | _, _ => none

/-- A ruleset: the table with its chains. -/
def readRuleset (text : List Char) : Option (List Chain) :=
  match (lex text).map (group []) with
  | some (.opens head :: items) =>
    if head = tableHead then (readBlocks none items).bind (·.mapM readChain) else none
  | _ => none

/-! ## The chains of a profile -/

/-- The tests of the input chain in which the profiles differ. -/
def profileTests : FirewallProfile → List Test
  | .privateProfile =>
    [.header (.source ⟨0x0a000000, 8⟩), .header (.source ⟨0xac100000, 12⟩),
      .header (.source ⟨0xc0a80000, 16⟩)]
  | .development =>
    [22, 80, 443, 3000, 8080].map fun port => .header (.destinationPort .tcp port)
  | .publicProfile | .custom => []

/-- The tests of the input chain: a packet that passes one of them is accepted. -/
def inputTests (profile : FirewallProfile) : List Test :=
  [.tracked, .interface "lo".toList] ++ profileTests profile ++ [.header .protocolIcmp]

/-- The chains of a profile. -/
def profileChains (profile : FirewallProfile) : List Chain :=
  [⟨.input, .drop, (inputTests profile).map fun test => ⟨[test], .accept⟩⟩,
    ⟨.forward, .drop, []⟩, ⟨.output, .accept, []⟩]

theorem readChain_input (profile : FirewallProfile) :
    readChain ⟨chainHead .incoming,
        (["type filter hook input priority 0", "policy drop",
          "ct state established,related accept", "iifname lo accept"] ++
          profileStatements profile ++ ["ip protocol icmp accept"]).map tokensOf⟩ =
      some ⟨.input, .drop, (inputTests profile).map fun test => ⟨[test], .accept⟩⟩ := by
  cases profile <;> decide +kernel

theorem readChain_forward :
    readChain ⟨tokensOf "chain forward",
        ["type filter hook forward priority 0", "policy drop"].map tokensOf⟩ =
      some ⟨.forward, .drop, []⟩ := by
  decide +kernel

theorem readChain_output :
    readChain ⟨chainHead .outgoing,
        ["type filter hook output priority 0", "policy accept"].map tokensOf⟩ =
      some ⟨.output, .accept, []⟩ := by
  decide +kernel

theorem mapM_readChain (profile : FirewallProfile) :
    (baseChains profile).mapM readChain = some (profileChains profile) := by
  rw [baseChains, List.mapM_cons, readChain_input, List.mapM_cons, readChain_forward,
    List.mapM_cons, readChain_output, List.mapM_nil]
  rfl

/-! ## What a profile lets in -/

/-- The addresses of private networks: 10.0.0.0 to 10.255.255.255, 172.16.0.0 to 172.31.255.255,
and 192.168.0.0 to 192.168.255.255. -/
def IsPrivate (address : BitVec 32) : Prop :=
  0x0a000000 ≤ address.toNat ∧ address.toNat ≤ 0x0affffff ∨
    0xac100000 ≤ address.toNat ∧ address.toNat ≤ 0xac1fffff ∨
    0xc0a80000 ≤ address.toNat ∧ address.toNat ≤ 0xc0a8ffff

/-- What only some profiles let in: private addresses, or the ports of development servers. -/
def ProfileAdmits (traffic : Traffic) : FirewallProfile → Prop
  | .privateProfile => ∃ a, traffic.packet.source = .ipv4 a ∧ IsPrivate a
  | .development =>
    ∃ source destination, traffic.packet.transport = .tcp source destination ∧
      destination ∈ ([22, 80, 443, 3000, 8080] : List UInt16)
  | .publicProfile | .custom => False

/-- What a profile lets in: what belongs to a connection, what comes from the machine itself,
pings, and what the profile is for. -/
def Admits (profile : FirewallProfile) (traffic : Traffic) : Prop :=
  traffic.tracked = true ∨ traffic.interface = "lo" ∨ traffic.packet.transport = .icmp ∨
    ProfileAdmits traffic profile

/-- A chain that accepts by some tests accepts what passes one of them. -/
theorem Chain.verdict_accepts (hook : Hook) (policy : RuleAction) (tests : List Test)
    (traffic : Traffic) :
    (⟨hook, policy, tests.map fun test => ⟨[test], .accept⟩⟩ : Chain).verdict traffic =
      if ∃ test ∈ tests, test.Holds traffic then .accept else policy := by
  rw [Chain.verdict, List.find?_map]
  cases hfind : tests.find? ((fun s : Statement => decide (∀ test ∈ s.tests,
      test.Holds traffic)) ∘ fun test => ⟨[test], .accept⟩) with
  | some test =>
      have hholds : test.Holds traffic := by simpa using List.find?_some hfind
      rw [if_pos ⟨test, List.mem_of_find?_eq_some hfind, hholds⟩]
      rfl
  | none =>
      have hrefused : ¬ ∃ test ∈ tests, test.Holds traffic := by
        intro hholds
        obtain ⟨test, hmem, htest⟩ := hholds
        have hnot := List.find?_eq_none.mp hfind test hmem
        simp [htest] at hnot
      rw [if_neg hrefused]
      rfl

/-- The networks of the private profile are the private addresses. -/
theorem isPrivate_iff {a : BitVec 32} :
    Network.Has ⟨0x0a000000, 8⟩ a ∨ Network.Has ⟨0xac100000, 12⟩ a ∨
      Network.Has ⟨0xc0a80000, 16⟩ a ↔ IsPrivate a := by
  have hshift : ∀ (b : BitVec 32) (n : Nat), a >>> n = b >>> n ↔
      a.toNat / 2 ^ n = b.toNat / 2 ^ n := by
    intro b n
    rw [← BitVec.toNat_inj, BitVec.toNat_ushiftRight, BitVec.toNat_ushiftRight,
      Nat.shiftRight_eq_div_pow, Nat.shiftRight_eq_div_pow]
  simp only [Network.Has, hshift, IsPrivate]
  have ha := a.isLt
  simp
  omega

theorem profileTests_hold (profile : FirewallProfile) (traffic : Traffic) :
    (∃ test ∈ profileTests profile, test.Holds traffic) ↔ ProfileAdmits traffic profile := by
  cases profile with
  | publicProfile => simp [profileTests, ProfileAdmits]
  | custom => simp [profileTests, ProfileAdmits]
  | privateProfile =>
      have hprivate : (∃ test ∈ profileTests .privateProfile, test.Holds traffic) ↔
          ∃ a, traffic.packet.source = .ipv4 a ∧ (Network.Has ⟨0x0a000000, 8⟩ a ∨
            Network.Has ⟨0xac100000, 12⟩ a ∨ Network.Has ⟨0xc0a80000, 16⟩ a) := by
        rw [profileTests, List.exists_mem_cons_iff, List.exists_mem_cons_iff,
          List.exists_mem_cons_iff]
        simp only [List.not_mem_nil, false_and, exists_false, or_false, Test.Holds,
          Condition.Holds, ← exists_or, ← and_or_left]
      rw [hprivate]
      exact exists_congr fun a => and_congr_right fun _ => isPrivate_iff
  | development =>
      have hport : ∀ port : UInt16,
          (traffic.packet.protocol = .tcp ∧ traffic.packet.destinationPort = some port) ↔
            ∃ source, traffic.packet.transport = .tcp source port := by
        intro port
        unfold Packet.protocol Packet.destinationPort
        cases traffic.packet.transport <;> simp
      simp only [profileTests, ProfileAdmits, List.mem_map, exists_exists_and_eq_and]
      constructor
      · intro h
        obtain ⟨port, hmem, hholds⟩ := h
        obtain ⟨source, htransport⟩ := (hport port).mp hholds
        exact ⟨source, port, htransport, hmem⟩
      · intro h
        obtain ⟨source, port, htransport, hmem⟩ := h
        exact ⟨port, hmem, (hport port).mpr ⟨source, htransport⟩⟩

theorem inputTests_hold (profile : FirewallProfile) (traffic : Traffic) :
    (∃ test ∈ inputTests profile, test.Holds traffic) ↔ Admits profile traffic := by
  have hicmp : (Test.header .protocolIcmp).Holds traffic ↔
      traffic.packet.transport = .icmp :=
    ⟨fun h => h.2, fun h => ⟨traffic.packet.icmp_isIpv4 h, h⟩⟩
  have hlo : (Test.interface "lo".toList).Holds traffic ↔ traffic.interface = "lo" :=
    String.toList_inj
  simp only [inputTests, List.mem_append, or_and_right, exists_or, profileTests_hold,
    List.exists_mem_cons_iff, List.not_mem_nil, false_and, exists_false, or_false, hicmp, hlo,
    Admits]
  show ((traffic.tracked = true ∨ _) ∨ _) ∨ _ ↔ _
  tauto

instance decidableAdmits (profile : FirewallProfile) (traffic : Traffic) :
    Decidable (Admits profile traffic) := decidable_of_iff _ (inputTests_hold profile traffic)

/-- Where one chain stands at a hook, its verdict counts. -/
theorem verdict_of_filter {filter : List Chain} {hook : Hook} {chain : Chain}
    (h : filter.filter (·.hook = hook) = [chain]) (traffic : Traffic) :
    verdict filter hook traffic = chain.verdict traffic := by
  rw [verdict, h, List.map_singleton]
  cases chain.verdict traffic <;> rfl

/-- The chains of a profile let in what the profile does, forward nothing, and let everything
out. -/
theorem verdict_profileChains (profile : FirewallProfile) (traffic : Traffic) :
    verdict (profileChains profile) .input traffic =
        (if Admits profile traffic then .accept else .drop) ∧
      verdict (profileChains profile) .forward traffic = .drop ∧
      verdict (profileChains profile) .output traffic = .accept := by
  refine ⟨?_, ?_, ?_⟩
  · rw [verdict_of_filter rfl, Chain.verdict_accepts]
    exact if_congr (inputTests_hold profile traffic) rfl rfl
  · rw [verdict_of_filter rfl]
    rfl
  · rw [verdict_of_filter rfl]
    rfl

/-! ## What becomes of the rules -/

/-- Rules without a line leave the text as it is. -/
theorem ruleLines_filter (rules : List FirewallRule) :
    ruleLines (rules.filter fun rule => (ruleLine rule).isSome) = ruleLines rules := by
  unfold ruleLines
  congr 1
  induction rules with
  | nil => rfl
  | cons rule rules ih =>
      cases hline : ruleLine rule with
      | none =>
          rw [List.filter_cons_of_neg (by simp [hline]), ih, List.filterMap_cons_none hline]
      | some line =>
          rw [List.filter_cons_of_pos (by simp [hline]), List.filterMap_cons_some hline, ih,
            List.filterMap_cons_some hline]

/-- A rule that is enabled has a line if it is valid. -/
theorem valid_of_isSome {rule : FirewallRule} (henabled : rule.enabled = true)
    (h : (ruleLine rule).isSome = true) : rule.Valid := by
  unfold ruleLine generateRule at h
  rw [if_neg (by simp [henabled])] at h
  cases hvalid : rule.validate with
  | ok u => exact hvalid
  | error e =>
      rw [hvalid] at h
      cases h

theorem staysComment_of_harmless {rule : FirewallRule} (h : rule.Harmless) : rule.StaysComment := by
  have hscan := scan_comment h.oneLine " rule '".toList
  constructor
  · rw [hscan]
    exact List.forall_mem_nil _
  · rw [hscan]
    exact ⟨_, rfl⟩

/-- Items of rules before the end of the table: comments say nothing, and a statement stands
where there must be a chain. -/
theorem readBlocks_itemTokens {rules : List FirewallRule} {items : List (List Token)}
    (hitems : List.Forall₂ FirewallRule.IsItem rules items) :
    group [] (itemTokens items) = [.closes] ∨
      readBlocks none (group [] (itemTokens items)) = none := by
  induction hitems with
  | nil => exact Or.inl rfl
  | @cons rule item rules items hitem _ ih =>
      rw [itemTokens_cons]
      rcases hitem with ⟨text, rfl⟩ | ⟨words, rfl⟩
      · exact ih
      · right
        rw [group_append_separator, group_words]
        have hstatement : group ([] ++ words.map Token.word) [.quoted rule.name.toList] =
            [.statement (words.map Token.word ++ [.quoted rule.name.toList])] := by
          rw [List.nil_append, group, group, statementItem, if_neg (by simp)]
        rw [hstatement]
        rfl

/-- What the text reads as: the chains of the profile, unless a rule is enabled and valid. -/
theorem readRuleset_generateRuleset (profile : FirewallProfile) (rules : List FirewallRule)
    (hharmless : ∀ rule ∈ rules, rule.Harmless) :
    readRuleset (generateRuleset profile rules).toList =
      if ∃ rule ∈ rules, rule.enabled = true ∧ rule.Valid then none
      else some (profileChains profile) := by
  have hlines : ∀ rule ∈ rules.filter fun rule => (ruleLine rule).isSome,
      ∃ line, ruleLine rule = some line ∧ line.toList = lineText rule :=
    fun rule hrule => lineText_of_isSome (List.mem_filter.mp hrule).2
  obtain ⟨items, hitems, hlex⟩ := lex_of_harmless fun rule hrule =>
    hharmless rule (List.mem_filter.mp hrule).1
  have hread : readRuleset (generateRuleset profile rules).toList =
      (readBlocks none (group [] (itemTokens items))).bind
        fun blocks => (baseChains profile ++ blocks).mapM readChain := by
    rw [readRuleset, lex_ruleset, ← ruleLines_filter, ruleLines_eq hlines, ← rulesText, hlex,
      Option.map_some, Option.map_some, group_headTokens]
    dsimp only
    rw [if_pos rfl, readBlocks_append, Option.bind_map, Function.comp_def]
  -- the lines of the rules say nothing exactly if the end of the table is all that is read
  have hquiet : group [] (itemTokens items) = [.closes] ↔
      ∀ rule ∈ rules.filter fun rule => (ruleLine rule).isSome,
        rule.enabled = false ∧ rule.StaysComment := by
    rw [← quiet_rules_iff, ← closes_iff_quiet, ← rulesText_eq, hlex]
    constructor
    · exact fun h => ⟨_, rfl, h⟩
    · rintro ⟨tokens, htokens, h⟩
      cases htokens
      exact h
  rw [hread]
  by_cases hsome : ∃ rule ∈ rules, rule.enabled = true ∧ rule.Valid
  · rw [if_pos hsome]
    obtain ⟨rule, hrule, henabled, hvalid⟩ := hsome
    obtain ⟨line, hline, -⟩ := ruleLine_of_valid hvalid
    rcases readBlocks_itemTokens hitems with hcloses | hnone
    · have hdisabled := (hquiet.mp hcloses rule
        (List.mem_filter.mpr ⟨hrule, by rw [hline]; rfl⟩)).1
      rw [henabled] at hdisabled
      cases hdisabled
    · rw [hnone]
      rfl
  · rw [if_neg hsome]
    have hall : group [] (itemTokens items) = [.closes] := by
      apply hquiet.mpr
      intro rule hrule
      obtain ⟨hmem, hisSome⟩ := List.mem_filter.mp hrule
      refine ⟨?_, staysComment_of_harmless (hharmless rule hmem)⟩
      cases henabled : rule.enabled with
      | false => rfl
      | true =>
          exact absurd ⟨rule, hmem, henabled, valid_of_isSome henabled hisSome⟩ hsome
    have hnone : readBlocks none [.closes] = some [] := rfl
    rw [hall, hnone, Option.bind_some, List.append_nil, mapM_readChain]

/-- What a generated ruleset does, if no name of a rule ends its string or its comment.  With a
rule that is enabled and valid it is no ruleset: nothing of it is put into force.  Without one it
accepts what its profile admits and drops the rest of what comes in, forwards nothing, and lets
everything out, whatever the rules say. -/
theorem ruleset_meaning (profile : FirewallProfile) (rules : List FirewallRule)
    (hharmless : ∀ rule ∈ rules, rule.Harmless) :
    (readRuleset (generateRuleset profile rules).toList = none ↔
      ∃ rule ∈ rules, rule.enabled = true ∧ rule.Valid) ∧
    ∀ filter, readRuleset (generateRuleset profile rules).toList = some filter →
      ∀ traffic,
        verdict filter .input traffic = (if Admits profile traffic then .accept else .drop) ∧
        verdict filter .forward traffic = .drop ∧ verdict filter .output traffic = .accept := by
  rw [readRuleset_generateRuleset profile rules hharmless]
  constructor
  · by_cases hsome : ∃ rule ∈ rules, rule.enabled = true ∧ rule.Valid
    · rw [if_pos hsome]
      exact iff_of_true rfl hsome
    · rw [if_neg hsome]
      exact iff_of_false (Option.some_ne_none _) hsome
  · intro filter hfilter traffic
    split_ifs at hfilter
    cases hfilter
    exact verdict_profileChains profile traffic

/-- A connection to the port of SSH, from an address. -/
def sshFrom (a : BitVec 32) : Traffic where
  packet := ⟨.ipv4 a, .ipv4 0, .tcp 40000 22, rfl, nofun⟩
  tracked := false
  interface := "eth0"

/-- A rule that is not enabled lets nothing in that the profile does not. -/
theorem private_ruleset_meaning :
    ∃ filter, readRuleset (generateRuleset .privateProfile
        [allowSsh "allow-ssh" false]).toList = some filter ∧
      verdict filter .input (sshFrom 0xc0a80001) = .accept ∧
      verdict filter .input (sshFrom 0x08080808) = .drop := by
  have hmeaning := ruleset_meaning .privateProfile [allowSsh "allow-ssh" false]
    (List.forall_mem_singleton.mpr ⟨by decide, by decide⟩)
  have hsome : readRuleset (generateRuleset .privateProfile
      [allowSsh "allow-ssh" false]).toList ≠ none := by
    rw [ne_eq, hmeaning.1]
    rintro ⟨rule, hrule, henabled, -⟩
    rw [List.mem_singleton.mp hrule] at henabled
    cases henabled
  obtain ⟨filter, hfilter⟩ := Option.ne_none_iff_exists'.mp hsome
  refine ⟨filter, hfilter, ?_, ?_⟩
  · rw [(hmeaning.2 filter hfilter _).1]
    exact if_pos (Or.inr (Or.inr (Or.inr ⟨_, rfl, by unfold IsPrivate; decide⟩)))
  · rw [(hmeaning.2 filter hfilter _).1]
    apply if_neg
    rintro (h | h | h | ⟨a, ha, hprivate⟩)
    · cases h
    · exact absurd h (by decide)
    · cases h
    · cases ha
      revert hprivate
      unfold IsPrivate
      decide

end MissionOs.Securityd
