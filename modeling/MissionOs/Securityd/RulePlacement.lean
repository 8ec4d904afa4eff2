import Mathlib.Data.List.Forall2
import MissionOs.Securityd.RulesetText

/-!
# Where the rules of a ruleset stand

The ruleset that `generate_ruleset` writes, read as a table of chains.  The rules stand behind
the chains of the profile, in the table itself, and not in the chain of their direction: the
ruleset has its rules in their chains exactly if there is no rule to put there (`placed_iff`).
-/

namespace MissionOs.Securityd

open MissionOs.Rust MissionOs.Lib.BlockText

/-! ## The chains of a profile -/

/-- The table of every ruleset. -/
def tableHead : List Token := tokensOf "table inet mission_securityd"

/-- The chain that the rules of a direction belong to. -/
def chainHead : Direction → List Token
  | .incoming => tokensOf "chain input"
  | .outgoing => tokensOf "chain output"

/-- The statements of the input chain in which the profiles differ. -/
def profileStatements : FirewallProfile → List String
  | .privateProfile =>
    ["ip saddr 10.0.0.0/8 accept", "ip saddr 172.16.0.0/12 accept",
      "ip saddr 192.168.0.0/16 accept"]
  | .development =>
    ["tcp dport 22 accept", "tcp dport 80 accept", "tcp dport 443 accept",
      "tcp dport 3000 accept", "tcp dport 8080 accept"]
  | .publicProfile | .custom => []

/-- The chains of a profile without rules. -/
def baseChains (profile : FirewallProfile) : List Block :=
  [⟨chainHead .incoming,
      (["type filter hook input priority 0", "policy drop", "ct state established,related accept",
        "iifname lo accept"] ++ profileStatements profile ++
        ["ip protocol icmp accept"]).map tokensOf⟩,
    ⟨tokensOf "chain forward",
      ["type filter hook forward priority 0", "policy drop"].map tokensOf⟩,
    ⟨chainHead .outgoing,
      ["type filter hook output priority 0", "policy accept"].map tokensOf⟩]

/-- The lines before those of the rules read as the chains of the profile, in a table that has
not ended. -/
theorem headTokens_eq (profile : FirewallProfile) :
    ∃ tokens, headTokens profile = tokens ++ [.separator] ∧
      group [] tokens = .opens tableHead :: (baseChains profile).flatMap Block.items := by
  refine ⟨(headTokens profile).dropLast, ?_⟩
  cases profile <;>
    simp only [headTokens, headLines, generatePublicChains, generatePrivateChains,
      generateDevelopmentChains, generateCustomChains, generateChains, unlines, tableHead,
      chainHead, baseChains, profileStatements, tokensOf, List.map_cons, List.map_nil,
      List.flatMap_cons, List.cons_append, List.nil_append, List.flatMap_nil]
  all_goals
    repeat rw [String.toList_ofList]
    decide +kernel

theorem group_headTokens (profile : FirewallProfile) (more : List Token) :
    group [] (headTokens profile ++ more) =
      .opens tableHead :: ((baseChains profile).flatMap Block.items ++ group [] more) := by
  obtain ⟨tokens, hhead, hitems⟩ := headTokens_eq profile
  rw [hhead, List.append_assoc, List.singleton_append, group_append_separator, hitems,
    List.cons_append]

/-! ## Rules in their chains -/

/-- The statement of a rule. -/
def FirewallRule.statement (rule : FirewallRule) : List Token :=
  (rule.words.filter (· ≠ [])).map Token.word ++ [.quoted rule.name.toList]

/-- The statements of the enabled valid rules that belong to a chain. -/
def statementsFor (head : List Token) (rules : List FirewallRule) : List (List Token) :=
  (rules.filter fun rule =>
    rule.enabled = true ∧ rule.Valid ∧ chainHead rule.direction = head).map
      FirewallRule.statement

/-- A chain has, beside its own statements, those of its rules in their order, and no others. -/
structure HasRules (rules : List FirewallRule) (base chain : Block) : Prop where
  head : chain.head = base.head
  inOrder : (statementsFor base.head rules).Sublist chain.statements
  noOthers : chain.statements.Perm (base.statements ++ statementsFor base.head rules)

/-- Every rule has its line, and the ruleset reads as the table of the profile with the rules in
their chains. -/
structure Placed (profile : FirewallProfile) (rules : List FirewallRule) : Prop where
  noneLost : ∀ rule ∈ rules, (ruleLine rule).isSome = true
  reads : ∃ tokens chains, lex (generateRuleset profile rules).toList = some tokens ∧
    group [] tokens = .opens tableHead :: (chains.flatMap Block.items ++ [.closes]) ∧
    List.Forall₂ (HasRules rules) (baseChains profile) chains

/-- The name of a rule, in the comment that it has when it is disabled, says nothing and ends
in a comment. -/
structure FirewallRule.StaysComment (rule : FirewallRule) : Prop where
  idle : Idle (scan (.comment " rule '".toList) rule.name.toList).1
  ends : ∃ text, (scan (.comment " rule '".toList) rule.name.toList).2 = .comment text

/-- The line of a disabled rule says nothing exactly if its name stays in the comment. -/
theorem quiet_disabled_iff {rule : FirewallRule} (h : rule.enabled = false) :
    Quiet (lineText rule ++ ['\n']) ↔ rule.StaysComment := by
  have hhash : scan .start "    #".toList = ([], .comment []) := by decide
  have hcomment : scan (.comment []) " rule '".toList = ([], .comment " rule '".toList) := by
    decide
  have hline : scan .start (lineText rule ++ ['\n']) =
      scan (.comment " rule '".toList) (rule.name.toList ++ "' is disabled\n".toList) := by
    have htext : lineText rule ++ ['\n'] = "    #".toList ++
        (" rule '".toList ++ (rule.name.toList ++ "' is disabled\n".toList)) := by
      simp [lineText, h, disabledComment]
    rw [htext, scan_append_of hhash, scan_append_of hcomment]
    rfl
  unfold Quiet
  rw [hline, scan_append, idle_append]
  dsimp only
  have hquote : "' is disabled\n".toList = '\'' :: ' ' :: "is disabled\n".toList := by decide
  cases hmode : (scan (.comment " rule '".toList) rule.name.toList).2 with
  | comment text =>
      have hend : scan (.comment text) "' is disabled\n".toList =
          ([.comment (text ++ "' is disabled".toList), .separator], .start) := by
        have hsplit : "' is disabled\n".toList = "' is disabled".toList ++ ['\n'] := by decide
        rw [hsplit, scan_append_of (scan_comment (by decide) text)]
        rfl
      rw [hend]
      constructor
      · intro hquiet
        exact ⟨hquiet.1.1, text, hmode⟩
      · intro hstays
        exact ⟨⟨hstays.idle, by simp [Idle, Token.isIdle]⟩, rfl⟩
  | word text =>
      refine iff_of_false ?_ ?_
      · intro hquiet
        have hword : Token.word (text ++ ['\'']) ∈
            (scan (.word text) "' is disabled\n".toList).1 := by
          rw [hquote]
          simp [scan_cons, next, punctuation, wordToken]
        cases hquiet.1.2 _ hword
      · intro hstays
        obtain ⟨text', hends⟩ := hstays.ends
        cases hmode.symm.trans hends
  | quoted text =>
      refine iff_of_false ?_ ?_
      · intro hquiet
        rw [scan_quoted (by decide) text] at hquiet
        cases hquiet.2
      · intro hstays
        obtain ⟨text', hends⟩ := hstays.ends
        cases hmode.symm.trans hends

/-- The line of an enabled rule says something. -/
theorem not_quiet_enabled {rule : FirewallRule} (h : rule.enabled = true) :
    ¬ Quiet (lineText rule ++ ['\n']) := by
  intro hquiet
  have hblanks : scan .start "            ".toList = ([], .start) := by decide
  have hidle := hquiet.1
  rw [lineText, if_neg (by simp [h]), List.append_assoc, List.append_assoc,
    scan_append_of hblanks, spaced, scan_append_of (scan_words rule.words_plain), idle_append,
    idle_append, flatMap_wordToken] at hidle
  have hcomment : Token.word "comment".toList ∈
      (rule.words.filter (· ≠ [])).map Token.word := by
    refine List.mem_map_of_mem (List.mem_filter.mpr ⟨?_, by decide⟩)
    simp [FirewallRule.words]
  cases hidle.2.1 _ hcomment

/-- Rules that all have a line say nothing exactly if they are disabled and their names stay
in the comments. -/
theorem quiet_rules_iff {rules : List FirewallRule} :
    Quiet (lineBlock (rules.map lineText)) ↔
      ∀ rule ∈ rules, rule.enabled = false ∧ rule.StaysComment := by
  rw [quiet_lines_iff, List.forall_mem_map]
  refine forall₂_congr fun rule _ => ?_
  cases h : rule.enabled with
  | false => exact (quiet_disabled_iff h).trans (and_iff_right rfl).symm
  | true => exact iff_of_false (not_quiet_enabled h) (by simp)

theorem rulesText_eq (rules : List FirewallRule) :
    rulesText rules = lineBlock (rules.map lineText) ++ ['}', '\n'] := by
  rw [rulesText, lineBlock, List.flatMap_map]
  rfl

/-- A rule that has a line is disabled or valid. -/
theorem lineText_of_isSome {rule : FirewallRule} (h : (ruleLine rule).isSome = true) :
    ∃ line, ruleLine rule = some line ∧ line.toList = lineText rule := by
  cases henabled : rule.enabled with
  | false => exact ruleLine_of_disabled henabled
  | true =>
      refine ruleLine_of_valid ?_
      unfold ruleLine generateRule at h
      rw [if_neg (by simp [henabled])] at h
      cases hvalid : rule.validate with
      | ok u => exact hvalid
      | error e =>
          rw [hvalid] at h
          cases h

/-- A chain that no rule belongs to has its rules. -/
theorem hasRules_self {rules : List FirewallRule} {chain : Block}
    (h : statementsFor chain.head rules = []) : HasRules rules chain chain := by
  refine ⟨rfl, ?_, ?_⟩
  · rw [h]
    exact List.nil_sublist _
  · rw [h, List.append_nil]

/-- A ruleset with its rules in their chains has no rules. -/
theorem Placed.none {profile : FirewallProfile} {rules : List FirewallRule}
    (h : Placed profile rules) :
    ∀ rule ∈ rules, rule.enabled = false ∧ rule.StaysComment := by
  obtain ⟨tokens, chains, hlex, hitems, hchains⟩ := h.reads
  have hlines : ∀ rule ∈ rules, ∃ line, ruleLine rule = some line ∧
      line.toList = lineText rule := fun rule hrule => lineText_of_isSome (h.noneLost rule hrule)
  rw [lex_ruleset, ruleLines_eq hlines, ← rulesText, rulesText_eq] at hlex
  obtain ⟨rest, hrest, rfl⟩ := Option.map_eq_some_iff.mp hlex
  rw [group_headTokens] at hitems
  have hsame := blocks_append_inj hchains.length_eq (List.cons.inj hitems).2
  exact quiet_rules_iff.mp (closes_iff_quiet.mp ⟨rest, hrest, hsame.2⟩)

/-- The rules are in their chains exactly if no rule is enabled, and the name of each stays in
its comment. -/
theorem placed_iff (profile : FirewallProfile) (rules : List FirewallRule) :
    Placed profile rules ↔ ∀ rule ∈ rules, rule.enabled = false ∧ rule.StaysComment := by
  refine ⟨Placed.none, fun h => ?_⟩
  have hlines : ∀ rule ∈ rules, ∃ line, ruleLine rule = some line ∧
      line.toList = lineText rule := fun rule hrule => ruleLine_of_disabled (h rule hrule).1
  have hnone : ∀ head, statementsFor head rules = [] := by
    intro head
    rw [statementsFor, List.map_eq_nil_iff, List.filter_eq_nil_iff]
    intro rule hrule
    simp [(h rule hrule).1]
  obtain ⟨tokens, hlex, hitems⟩ := closes_iff_quiet.mpr (quiet_rules_iff.mpr h)
  refine ⟨fun rule hrule => ?_, headTokens profile ++ tokens, baseChains profile, ?_, ?_, ?_⟩
  · obtain ⟨line, hline, -⟩ := hlines rule hrule
    rw [hline]
    rfl
  · rw [lex_ruleset, ruleLines_eq hlines, ← rulesText, rulesText_eq, hlex]
    rfl
  · rw [group_headTokens, hitems]
  · exact List.forall₂_same.mpr fun chain _ => hasRules_self (hnone chain.head)

/-- One rule, and it stands in no chain. -/
theorem allow_ssh_not_placed :
    ¬ ∀ (profile : FirewallProfile) (rules : List FirewallRule), Placed profile rules := by
  intro h
  have hnone := (h .publicProfile [allowSsh "allow-ssh" true]).none _ List.mem_cons_self
  cases hnone.1

end MissionOs.Securityd
