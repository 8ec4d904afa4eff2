import MissionOs.Securityd.RuleReader
import MissionOs.Securityd.RulesetText

/-!
# What a generated rule reads as

The text of `generate_rule`, read as a rule statement.

The fields become conditions one by one (`FirewallRule.conditions`), and the text reads as these
conditions, with the verdict of the action (`readsAs_iff`).  Some fields become nothing that can
be read: an address that is no IPv4 address once it is escaped, and TCP or UDP without exactly
one port.
-/

namespace MissionOs.Securityd

open MissionOs.Rust MissionOs.Lib.BlockText

/-! ## The reading of the text -/

/-- The condition that an address field becomes. -/
def addressConditions (condition : Network → Condition) (addr : Option String) :
    Option (List Condition) :=
  match addr with
  | some a => (readNetwork (escapeAddr a).toList).map fun network => [condition network]
  | none => some []

/-- The condition that the ports become. -/
def portConditions (protocol : Protocol) (source destination : Option UInt16) :
    Option (List Condition) :=
  match source, destination with
  | some port, none => some [.sourcePort protocol port]
  | none, some port => some [.destinationPort protocol port]
  | _, _ => none

namespace FirewallRule

variable (rule : FirewallRule)

/-- The condition that the protocol and the ports become. -/
def protocolConditions : Option (List Condition) :=
  match rule.protocol with
  | some .tcp => portConditions .tcp rule.sourcePort rule.destinationPort
  | some .udp => portConditions .udp rule.sourcePort rule.destinationPort
  | some .icmp => some [.protocolIcmp]
  | some .other | none => some []

/-- The conditions that the fields become. -/
def conditions : Option (List Condition) := do
  let source ← addressConditions .source rule.source
  let destination ← addressConditions .destination rule.destination
  let protocol ← rule.protocolConditions
  return source ++ (destination ++ protocol)

end FirewallRule

/-- The tokens of the verdict and the comment. -/
def verdictTokens (action : RuleAction) (s : List Char) : List Token :=
  (action.verdictWords ++ ["comment".toList]).map Token.word ++ [.quoted s]

theorem readRule_verdict (action : RuleAction) (s : List Char) :
    readRule (verdictTokens action s) = some ⟨[], action⟩ := by
  cases action <;> rfl

/-- Conditions before the rest of a statement. -/
def withConditions (conditions : List Condition) (reading : Reading) : Reading :=
  ⟨conditions ++ reading.conditions, reading.action⟩

/-- Tokens that begin with a word that is no network. -/
def Unaddressed (tokens : List Token) : Prop :=
  ∃ w rest, tokens = .word w :: rest ∧ readNetwork w = none

theorem unaddressed_verdictTokens (action : RuleAction) (s : List Char) :
    Unaddressed (verdictTokens action s) := by
  cases action with
  | accept => exact ⟨"accept".toList, _, rfl, by decide⟩
  | drop => exact ⟨"drop".toList, _, rfl, by decide⟩
  | reject => exact ⟨"reject".toList, _, rfl, by decide⟩

theorem unaddressed_protocol {rule : FirewallRule} {tokens : List Token}
    (h : Unaddressed tokens) : Unaddressed (rule.protocolWords.flatMap wordToken ++ tokens) := by
  unfold FirewallRule.protocolWords
  cases rule.protocol with
  | none => exact h
  | some protocol =>
      cases protocol with
      | tcp => exact ⟨"tcp".toList, _, rfl, by decide⟩
      | udp => exact ⟨"udp".toList, _, rfl, by decide⟩
      | icmp => exact ⟨"ip".toList, _, rfl, by decide⟩
      | other => exact h

theorem unaddressed_address {keyword : String} {addr : Option String} {tokens : List Token}
    (h : Unaddressed tokens) :
    Unaddressed ((addressWords keyword addr).flatMap wordToken ++ tokens) := by
  cases addr with
  | none => exact h
  | some a => exact ⟨"ip".toList, _, rfl, by decide⟩

/-- An address match.  If nothing of the address is left, the next word is in its place. -/
theorem readRule_address {keyword : String} {condition : Network → Condition}
    (hread : ∀ value, readCondition "ip".toList keyword.toList value =
      (readNetwork value).map condition)
    (hkeyword : wordToken keyword.toList = [.word keyword.toList])
    (addr : Option String) {tokens : List Token} (h : Unaddressed tokens) :
    readRule ((addressWords keyword addr).flatMap wordToken ++ tokens) =
      (addressConditions condition addr).bind fun conditions =>
        (readRule tokens).map (withConditions conditions) := by
  cases addr with
  | none => exact Option.map_id'.symm
  | some a =>
      have hwords : (addressWords keyword (some a)).flatMap wordToken ++ tokens =
          .word "ip".toList :: .word keyword.toList ::
            (wordToken (escapeAddr a).toList ++ tokens) := by
        have hip : wordToken "ip".toList = [.word "ip".toList] := rfl
        simp only [addressWords, List.flatMap_cons, List.flatMap_nil, hip, hkeyword,
          List.append_nil, List.cons_append, List.nil_append]
      rw [hwords, addressConditions]
      have hnone : ∀ value, readNetwork value = none → ∀ rest,
          readRule (.word "ip".toList :: .word keyword.toList :: .word value :: rest) = none := by
        intro value hvalue rest
        refine readRule_eq_none ?_ (by decide) rest
        rw [hread, hvalue]
        rfl
      by_cases hempty : (escapeAddr a).toList = []
      · obtain ⟨w, rest, rfl, hw⟩ := h
        have hnil : readNetwork [] = none := by decide
        rw [hempty, hnil]
        exact hnone w hw rest
      · rw [wordToken, if_neg hempty, List.singleton_append]
        cases hnetwork : readNetwork (escapeAddr a).toList with
        | none => exact hnone _ hnetwork tokens
        | some network =>
            have hcondition : readCondition "ip".toList keyword.toList (escapeAddr a).toList =
                some (condition network) := by
              rw [hread, hnetwork]
              rfl
            rw [readRule_condition hcondition]
            rfl

/-- The number of a port is a word. -/
theorem wordToken_repr (n : Nat) : wordToken n.repr.toList = [.word n.repr.toList] := by
  refine if_neg ?_
  rw [Nat.toList_repr]
  exact List.ne_nil_of_length_pos Nat.length_toDigits_pos

theorem portWords_flatMap {keyword : String}
    (hkeyword : wordToken keyword.toList = [.word keyword.toList]) (port : UInt16) :
    (portWords keyword (some port)).flatMap wordToken =
      [.word keyword.toList, .word port.toNat.repr.toList] := by
  rw [portWords, List.flatMap_cons, List.flatMap_cons, hkeyword, wordToken_repr]
  rfl

theorem readNumber_port (port : UInt16) :
    (readNumber 65536 port.toNat.repr.toList).map UInt16.ofNat = some port := by
  rw [readNumber_repr (UInt16.toNat_lt port), Option.map_some, UInt16.ofNat_toNat]

/-- A protocol with its ports.  One port makes a condition; without a port, or with a second
one, there is no condition to read. -/
theorem readRule_ports {object : String} {protocol : Protocol}
    (hread : ∀ field value, readCondition object.toList field value =
      readPort protocol field value)
    (hobject : wordToken object.toList = [.word object.toList])
    (hreject : object.toList ≠ "reject".toList) (source destination : Option UInt16)
    (action : RuleAction) (s : List Char) :
    readRule ((object.toList ::
        (portWords "sport" source ++ portWords "dport" destination)).flatMap wordToken ++
        verdictTokens action s) =
      (portConditions protocol source destination).bind fun conditions =>
        (readRule (verdictTokens action s)).map (withConditions conditions) := by
  have hsport : ∀ port : UInt16,
      readCondition object.toList "sport".toList port.toNat.repr.toList =
        some (.sourcePort protocol port) := by
    intro port
    have hport := readNumber_port port
    rw [hread, readPort, if_pos rfl, ← Function.comp_def, ← Option.map_map, hport]
    rfl
  have hdport : ∀ port : UInt16,
      readCondition object.toList "dport".toList port.toNat.repr.toList =
        some (.destinationPort protocol port) := by
    intro port
    have hport := readNumber_port port
    rw [hread, readPort, if_neg (by decide), if_pos rfl, ← Function.comp_def, ← Option.map_map,
      hport]
    rfl
  cases source with
  | none =>
      cases destination with
      | none =>
          have hwords : (object.toList ::
              (portWords "sport" none ++ portWords "dport" none)).flatMap wordToken =
              [.word object.toList] := by
            simp [portWords, hobject]
          rw [hwords]
          cases action with
          | accept => exact readRule_eq_none ((hread _ _).trans rfl) hreject _
          | drop => exact readRule_eq_none ((hread _ _).trans rfl) hreject _
          | reject => exact readRule_eq_none ((hread _ _).trans rfl) hreject _
      | some port =>
          have hwords : (object.toList ::
              (portWords "sport" none ++ portWords "dport" (some port))).flatMap wordToken =
              [.word object.toList, .word "dport".toList, .word port.toNat.repr.toList] := by
            rw [List.flatMap_cons, List.flatMap_append, portWords_flatMap rfl, hobject]
            rfl
          rw [hwords]
          exact readRule_condition (hdport port) _
  | some port =>
      have hwords : ∀ more : List (List Char), (object.toList ::
          (portWords "sport" (some port) ++ more)).flatMap wordToken =
          .word object.toList :: .word "sport".toList :: .word port.toNat.repr.toList ::
            more.flatMap wordToken := by
        intro more
        rw [List.flatMap_cons, List.flatMap_append, portWords_flatMap rfl, hobject]
        rfl
      rw [hwords, List.cons_append, List.cons_append, List.cons_append,
        readRule_condition (hsport port)]
      cases destination with
      | none => rfl
      | some port' =>
          have hnone : readRule ((portWords "dport" (some port')).flatMap wordToken ++
              verdictTokens action s) = none := by
            rw [portWords_flatMap rfl]
            cases action with
            | accept => exact readRule_eq_none rfl (by decide) _
            | drop => exact readRule_eq_none rfl (by decide) _
            | reject => exact readRule_eq_none rfl (by decide) _
          rw [hnone]
          rfl

/-- The protocol and the ports of a rule. -/
theorem readRule_protocol (rule : FirewallRule) (action : RuleAction) (s : List Char) :
    readRule (rule.protocolWords.flatMap wordToken ++ verdictTokens action s) =
      rule.protocolConditions.bind fun conditions =>
        (readRule (verdictTokens action s)).map (withConditions conditions) := by
  unfold FirewallRule.protocolWords FirewallRule.protocolConditions
  cases rule.protocol with
  | none => exact Option.map_id'.symm
  | some protocol =>
      cases protocol with
      | tcp => exact readRule_ports (fun _ _ => rfl) rfl (by decide) _ _ action s
      | udp => exact readRule_ports (fun _ _ => rfl) rfl (by decide) _ _ action s
      | icmp => exact readRule_condition rfl _
      | other => exact Option.map_id'.symm

/-- The words of a rule and the string of its comment read as the conditions of its fields. -/
theorem readRule_statement (rule : FirewallRule) (s : List Char) :
    readRule (rule.words.flatMap wordToken ++ [.quoted s]) =
      rule.conditions.map fun conditions => ⟨conditions, rule.action⟩ := by
  have hverdict : (rule.action.verdictWords ++ ["comment".toList]).flatMap wordToken ++
      [.quoted s] = verdictTokens rule.action s := by
    unfold verdictTokens
    cases rule.action <;> rfl
  have hwords : rule.words.flatMap wordToken ++ [.quoted s] =
      (addressWords "saddr" rule.source).flatMap wordToken ++
        ((addressWords "daddr" rule.destination).flatMap wordToken ++
          (rule.protocolWords.flatMap wordToken ++ verdictTokens rule.action s)) := by
    simp only [← hverdict, FirewallRule.words, FirewallRule.matchWords, List.flatMap_append,
      List.append_assoc]
  have hend : Unaddressed (rule.protocolWords.flatMap wordToken ++ verdictTokens rule.action s) :=
    unaddressed_protocol (unaddressed_verdictTokens rule.action s)
  rw [hwords, readRule_address (fun _ => rfl) rfl rule.source (unaddressed_address hend),
    readRule_address (fun _ => rfl) rfl rule.destination hend, readRule_protocol,
    readRule_verdict, FirewallRule.conditions]
  cases addressConditions .source rule.source with
  | none => rfl
  | some source =>
      cases addressConditions .destination rule.destination with
      | none => rfl
      | some destination =>
          cases rule.protocolConditions with
          | none => rfl
          | some protocol => simp [withConditions]

/-! ## The text of a rule -/

/-- The name of a rule, put between quotes, is one string, and a comment after it if there is a
quote in the name. -/
def FirewallRule.OneComment (rule : FirewallRule) : Prop :=
  ∀ s rest, rule.name.toList = s ++ '"' :: rest → '"' ∉ s →
    Idle (scan .start rest).1 ∧ ∃ text, (scan .start rest).2 = .comment text

/-- What follows the first quote of a name says nothing exactly if it ends in a comment. -/
theorem lex_quote_iff (rest : List Char) :
    (∃ tokens, lex (rest ++ ['"']) = some tokens ∧ Idle tokens) ↔
      Idle (scan .start rest).1 ∧ ∃ text, (scan .start rest).2 = .comment text := by
  unfold lex
  rw [scan_append]
  dsimp only
  cases hmode : (scan .start rest).2 with
  | word text =>
      refine iff_of_false ?_ ?_
      · intro h
        obtain ⟨tokens, htokens, -⟩ := h
        cases htokens
      · intro h
        obtain ⟨-, text', htext⟩ := h
        cases htext
  | quoted text =>
      refine iff_of_false ?_ ?_
      · intro h
        obtain ⟨tokens, htokens, hidle⟩ := h
        have hend : scan (.quoted text) ['"'] = ([.quoted text], .start) := rfl
        rw [hend] at htokens
        cases htokens
        cases hidle (.quoted text) (by simp)
      · intro h
        obtain ⟨-, text', htext⟩ := h
        cases htext
  | comment text =>
      have hend : scan (.comment text) ['"'] = ([], .comment (text ++ ['"'])) := rfl
      rw [hend]
      constructor
      · intro h
        obtain ⟨tokens, htokens, hidle⟩ := h
        cases htokens
        rw [List.append_nil] at hidle
        exact ⟨(idle_append.mp hidle).1, text, rfl⟩
      · intro h
        refine ⟨_, rfl, ?_⟩
        rw [List.append_nil]
        exact idle_append.mpr ⟨h.1, List.forall_mem_singleton.mpr rfl⟩

theorem first_quote_inj {s s' rest rest' : List Char} (h : s ++ '"' :: rest = s' ++ '"' :: rest')
    (hs : '"' ∉ s) (hs' : '"' ∉ s') : rest = rest' := by
  induction s generalizing s' with
  | nil =>
      cases s' with
      | nil => exact (List.cons.inj h).2
      | cons c s' => exact absurd ((List.cons.inj h).1 ▸ List.mem_cons_self) hs'
  | cons c s ih =>
      cases s' with
      | nil => exact absurd ((List.cons.inj h).1 ▸ List.mem_cons_self) hs
      | cons c' s' =>
          exact ih (List.cons.inj h).2 (fun hmem => hs (List.mem_cons_of_mem c hmem))
            (fun hmem => hs' (List.mem_cons_of_mem c' hmem))

/-- The name and the quote behind it, up to the first quote, and what is left. -/
theorem name_split (rule : FirewallRule) :
    ∃ s tail, rule.name.toList ++ ['"'] = s ++ '"' :: tail ∧ '"' ∉ s ∧
      ((∃ tokens, lex tail = some tokens ∧ Idle tokens) ↔ rule.OneComment) := by
  by_cases hquote : '"' ∈ rule.name.toList
  · obtain ⟨s, rest, hname, hs⟩ := List.eq_append_cons_of_mem hquote
    refine ⟨s, rest ++ ['"'], ?_, hs, (lex_quote_iff rest).trans ?_⟩
    · rw [hname, List.append_assoc, List.cons_append]
    · constructor
      · intro h s' rest' hname' hs'
        rw [hname] at hname'
        rwa [← first_quote_inj hname' hs hs']
      · intro h
        exact h s rest hname hs
  · refine ⟨rule.name.toList, [], rfl, hquote, iff_of_true ?_ ?_⟩
    · exact ⟨[], rfl, List.forall_mem_nil _⟩
    · intro s rest hname hs
      exact absurd (hname ▸ List.mem_append_right s List.mem_cons_self) hquote

/-- A text is one rule statement. -/
def ReadsAs (text : String) (reading : Reading) : Prop :=
  ∃ tokens statement, lex text.toList = some tokens ∧
    group [] tokens = [.statement statement] ∧ readRule statement = some reading

/-- The text of a rule is a rule statement exactly if its fields become conditions and its name
stays in the comment. -/
theorem readsAs_iff {rule : FirewallRule} (henabled : rule.enabled = true) (hvalid : rule.Valid) :
    ∃ text, generateRule rule = .ok text ∧ ∀ reading, ReadsAs text reading ↔
      rule.OneComment ∧ ∃ conditions, rule.conditions = some conditions ∧
        reading = ⟨conditions, rule.action⟩ := by
  obtain ⟨text, htext, hchars⟩ := toList_generateRule henabled hvalid
  refine ⟨text, htext, fun reading => ?_⟩
  obtain ⟨s, tail, hname, hs, htail⟩ := name_split rule
  have hblanks : scan .start "        ".toList = ([], .start) := by decide
  have hlex : lex text.toList = (lex tail).map
      ((rule.words.flatMap wordToken ++ [.quoted s]) ++ ·) := by
    have hparts : text.toList = "        ".toList ++
        ((spaced rule.words ++ ('"' :: s ++ ['"'])) ++ tail) := by
      rw [hchars, List.cons_append, hname]
      simp only [List.append_assoc, List.cons_append, List.nil_append]
    rw [hparts, lex_append_of hblanks, lex_append_of (scan_rule rule hs), flatMap_wordToken]
    cases lex tail <;> rfl
  have hgroup : ∀ more, group [] ((rule.words.flatMap wordToken ++ [.quoted s]) ++ more) =
      group (rule.words.flatMap wordToken ++ [.quoted s]) more := by
    intro more
    rw [flatMap_wordToken, List.append_assoc, group_words]
    rfl
  have hpending : rule.words.flatMap wordToken ++ [.quoted s] ≠ [] := by simp
  rw [← htail]
  constructor
  · intro h
    obtain ⟨tokens, statement, htokens, hstatement, hread⟩ := h
    rw [hlex] at htokens
    obtain ⟨more, hmore, rfl⟩ := Option.map_eq_some_iff.mp htokens
    rw [hgroup] at hstatement
    obtain ⟨extra, rfl, hidle⟩ := statement_of_group hpending hstatement
    obtain ⟨words, s', hwords⟩ := words_of_readRule hread
    have hextra : extra = [] := by
      rw [flatMap_wordToken, List.append_assoc] at hwords
      exact (quoted_inj hwords).2
    rw [hextra, List.append_nil, readRule_statement] at hread
    obtain ⟨conditions, hconditions, rfl⟩ := Option.map_eq_some_iff.mp hread
    exact ⟨⟨more, hmore, hidle hextra⟩, conditions, hconditions, rfl⟩
  · intro h
    obtain ⟨⟨more, hmore, hidle⟩, conditions, hconditions, rfl⟩ := h
    refine ⟨(rule.words.flatMap wordToken ++ [.quoted s]) ++ more,
      rule.words.flatMap wordToken ++ [.quoted s], ?_, ?_, ?_⟩
    · rw [hlex, hmore]
      rfl
    · rw [hgroup, group_of_idle hpending hidle]
    · rw [readRule_statement, hconditions]
      rfl

end MissionOs.Securityd
