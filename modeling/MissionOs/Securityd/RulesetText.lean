import MissionOs.Securityd.Nftables

/-!
# What a ruleset reads as

The ruleset that `generate_ruleset` writes, read back.  The name of a rule stands between
quotes, or in a comment if the rule is disabled, and nothing in it is escaped: a quote ends the
string, and a line break ends the comment (`oneItemEach_iff`).
-/

namespace MissionOs.Securityd

open MissionOs.Rust MissionOs.Lib.BlockText

/-! ## The parts of the text -/

/-- Lines, each with its end. -/
def unlines (lines : List String) : List Char := lines.flatMap fun l => l.toList ++ ['\n']

theorem unlines_cons (line : String) (lines : List String) :
    unlines (line :: lines) = (line.toList ++ ['\n']) ++ unlines lines := List.flatMap_cons

/-- The lines of the rules. -/
def ruleLines (rules : List FirewallRule) : List Char := unlines (rules.filterMap ruleLine)

theorem toList_generateRuleset (profile : FirewallProfile) (rules : List FirewallRule) :
    (generateRuleset profile rules).toList =
      unlines (headLines profile) ++ (ruleLines rules ++ "\x7d\n".toList) := by
  have hne : headLines profile ++ (rules.filterMap ruleLine ++ ["\x7d", ""]) ≠ [] := by simp
  have hjoin := join_append "\n" hne
  have hlines : (headLines profile ++ (rules.filterMap ruleLine ++ ["\x7d", ""])).flatMap
      (fun l => l.toList ++ "\n".toList) =
      (unlines (headLines profile) ++ (ruleLines rules ++ "\x7d\n".toList)) ++ "\n".toList := by
    simp [ruleLines, unlines]
  rw [hlines] at hjoin
  exact List.append_cancel_right hjoin

/-- The tokens of the lines before those of the rules. -/
def headTokens (profile : FirewallProfile) : List Token :=
  (scan .start (unlines (headLines profile))).1

theorem scan_head (profile : FirewallProfile) :
    scan .start (unlines (headLines profile)) = (headTokens profile, .start) := by
  refine Prod.ext rfl ?_
  cases profile <;>
    simp only [headLines, generatePublicChains, generatePrivateChains, generateDevelopmentChains,
      generateCustomChains, generateChains, unlines, List.flatMap_cons, List.cons_append,
      List.nil_append, List.flatMap_nil]
  -- the kernel is slow to read the characters of a literal
  all_goals
    repeat rw [String.toList_ofList]
    decide +kernel

theorem lex_ruleset (profile : FirewallProfile) (rules : List FirewallRule) :
    lex (generateRuleset profile rules).toList =
      (lex (ruleLines rules ++ "\x7d\n".toList)).map (headTokens profile ++ ·) := by
  rw [toList_generateRuleset, lex_append_of (scan_head profile)]

/-! ## One line for each rule -/

/-- The comment of a disabled rule. -/
def disabledComment (rule : FirewallRule) : String := " rule '" ++ rule.name ++ "' is disabled"

/-- The line of a rule that is disabled or valid, without its end. -/
def lineText (rule : FirewallRule) : List Char :=
  if rule.enabled = false then "    #".toList ++ (disabledComment rule).toList
  else "            ".toList ++ (spaced rule.words ++ ('"' :: rule.name.toList ++ ['"']))

theorem ruleLine_of_disabled {rule : FirewallRule} (h : rule.enabled = false) :
    ∃ line, ruleLine rule = some line ∧ line.toList = lineText rule := by
  refine ⟨"    " ++ ("# rule '" ++ rule.name ++ "' is disabled"), ?_, ?_⟩
  · rw [ruleLine, generateRule_of_disabled h]
    rfl
  · have hhead : "    ".toList ++ "# rule '".toList = "    #".toList ++ " rule '".toList := by
      decide
    rw [lineText, if_pos h]
    simp only [disabledComment, String.toList_append, ← List.append_assoc, hhead]

theorem ruleLine_of_valid {rule : FirewallRule} (h : rule.Valid) :
    ∃ line, ruleLine rule = some line ∧ line.toList = lineText rule := by
  cases henabled : rule.enabled with
  | false => exact ruleLine_of_disabled henabled
  | true =>
      obtain ⟨text, htext, hwords⟩ := toList_generateRule henabled h
      refine ⟨"    " ++ text, ?_, ?_⟩
      · rw [ruleLine, htext]
        rfl
      · have hblanks : "    ".toList ++ "        ".toList = "            ".toList := by decide
        rw [lineText, if_neg (by simp [henabled]), String.toList_append, hwords,
          ← List.append_assoc, hblanks]

/-- Only the name of a rule can break its line. -/
theorem newline_mem_lineText_iff {rule : FirewallRule} :
    '\n' ∈ lineText rule ↔ '\n' ∈ rule.name.toList := by
  unfold lineText
  split_ifs
  · simp [disabledComment]
  · have hwords : '\n' ∉ spaced rule.words := by
      intro hbreak
      obtain ⟨w, hw, hmem⟩ := List.mem_flatMap.mp hbreak
      rcases List.mem_append.mp hmem with hc | hc
      · exact absurd (rule.words_plain w hw _ hc) (by decide)
      · exact absurd hc (by decide)
    simp [hwords]

/-- The lines of rules that all have one. -/
theorem ruleLines_eq {rules : List FirewallRule}
    (h : ∀ rule ∈ rules, ∃ line, ruleLine rule = some line ∧ line.toList = lineText rule) :
    ruleLines rules = rules.flatMap fun rule => lineText rule ++ ['\n'] := by
  induction rules with
  | nil => rfl
  | cons rule rules ih =>
      rw [List.forall_mem_cons] at h
      obtain ⟨⟨line, hline, htext⟩, hrest⟩ := h
      rw [ruleLines, List.filterMap_cons_some hline, unlines_cons, htext, List.flatMap_cons,
        ← ih hrest]
      rfl

/-- The text behind the head: the lines of the rules, and the end of the table. -/
def rulesText (rules : List FirewallRule) : List Char :=
  (rules.flatMap fun rule => lineText rule ++ ['\n']) ++ "\x7d\n".toList

theorem rulesText_cons (rule : FirewallRule) (rules : List FirewallRule) :
    rulesText (rule :: rules) = (lineText rule ++ ['\n']) ++ rulesText rules := by
  rw [rulesText, List.flatMap_cons, List.append_assoc, rulesText]

/-- Items, each with its end, and the end of the table. -/
def itemTokens (items : List (List Token)) : List Token :=
  items.flatMap (· ++ [.separator]) ++ [.closing, .separator]

theorem itemTokens_cons (item : List Token) (items : List (List Token)) :
    itemTokens (item :: items) = item ++ .separator :: itemTokens items := by
  rw [itemTokens, List.flatMap_cons, List.append_assoc, List.append_assoc, itemTokens]
  rfl

/-- The tokens of one statement with the name of the rule as its comment, or of one comment. -/
def FirewallRule.IsItem (rule : FirewallRule) (tokens : List Token) : Prop :=
  (∃ text, tokens = [.comment text]) ∨
    ∃ words : List (List Char), tokens = words.map Token.word ++ [.quoted rule.name.toList]

/-- Every rule has one line with one item, and the text reads as the head, these items and the
end of the table. -/
structure OneItemEach (profile : FirewallProfile) (rules : List FirewallRule) : Prop where
  oneLine : ∀ rule ∈ rules, ∃ line, ruleLine rule = some line ∧ '\n' ∉ line.toList
  reads : ∃ items : List (List Token), List.Forall₂ FirewallRule.IsItem rules items ∧
    lex (generateRuleset profile rules).toList =
      some (headTokens profile ++ itemTokens items)

/-- Nothing in the name of a rule is more than a part of its string or of its comment. -/
structure FirewallRule.Harmless (rule : FirewallRule) : Prop where
  oneLine : '\n' ∉ rule.name.toList
  oneString : rule.enabled = true → '"' ∉ rule.name.toList

theorem flatMap_wordToken (words : List (List Char)) :
    words.flatMap wordToken = (words.filter (· ≠ [])).map Token.word := by
  induction words with
  | nil => rfl
  | cons w words ih =>
      rw [List.flatMap_cons, ih]
      by_cases hw : w = []
      · rw [List.filter_cons_of_neg (by simpa using hw), wordToken, if_pos hw, List.nil_append]
      · rw [List.filter_cons_of_pos (by simpa using hw), wordToken, if_neg hw]
        rfl

/-- The first string of a list of tokens is in one place. -/
theorem quoted_inj {words words' : List (List Char)} {s s' : List Char} {rest rest' : List Token}
    (h : words.map Token.word ++ .quoted s :: rest = words'.map Token.word ++ .quoted s' :: rest') :
    s = s' ∧ rest = rest' := by
  induction words generalizing words' with
  | nil =>
      cases words' with
      | nil =>
          cases h
          exact ⟨rfl, rfl⟩
      | cons w' words' => cases h
  | cons w words ih =>
      cases words' with
      | nil => cases h
      | cons w' words' => exact ih (List.cons.inj h).2

/-- The words of a rule, then a string. -/
theorem scan_rule (rule : FirewallRule) {s : List Char} (hs : '"' ∉ s) :
    scan .start (spaced rule.words ++ ('"' :: s ++ ['"'])) =
      ((rule.words.filter (· ≠ [])).map Token.word ++ [.quoted s], .start) := by
  rw [spaced, scan_append_of (scan_words rule.words_plain), scan_string hs, flatMap_wordToken]

/-- An item that is read as words and a string has the name of the rule as that string. -/
theorem FirewallRule.IsItem.string {rule : FirewallRule} {item : List Token}
    (h : rule.IsItem item) {words : List (List Char)} {s : List Char} {more more' : List Token}
    (heq : words.map Token.word ++ .quoted s :: more = item ++ more') :
    s = rule.name.toList ∧ more = more' := by
  rcases h with ⟨text, rfl⟩ | ⟨words', rfl⟩
  · cases words <;> cases heq
  · rw [List.append_assoc] at heq
    exact quoted_inj heq

/-- Two items of a rule that are read from one place end at one place. -/
theorem FirewallRule.IsItem.cancel {rule : FirewallRule} {item item' : List Token}
    (h : rule.IsItem item) (h' : rule.IsItem item') {more more' : List Token}
    (heq : item ++ more = item' ++ more') : more = more' := by
  rcases h with ⟨text, rfl⟩ | ⟨words, rfl⟩
  · rcases h' with ⟨text', rfl⟩ | ⟨words', rfl⟩
    · exact (List.cons.inj heq).2
    · cases words' <;> cases heq
  · rw [List.append_assoc] at heq
    exact (h'.string heq).2

/-- The line of an enabled rule, up to the quote that ends its string. -/
theorem scan_enabled {rule : FirewallRule} (henabled : rule.enabled = true) (s rest : List Char)
    (hname : rule.name.toList ++ ['"'] = s ++ '"' :: rest) (hs : '"' ∉ s) :
    ∃ start, lineText rule = start ++ rest ∧
      scan .start start = ((rule.words.filter (· ≠ [])).map Token.word ++ [.quoted s], .start) := by
  refine ⟨"            ".toList ++ (spaced rule.words ++ ('"' :: s ++ ['"'])), ?_, ?_⟩
  · rw [lineText, if_neg (by simp [henabled]), List.cons_append, hname]
    simp only [List.append_assoc, List.cons_append, List.nil_append]
  · have hblanks : scan .start "            ".toList = ([], .start) := by decide
    rw [scan_append_of hblanks, scan_rule rule hs]
    rfl

/-- A line whose name is harmless reads as one item. -/
theorem scan_harmless {rule : FirewallRule} (h : rule.Harmless) :
    ∃ item, rule.IsItem item ∧
      scan .start (lineText rule ++ ['\n']) = (item ++ [.separator], .start) := by
  cases henabled : rule.enabled with
  | false =>
      have hhash : scan .start "    #".toList = ([], .comment []) := by decide
      have hcomment : '\n' ∉ (disabledComment rule).toList := by
        simpa [disabledComment] using h.oneLine
      refine ⟨[.comment (disabledComment rule).toList], Or.inl ⟨_, rfl⟩, ?_⟩
      rw [lineText, if_pos henabled, List.append_assoc, scan_append_of hhash,
        scan_append_of (scan_comment hcomment [])]
      rfl
  | true =>
      obtain ⟨start, hline, hscan⟩ :=
        scan_enabled henabled rule.name.toList [] rfl (h.oneString henabled)
      refine ⟨(rule.words.filter (· ≠ [])).map Token.word ++ [.quoted rule.name.toList],
        Or.inr ⟨_, rfl⟩, ?_⟩
      rw [hline, List.append_nil, scan_append_of hscan]
      rfl

/-- The lines of rules with harmless names read as one item each. -/
theorem lex_of_harmless {rules : List FirewallRule} (h : ∀ rule ∈ rules, rule.Harmless) :
    ∃ items, List.Forall₂ FirewallRule.IsItem rules items ∧
      lex (rulesText rules) = some (itemTokens items) := by
  induction rules with
  | nil => exact ⟨[], .nil, by decide⟩
  | cons rule rules ih =>
      rw [List.forall_mem_cons] at h
      obtain ⟨item, hitem, hscan⟩ := scan_harmless h.1
      obtain ⟨items, hitems, hlex⟩ := ih h.2
      refine ⟨item :: items, .cons hitem hitems, ?_⟩
      rw [rulesText_cons, lex_append_of hscan, hlex, itemTokens_cons, Option.map_some,
        List.append_assoc]
      rfl

/-- A quote in the name of an enabled rule ends its string too early. -/
theorem oneString_of_reads {rules : List FirewallRule} {items : List (List Token)}
    (hitems : List.Forall₂ FirewallRule.IsItem rules items)
    (hlines : ∀ rule ∈ rules, '\n' ∉ rule.name.toList)
    (hreads : lex (rulesText rules) = some (itemTokens items)) :
    ∀ rule ∈ rules, rule.enabled = true → '"' ∉ rule.name.toList := by
  induction hitems with
  | nil => exact List.forall_mem_nil _
  | @cons rule item rules items hitem hitems ih =>
      rw [List.forall_mem_cons] at hlines
      rw [rulesText_cons, itemTokens_cons] at hreads
      have hone : rule.enabled = true → '"' ∉ rule.name.toList := by
        intro henabled hquote
        obtain ⟨s, rest, hname, hs⟩ := List.eq_append_cons_of_mem hquote
        have hsplit : rule.name.toList ++ ['"'] = s ++ '"' :: (rest ++ ['"']) := by
          rw [hname, List.append_assoc, List.cons_append]
        obtain ⟨start, hline, hscan⟩ := scan_enabled henabled s _ hsplit hs
        rw [hline, List.append_assoc, List.append_assoc] at hreads
        obtain ⟨more, hmore⟩ := tokens_of_lex hscan hreads
        rw [List.append_assoc (List.map _ _)] at hmore
        have hwhole := (hitem.string hmore.symm).1
        rw [← hwhole] at hquote
        exact hs hquote
      obtain ⟨item', hitem', hscan⟩ := scan_harmless ⟨hlines.1, hone⟩
      rw [lex_append_of hscan] at hreads
      obtain ⟨more, hmore, hall⟩ := Option.map_eq_some_iff.mp hreads
      rw [List.append_assoc] at hall
      have hrest := hitem'.cancel hitem hall
      refine List.forall_mem_cons.mpr ⟨hone, ih hlines.2 ?_⟩
      rw [hmore]
      exact congrArg some (List.cons.inj hrest).2

/-- Every rule has one line with one item exactly if all names are harmless. -/
theorem oneItemEach_iff (profile : FirewallProfile) (rules : List FirewallRule)
    (hvalid : ∀ rule ∈ rules, rule.Valid) :
    OneItemEach profile rules ↔ ∀ rule ∈ rules, rule.Harmless := by
  have hlines : ∀ rule ∈ rules, ∃ line, ruleLine rule = some line ∧
      line.toList = lineText rule := fun rule hrule => ruleLine_of_valid (hvalid rule hrule)
  constructor
  · intro h
    have hone : ∀ rule ∈ rules, '\n' ∉ rule.name.toList := by
      intro rule hrule hbreak
      obtain ⟨line, hline, hno⟩ := h.oneLine rule hrule
      obtain ⟨line', hline', htext⟩ := hlines rule hrule
      cases hline.symm.trans hline'
      rw [htext] at hno
      exact hno (newline_mem_lineText_iff.mpr hbreak)
    obtain ⟨items, hitems, hreads⟩ := h.reads
    rw [lex_ruleset, ruleLines_eq hlines, ← rulesText] at hreads
    obtain ⟨tokens, htokens, hall⟩ := Option.map_eq_some_iff.mp hreads
    rw [List.append_cancel_left hall] at htokens
    have hstring := oneString_of_reads hitems hone htokens
    exact fun rule hrule => ⟨hone rule hrule, hstring rule hrule⟩
  · intro h
    obtain ⟨items, hitems, hlex⟩ := lex_of_harmless h
    refine ⟨fun rule hrule => ?_, items, hitems, ?_⟩
    · obtain ⟨line, hline, htext⟩ := hlines rule hrule
      refine ⟨line, hline, ?_⟩
      rw [htext]
      exact mt newline_mem_lineText_iff.mp (h rule hrule).oneLine
    · rw [lex_ruleset, ruleLines_eq hlines, ← rulesText, hlex]
      rfl

/-- A rule that lets SSH in. -/
def allowSsh (name : String) (enabled : Bool) : FirewallRule where
  name := name
  direction := .incoming
  action := .accept
  protocol := some .tcp
  source := none
  destination := none
  sourcePort := none
  destinationPort := some 22
  enabled := enabled

theorem allow_ssh_one_item :
    OneItemEach .development [allowSsh "allow-ssh" true] ↔
      ∀ rule ∈ [allowSsh "allow-ssh" true], rule.Harmless :=
  oneItemEach_iff .development [allowSsh "allow-ssh" true] (by decide)

/-- The second line of the name of a disabled rule is a statement of its own. -/
theorem disabled_rule_accepts :
    ¬ ∀ (profile : FirewallProfile) (rules : List FirewallRule),
      (∀ rule ∈ rules, rule.Valid) → OneItemEach profile rules := by
  intro h
  obtain ⟨line, hline, hno⟩ := (h .publicProfile [allowSsh "ssh\naccept #" false]
    (by decide)).oneLine _ List.mem_cons_self
  cases hline
  exact hno (by decide)

end MissionOs.Securityd
