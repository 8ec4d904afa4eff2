import Mathlib.Data.List.Basic

/-!
# Block text

The lexical form of configuration languages with blocks in braces: words between blanks,
strings between quotes, comments from a `#` to the end of the line, and statements that a
semicolon or the end of a line ends.

The scanner reads one character after the other.  Its `Mode` is what it is in the middle of,
so a text can be scanned in two parts (`scan_append`).  `group` makes statements and blocks of
the tokens.

Comments and separators say nothing (`group_eq_nil_iff`), and a text of lines says nothing
exactly if each line does (`quiet_lines_iff`).
-/

namespace MissionOs.Lib.BlockText

inductive Token where
  | word (text : List Char)
  | quoted (text : List Char)
  | comment (text : List Char)
  | separator
  | opening
  | closing
deriving DecidableEq, Repr

/-- What the scanner is in the middle of: a word (or a blank, if it is empty), a string, or a
comment. -/
inductive Mode where
  | word (text : List Char)
  | quoted (text : List Char)
  | comment (text : List Char)
deriving DecidableEq, Repr

/-- Between two tokens. -/
abbrev Mode.start : Mode := .word []

/-- The word that has been read so far, if there is one. -/
def wordToken (text : List Char) : List Token :=
  if text = [] then [] else [.word text]

/-- What a character stands for that is not part of a word, if it is such a character. -/
def punctuation (c : Char) : Option (List Token × Mode) :=
  if c = ' ' ∨ c = '\t' then some ([], .start)
  else if c = '\n' ∨ c = ';' then some ([.separator], .start)
  else if c = '{' then some ([.opening], .start)
  else if c = '}' then some ([.closing], .start)
  else if c = '"' then some ([], .quoted [])
  else if c = '#' then some ([], .comment [])
  else none

/-- One character: the tokens that it completes, and the mode after it. -/
def next : Mode → Char → List Token × Mode
  | .word text, c =>
    match punctuation c with
    | some (tokens, mode) => (wordToken text ++ tokens, mode)
    | none => ([], .word (text ++ [c]))
  | .quoted text, c =>
    if c = '"' then ([.quoted text], .start) else ([], .quoted (text ++ [c]))
  | .comment text, c =>
    if c = '\n' then ([.comment text, .separator], .start) else ([], .comment (text ++ [c]))

/-- The tokens of a text, and the mode after it. -/
def scan : Mode → List Char → List Token × Mode
  | mode, [] => ([], mode)
  | mode, c :: text =>
    let first := next mode c
    let rest := scan first.2 text
    (first.1 ++ rest.1, rest.2)

/-- What the end of the text completes; it must not be in a string. -/
def Mode.finish : Mode → Option (List Token)
  | .word text => some (wordToken text)
  | .quoted _ => none
  | .comment text => some [.comment text]

/-- The tokens of a whole text. -/
def lex (text : List Char) : Option (List Token) :=
  (scan .start text).2.finish.map ((scan .start text).1 ++ ·)

example : lex "tcp dport 22 accept # ssh".toList =
    some [.word "tcp".toList, .word "dport".toList, .word "22".toList, .word "accept".toList,
      .comment " ssh".toList] := by decide

/-! ## Texts in parts -/

@[simp] theorem scan_nil (mode : Mode) : scan mode [] = ([], mode) := rfl

theorem scan_cons (mode : Mode) (c : Char) (text : List Char) :
    scan mode (c :: text) =
      ((next mode c).1 ++ (scan (next mode c).2 text).1, (scan (next mode c).2 text).2) := rfl

theorem scan_append (mode : Mode) (s t : List Char) :
    scan mode (s ++ t) =
      ((scan mode s).1 ++ (scan (scan mode s).2 t).1, (scan (scan mode s).2 t).2) := by
  induction s generalizing mode with
  | nil => rfl
  | cons c s ih => rw [List.cons_append, scan_cons, ih, scan_cons, List.append_assoc]

/-- A text after a part of which the tokens are known. -/
theorem scan_append_of {mode mode' : Mode} {s : List Char} {tokens : List Token}
    (h : scan mode s = (tokens, mode')) (t : List Char) :
    scan mode (s ++ t) = (tokens ++ (scan mode' t).1, (scan mode' t).2) := by
  rw [scan_append, h]

/-- The tokens of a whole text after a part that ends between two tokens. -/
theorem lex_append_of {s : List Char} {tokens : List Token} (h : scan .start s = (tokens, .start))
    (t : List Char) : lex (s ++ t) = (lex t).map (tokens ++ ·) := by
  unfold lex
  rw [scan_append_of h]
  cases (scan .start t).2.finish with
  | none => rfl
  | some more => simp

/-- The tokens of a part stand at the beginning. -/
theorem tokens_of_lex {s t : List Char} {tokens all : List Token} {mode : Mode}
    (h : scan .start s = (tokens, mode)) (hlex : lex (s ++ t) = some all) :
    ∃ more, all = tokens ++ more := by
  unfold lex at hlex
  rw [scan_append_of h] at hlex
  obtain ⟨last, -, rfl⟩ := Option.map_eq_some_iff.mp hlex
  exact ⟨_, List.append_assoc tokens _ last⟩

/-- A word goes on over characters that are not punctuation. -/
theorem scan_word {w : List Char} (h : ∀ c ∈ w, punctuation c = none) (text : List Char) :
    scan (.word text) w = ([], .word (text ++ w)) := by
  induction w generalizing text with
  | nil => simp
  | cons c w ih =>
      rw [List.forall_mem_cons] at h
      have hnext : next (.word text) c = ([], .word (text ++ [c])) := by
        simp only [next, h.1]
      rw [scan_cons, hnext, ih h.2, List.append_assoc]
      rfl

/-- A string goes on up to the next quote. -/
theorem scan_quoted {s : List Char} (h : '"' ∉ s) (text : List Char) :
    scan (.quoted text) s = ([], .quoted (text ++ s)) := by
  induction s generalizing text with
  | nil => simp
  | cons c s ih =>
      rw [List.mem_cons, not_or] at h
      have hnext : next (.quoted text) c = ([], .quoted (text ++ [c])) := by
        simp only [next, if_neg (Ne.symm h.1)]
      rw [scan_cons, hnext, ih h.2, List.append_assoc]
      rfl

/-- A comment goes on up to the end of the line. -/
theorem scan_comment {s : List Char} (h : '\n' ∉ s) (text : List Char) :
    scan (.comment text) s = ([], .comment (text ++ s)) := by
  induction s generalizing text with
  | nil => simp
  | cons c s ih =>
      rw [List.mem_cons, not_or] at h
      have hnext : next (.comment text) c = ([], .comment (text ++ [c])) := by
        simp only [next, if_neg (Ne.symm h.1)]
      rw [scan_cons, hnext, ih h.2, List.append_assoc]
      rfl

/-- A word, and the blank after it. -/
theorem scan_word_blank {w : List Char} (h : ∀ c ∈ w, punctuation c = none) :
    scan .start (w ++ [' ']) = (wordToken w, .start) := by
  rw [scan_append_of (scan_word h []), List.nil_append, scan_cons]
  simp [next, punctuation]

/-- Words with a blank after each. -/
theorem scan_words {words : List (List Char)}
    (h : ∀ w ∈ words, ∀ c ∈ w, punctuation c = none) :
    scan .start (words.flatMap (· ++ [' '])) = (words.flatMap wordToken, .start) := by
  induction words with
  | nil => rfl
  | cons w words ih =>
      rw [List.forall_mem_cons] at h
      rw [List.flatMap_cons, scan_append_of (scan_word_blank h.1), ih h.2, List.flatMap_cons]

/-- A string with its quotes. -/
theorem scan_string {s : List Char} (h : '"' ∉ s) :
    scan .start ('"' :: s ++ ['"']) = ([.quoted s], .start) := by
  have hopen : scan .start ('"' :: s) = ([], .quoted s) := by
    rw [scan_cons]
    exact scan_quoted h []
  rw [scan_append_of hopen, List.nil_append, scan_cons]
  simp [next]

/-! ## Statements and blocks -/

/-- What the tokens make up: a statement, the head of a block that opens, or the end of one. -/
inductive Item where
  | statement (tokens : List Token)
  | opens (head : List Token)
  | closes
deriving DecidableEq, Repr

/-- The statement that has been read so far, if there is one. -/
def statementItem (pending : List Token) : List Item :=
  if pending = [] then [] else [.statement pending]

/-- The items of some tokens, after `pending` ones of the same statement. -/
def group : List Token → List Token → List Item
  | pending, [] => statementItem pending
  | pending, .comment _ :: tokens => group pending tokens
  | pending, .separator :: tokens => statementItem pending ++ group [] tokens
  | pending, .opening :: tokens => .opens pending :: group [] tokens
  | pending, .closing :: tokens => statementItem pending ++ .closes :: group [] tokens
  | pending, .word text :: tokens => group (pending ++ [.word text]) tokens
  | pending, .quoted text :: tokens => group (pending ++ [.quoted text]) tokens

theorem statementItem_eq_nil_iff {pending : List Token} :
    statementItem pending = [] ↔ pending = [] := by
  by_cases h : pending = []
  · exact iff_of_true (if_pos h) h
  · rw [statementItem, if_neg h]
    exact iff_of_false (List.cons_ne_nil _ _) h

/-- A separator ends what is before it. -/
theorem group_append_separator (pending tokens more : List Token) :
    group pending (tokens ++ .separator :: more) = group pending tokens ++ group [] more := by
  induction tokens generalizing pending with
  | nil => rfl
  | cons token tokens ih => cases token <;> simp [group, ih]

/-- So does the end of the block. -/
theorem group_append_closing (pending tokens more : List Token) :
    group pending (tokens ++ .closing :: more) =
      group pending tokens ++ .closes :: group [] more := by
  induction tokens generalizing pending with
  | nil => rfl
  | cons token tokens ih => cases token <;> simp [group, ih]

/-- Words are more tokens of the same statement. -/
theorem group_words (pending : List Token) (words : List (List Char)) (more : List Token) :
    group pending (words.map Token.word ++ more) =
      group (pending ++ words.map Token.word) more := by
  induction words generalizing pending with
  | nil => simp
  | cons w words ih => simp [group, ih]

/-- The tokens of a text that is known to be one. -/
def tokensOf (text : String) : List Token := (lex text.toList).getD []

/-- A block of statements. -/
structure Block where
  head : List Token
  statements : List (List Token)
deriving DecidableEq, Repr

/-- The items of a block. -/
def Block.items (block : Block) : List Item :=
  .opens block.head :: (block.statements.map .statement ++ [.closes])

/-- Statements up to the end of their block can be read in one way only. -/
theorem statements_append_inj {xs ys : List (List Token)} {more more' : List Item}
    (h : xs.map Item.statement ++ .closes :: more = ys.map Item.statement ++ .closes :: more') :
    xs = ys ∧ more = more' := by
  induction xs generalizing ys with
  | nil =>
      cases ys with
      | nil => exact ⟨rfl, (List.cons.inj h).2⟩
      | cons y ys => cases h
  | cons x xs ih =>
      cases ys with
      | nil => cases h
      | cons y ys =>
          have hcons := List.cons.inj h
          have hrest := ih hcons.2
          exact ⟨congrArg₂ List.cons (Item.statement.inj hcons.1) hrest.1, hrest.2⟩

theorem Block.items_append_inj {b c : Block} {more more' : List Item}
    (h : b.items ++ more = c.items ++ more') : b = c ∧ more = more' := by
  obtain ⟨head, statements⟩ := b
  obtain ⟨head', statements'⟩ := c
  simp only [Block.items, List.cons_append, List.append_assoc, List.nil_append,
    List.cons.injEq, Item.opens.injEq] at h
  obtain ⟨rfl, hrest⟩ := h
  obtain ⟨rfl, hmore⟩ := statements_append_inj hrest
  exact ⟨rfl, hmore⟩

/-- As many blocks, read from one place, are the same ones. -/
theorem blocks_append_inj {bs cs : List Block} (hlength : bs.length = cs.length)
    {more more' : List Item}
    (h : bs.flatMap Block.items ++ more = cs.flatMap Block.items ++ more') :
    bs = cs ∧ more = more' := by
  induction bs generalizing cs with
  | nil =>
      cases cs with
      | nil => exact ⟨rfl, h⟩
      | cons c cs => cases hlength
  | cons b bs ih =>
      cases cs with
      | nil => cases hlength
      | cons c cs =>
          rw [List.flatMap_cons, List.flatMap_cons, List.append_assoc, List.append_assoc] at h
          obtain ⟨rfl, hrest⟩ := Block.items_append_inj h
          obtain ⟨rfl, hmore⟩ := ih (Nat.succ.inj hlength) hrest
          exact ⟨rfl, hmore⟩

/-! ## Texts that say nothing -/

/-- A token that says nothing. -/
def Token.isIdle : Token → Bool
  | .comment _ | .separator => true
  | _ => false

/-- Tokens that say nothing. -/
def Idle (tokens : List Token) : Prop := ∀ token ∈ tokens, token.isIdle = true

instance decidableIdle (tokens : List Token) : Decidable (Idle tokens) :=
  inferInstanceAs (Decidable (∀ token ∈ tokens, token.isIdle = true))

theorem idle_append {tokens more : List Token} :
    Idle (tokens ++ more) ↔ Idle tokens ∧ Idle more := List.forall_mem_append

theorem group_eq_nil_iff {pending tokens : List Token} :
    group pending tokens = [] ↔ pending = [] ∧ Idle tokens := by
  induction tokens generalizing pending with
  | nil => simp [group, statementItem_eq_nil_iff, Idle]
  | cons token tokens ih =>
      cases token <;> simp [group, ih, statementItem_eq_nil_iff, Idle, Token.isIdle]

theorem group_of_idle {pending tokens : List Token} (hpending : pending ≠ [])
    (h : Idle tokens) : group pending tokens = [.statement pending] := by
  induction tokens with
  | nil => exact if_neg hpending
  | cons token tokens ih =>
      have hrest : Idle tokens := fun t ht => h t (List.mem_cons_of_mem token ht)
      cases token with
      | comment text => exact ih hrest
      | separator =>
          rw [group, statementItem, if_neg hpending, group_eq_nil_iff.mpr ⟨rfl, hrest⟩]
          rfl
      | word text => cases h _ List.mem_cons_self
      | quoted text => cases h _ List.mem_cons_self
      | opening => cases h _ List.mem_cons_self
      | closing => cases h _ List.mem_cons_self

/-- A statement that is all there is goes on with the tokens that follow, unless they say
nothing. -/
theorem statement_of_group {pending tokens statement : List Token} (hpending : pending ≠ [])
    (h : group pending tokens = [.statement statement]) :
    ∃ extra, statement = pending ++ extra ∧ (extra = [] → Idle tokens) := by
  induction tokens generalizing pending with
  | nil =>
      rw [group, statementItem, if_neg hpending] at h
      cases h
      exact ⟨[], (List.append_nil _).symm, fun _ => List.forall_mem_nil _⟩
  | cons token tokens ih =>
      have hlonger : ∀ t : Token, group (pending ++ [t]) tokens = [.statement statement] →
          ∃ extra, statement = pending ++ extra ∧ (extra = [] → Idle (token :: tokens)) := by
        intro t hgroup
        obtain ⟨extra, hextra, -⟩ := ih (by simp) hgroup
        refine ⟨t :: extra, ?_, fun hnil => absurd hnil (List.cons_ne_nil t extra)⟩
        rw [hextra, List.append_assoc]
        rfl
      cases token with
      | comment text =>
          obtain ⟨extra, hextra, hidle⟩ := ih hpending h
          refine ⟨extra, hextra, fun hnil => ?_⟩
          exact List.forall_mem_cons.mpr ⟨rfl, hidle hnil⟩
      | separator =>
          rw [group, statementItem, if_neg hpending] at h
          obtain ⟨hsame, hnil⟩ := List.cons.inj h
          cases hsame
          refine ⟨[], (List.append_nil _).symm, fun _ => ?_⟩
          exact List.forall_mem_cons.mpr ⟨rfl, (group_eq_nil_iff.mp hnil).2⟩
      | opening => cases h
      | closing =>
          rw [group, statementItem, if_neg hpending] at h
          cases h
      | word text => exact hlonger _ h
      | quoted text => exact hlonger _ h

/-- A text that says nothing, and ends between two tokens. -/
def Quiet (s : List Char) : Prop := Idle (scan .start s).1 ∧ (scan .start s).2 = .start

/-- A string that is not ended says nothing, but it does not end either. -/
theorem scan_quoted_of_idle {s : List Char} {text : List Char}
    (h : Idle (scan (.quoted text) s).1) : ∃ text', (scan (.quoted text) s).2 = .quoted text' := by
  induction s generalizing text with
  | nil => exact ⟨text, rfl⟩
  | cons c s ih =>
      by_cases hc : c = '"'
      · subst hc
        rw [scan_cons, next, if_pos rfl] at h
        exact absurd (h _ List.mem_cons_self) (by simp [Token.isIdle])
      · have hnext : next (.quoted text) c = ([], .quoted (text ++ [c])) := if_neg hc
        rw [scan_cons, hnext] at h ⊢
        exact ih h

/-- What a line can end in: nothing, or a string. -/
def Mode.AtLineStart (mode : Mode) : Prop := mode = .start ∨ ∃ text, mode = .quoted text

theorem scan_line (mode : Mode) (line : List Char) :
    (scan mode (line ++ ['\n'])).2.AtLineStart := by
  rw [scan_append]
  cases hmode : (scan mode line).2 with
  | word text =>
      left
      simp [scan_cons, next, punctuation]
  | quoted text =>
      right
      exact ⟨text ++ ['\n'], rfl⟩
  | comment text =>
      left
      simp [scan_cons, next]

/-- The text of some lines, each with its end. -/
def lineBlock (lines : List (List Char)) : List Char := lines.flatMap (· ++ ['\n'])

theorem scan_lines {mode : Mode} (h : mode.AtLineStart) (lines : List (List Char)) :
    (scan mode (lineBlock lines)).2.AtLineStart := by
  induction lines generalizing mode with
  | nil => exact h
  | cons line lines ih =>
      rw [lineBlock, List.flatMap_cons, scan_append]
      exact ih (scan_line mode line)

/-- A line that says nothing, and more text. -/
theorem quiet_line_append {line more : List Char} :
    Quiet ((line ++ ['\n']) ++ more) ↔ Quiet (line ++ ['\n']) ∧ Quiet more := by
  unfold Quiet
  rw [scan_append, idle_append]
  dsimp only
  rcases scan_line .start line with hstart | ⟨text, hquoted⟩
  · rw [hstart]
    constructor
    · intro h
      exact ⟨⟨h.1.1, rfl⟩, h.1.2, h.2⟩
    · intro h
      exact ⟨⟨h.1.1, h.2.1⟩, h.2.2⟩
  · rw [hquoted]
    constructor
    · intro h
      obtain ⟨text', hopen⟩ := scan_quoted_of_idle h.1.2
      cases hopen.symm.trans h.2
    · intro h
      cases h.1.2

theorem quiet_lines_iff {lines : List (List Char)} :
    Quiet (lineBlock lines) ↔ ∀ line ∈ lines, Quiet (line ++ ['\n']) := by
  induction lines with
  | nil => exact iff_of_true ⟨List.forall_mem_nil _, rfl⟩ (List.forall_mem_nil _)
  | cons line lines ih =>
      rw [List.forall_mem_cons, ← ih, lineBlock, List.flatMap_cons, quiet_line_append]
      rfl

/-- Lines that stand before the end of a block say nothing exactly if the end of the block is
all that is read. -/
theorem closes_iff_quiet {lines : List (List Char)} :
    (∃ tokens, lex (lineBlock lines ++ ['}', '\n']) = some tokens ∧
      group [] tokens = [.closes]) ↔ Quiet (lineBlock lines) := by
  unfold lex Quiet
  rw [scan_append]
  dsimp only
  rcases scan_lines (Or.inl rfl) lines with hstart | ⟨text, hquoted⟩
  · have hend : scan .start ['}', '\n'] = ([.closing, .separator], .start) := by decide
    rw [hstart, hend, and_iff_left rfl]
    have hgroup : ∀ tokens, group [] (tokens ++ [.closing, .separator]) = [.closes] ↔
        Idle tokens := by
      intro tokens
      rw [group_append_closing]
      refine Iff.trans ?_ (group_eq_nil_iff.trans (and_iff_right rfl))
      exact List.append_left_eq_self
    rw [← hgroup]
    simp [Mode.finish, wordToken]
  · have hend : scan (.quoted text) ['}', '\n'] = ([], .quoted (text ++ ['}', '\n'])) :=
      scan_quoted (by decide) text
    rw [hquoted, hend]
    simp [Mode.finish]

/-! ## A block of blocks -/

/-- The blocks up to the end of the one that they are in, which has nothing else in it.  `pending`
is the block that has been opened. -/
def readBlocks : Option Block → List Item → Option (List Block)
  | none, [.closes] => some []
  | none, .opens head :: items => readBlocks (some ⟨head, []⟩) items
  | some ⟨head, statements⟩, .statement tokens :: items =>
    readBlocks (some ⟨head, statements ++ [tokens]⟩) items
  | some block, .closes :: items => (readBlocks none items).map (block :: ·)
  | _, _ => none

theorem readBlocks_statements (head : List Token) (before statements : List (List Token))
    (items : List Item) :
    readBlocks (some ⟨head, before⟩) (statements.map Item.statement ++ items) =
      readBlocks (some ⟨head, before ++ statements⟩) items := by
  induction statements generalizing before with
  | nil => rw [List.map_nil, List.nil_append, List.append_nil]
  | cons tokens statements ih =>
      rw [List.map_cons, List.cons_append, readBlocks, ih, List.append_assoc]
      rfl

/-- A block is read as it is written. -/
theorem readBlocks_items (block : Block) (items : List Item) :
    readBlocks none (block.items ++ items) = (readBlocks none items).map (block :: ·) := by
  rw [Block.items, List.cons_append, readBlocks, List.append_assoc, readBlocks_statements]
  rfl

theorem readBlocks_append (blocks : List Block) (items : List Item) :
    readBlocks none (blocks.flatMap Block.items ++ items) =
      (readBlocks none items).map (blocks ++ ·) := by
  induction blocks with
  | nil => simp
  | cons block blocks ih =>
      rw [List.flatMap_cons, List.append_assoc, readBlocks_items, ih, Option.map_map]
      rfl

end MissionOs.Lib.BlockText
