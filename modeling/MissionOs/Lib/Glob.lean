import Mathlib.Data.List.Basic
import Mathlib.Data.List.Forall2

/-!
# The language of a glob pattern

A pattern is a list of tokens over an alphabet: a letter that stands for itself, a
token for any one letter and a token for any sequence of letters.  `Matches` is the
language of a pattern.

A pattern may be given over the letters of one alphabet and matched on their codes in
another, as characters are on their bytes.  For a code in which the start of a word is
seen from its first unit, `Matches.decode` brings a match on the codes back to the
letters.
-/

namespace MissionOs.Lib.Glob

/-- A token of a pattern. -/
inductive Token (α : Type*) where
  | literal (a : α)
  /-- Any one letter. -/
  | one
  /-- Any sequence of letters. -/
  | many
deriving DecidableEq, Repr

variable {α β : Type*}

/-- The language of a pattern. -/
inductive Matches : List (Token α) → List α → Prop where
  | nil : Matches [] []
  | literal (a : α) {p t} : Matches p t → Matches (.literal a :: p) (a :: t)
  | one (a : α) {p t} : Matches p t → Matches (.one :: p) (a :: t)
  | skip {p t} : Matches p t → Matches (.many :: p) t
  | take (a : α) {p t} : Matches (.many :: p) t → Matches (.many :: p) (a :: t)

/-! ## The tokens -/

@[simp] theorem matches_nil_iff {t : List α} : Matches [] t ↔ t = [] := by
  constructor
  · intro h
    cases h
    rfl
  · intro heq
    subst heq
    exact .nil

theorem matches_literal_iff {a : α} {p : List (Token α)} {t : List α} :
    Matches (.literal a :: p) t ↔ ∃ t', t = a :: t' ∧ Matches p t' := by
  constructor
  · intro h
    cases h with
    | literal a h => exact ⟨_, rfl, h⟩
  · intro hright
    obtain ⟨t', rfl, h⟩ := hright
    exact .literal a h

/-- A pattern that begins with a wildcard may skip what stands before its match. -/
theorem Matches.many_append_many {p : List (Token α)} {t : List α} (x : List α)
    (h : Matches (.many :: p) t) : Matches (.many :: p) (x ++ t) := by
  induction x with
  | nil => exact h
  | cons a x ih => exact .take a ih

theorem Matches.many_append {p : List (Token α)} {t : List α} (x : List α)
    (h : Matches p t) : Matches (.many :: p) (x ++ t) :=
  (Matches.skip h).many_append_many x

theorem matches_many_iff {p : List (Token α)} {t : List α} :
    Matches (.many :: p) t ↔ ∃ x t', t = x ++ t' ∧ Matches p t' := by
  constructor
  · intro h
    generalize hq : (.many :: p : List (Token α)) = q at h
    induction h with
    | nil => cases hq
    | literal => cases hq
    | one => cases hq
    | @skip p' t h ih =>
        cases hq
        exact ⟨[], t, rfl, h⟩
    | take a h ih =>
        obtain ⟨x, t', ht, hm⟩ := ih hq
        exact ⟨a :: x, t', by rw [ht, List.cons_append], hm⟩
  · intro hright
    obtain ⟨x, t', rfl, h⟩ := hright
    exact h.many_append x

/-- A word of letters in a pattern stands for itself. -/
theorem matches_literals_append_iff {l : List α} {p : List (Token α)} {t : List α} :
    Matches (l.map .literal ++ p) t ↔ ∃ t', t = l ++ t' ∧ Matches p t' := by
  induction l generalizing t with
  | nil => simp
  | cons a l ih =>
      rw [List.map_cons, List.cons_append, matches_literal_iff]
      constructor
      · intro h
        obtain ⟨t', rfl, h⟩ := h
        obtain ⟨t'', rfl, h'⟩ := ih.mp h
        exact ⟨t'', rfl, h'⟩
      · intro hright
        obtain ⟨t', rfl, h⟩ := hright
        exact ⟨l ++ t', rfl, ih.mpr ⟨t', rfl, h⟩⟩

theorem Matches.literals_append {p : List (Token α)} {t : List α} (l : List α)
    (h : Matches p t) : Matches (l.map .literal ++ p) (l ++ t) :=
  matches_literals_append_iff.mpr ⟨t, rfl, h⟩

/-- A pattern without `many` matches texts of its own length only. -/
theorem Matches.length_eq {p : List (Token α)} {t : List α} (h : Matches p t)
    (hp : .many ∉ p) : t.length = p.length := by
  induction h with
  | nil => rfl
  | literal a h ih => simp [ih (List.not_mem_of_not_mem_cons hp)]
  | one a h ih => simp [ih (List.not_mem_of_not_mem_cons hp)]
  | skip => simp at hp
  | take => simp at hp

/-! ## Wider patterns -/

/-- Whether the second token stands for every letter that the first stands for. -/
inductive Token.Within : Token α → Token α → Prop where
  | refl (k : Token α) : Within k k
  | one (a : α) : Within (.literal a) .one

/-- What a pattern matches, a wider pattern matches too. -/
theorem Matches.within {p q : List (Token α)} {t : List α} (h : Matches p t)
    (hpq : List.Forall₂ Token.Within p q) : Matches q t := by
  induction h generalizing q with
  | nil =>
      cases hpq
      exact .nil
  | literal a h ih =>
      cases hpq with
      | cons hk hrest =>
          cases hk with
          | refl => exact .literal a (ih hrest)
          | one => exact .one a (ih hrest)
  | one a h ih =>
      cases hpq with
      | cons hk hrest =>
          cases hk
          exact .one a (ih hrest)
  | skip h ih =>
      cases hpq with
      | cons hk hrest =>
          cases hk
          exact .skip (ih hrest)
  | take a h ih =>
      cases hpq with
      | cons hk hrest =>
          cases hk
          exact .take a (ih (.cons (.refl _) hrest))

/-! ## Patterns with one wildcard -/

/-- The words after the first, each after a wildcard. -/
def gaps (words : List (List α)) : List (Token α) :=
  words.flatMap fun w => .many :: w.map .literal

@[simp] theorem gaps_nil : gaps ([] : List (List α)) = [] := rfl

theorem gaps_cons (w : List α) (words : List (List α)) :
    gaps (w :: words) = .many :: (w.map .literal ++ gaps words) := rfl

section Star

variable [DecidableEq α]

/-- The pattern of a text in which only `star` is a wildcard. -/
def starTokens (star : α) (text : List α) : List (Token α) :=
  text.map fun a => if a = star then .many else .literal a

/-- The pattern of a text by its parts between the wildcards. -/
theorem starTokens_of_splitOn {star : α} {text word : List α} {words : List (List α)}
    (h : text.splitOn star = word :: words) :
    starTokens star text = word.map .literal ++ gaps words := by
  induction text generalizing word words with
  | nil =>
      rw [List.splitOn_nil] at h
      cases h
      rfl
  | cons a text ih =>
      obtain ⟨w, ws, hw⟩ := List.exists_cons_of_ne_nil (List.splitOn_ne_nil star text)
      rw [List.splitOn_cons_eq_if_modifyHead, hw] at h
      have htail := ih hw
      by_cases ha : a = star
      · rw [if_pos (by simpa using ha)] at h
        cases h
        simpa [starTokens, gaps, ha] using htail
      · rw [if_neg (by simpa using ha)] at h
        cases h
        simpa [starTokens, ha] using htail

theorem starTokens_append (star : α) (l m : List α) :
    starTokens star (l ++ m) = starTokens star l ++ starTokens star m :=
  List.map_append

/-- A text without the wildcard stands for itself. -/
theorem starTokens_eq_literals {star : α} {text : List α} (h : star ∉ text) :
    starTokens star text = text.map .literal := by
  apply List.map_congr_left
  intro a ha
  have hne : a ≠ star := by
    intro heq
    subst heq
    exact h ha
  exact if_neg hne

theorem many_mem_starTokens {star : α} {text : List α} (h : star ∈ text) :
    .many ∈ starTokens star text :=
  List.mem_map.mpr ⟨star, h, if_pos rfl⟩

end Star

/-! ## Codes -/

/-- A code whose words are told apart by their first unit and of which none begins
another. -/
structure SelfSynchronizing (encode : α → List β) (leads : β → Prop) : Prop where
  /-- A word begins with a leading unit and has no other. -/
  word : ∀ a, ∃ b bs, encode a = b :: bs ∧ leads b ∧ ∀ x ∈ bs, ¬ leads x
  prefixFree : ∀ {a b}, encode a <+: encode b → a = b

namespace SelfSynchronizing

variable {encode : α → List β} {leads : β → Prop}

/-- The first letter of a coded text. -/
theorem head_eq (hcode : SelfSynchronizing encode leads) {a : α} {rest : List β}
    {text : List α} (h : encode a ++ rest = text.flatMap encode) :
    ∃ text', text = a :: text' ∧ rest = text'.flatMap encode := by
  cases text with
  | nil =>
      obtain ⟨b, bs, hb, -, -⟩ := hcode.word a
      rw [hb] at h
      cases h
  | cons c text =>
      rw [List.flatMap_cons] at h
      have hca : a = c := by
        obtain hac | hca := List.prefix_or_prefix_of_prefix
          (List.prefix_append (encode a) rest)
          (h ▸ List.prefix_append (encode c) (text.flatMap encode))
        · exact hcode.prefixFree hac
        · exact (hcode.prefixFree hca).symm
      subst hca
      exact ⟨text, rfl, List.append_cancel_left h⟩

/-- A leading unit is where a letter starts. -/
theorem split_eq (hcode : SelfSynchronizing encode leads) {text : List α} {x : List β}
    {b : β} {rest : List β} (h : text.flatMap encode = x ++ b :: rest) (hb : leads b) :
    ∃ before after, text = before ++ after ∧ x = before.flatMap encode ∧
      b :: rest = after.flatMap encode := by
  induction text generalizing x with
  | nil => cases x <;> cases h
  | cons a text ih =>
      cases x with
      | nil => exact ⟨[], a :: text, rfl, rfl, h.symm⟩
      | cons y x =>
          obtain ⟨c, cs, hc, -, hcs⟩ := hcode.word a
          have h' : cs ++ text.flatMap encode = x ++ b :: rest := by
            rw [List.flatMap_cons, hc] at h
            exact (List.cons.inj h).2
          have hyc : y = c := by
            rw [List.flatMap_cons, hc] at h
            exact (List.cons.inj h).1.symm
          obtain ⟨x', hx, hrest⟩ | ⟨cs', hcs', hrest⟩ := List.append_eq_append_iff.mp h'
          · obtain ⟨before, after, ht, hbefore, hafter⟩ := ih hrest
            refine ⟨a :: before, after, by rw [ht, List.cons_append], ?_, hafter⟩
            rw [List.flatMap_cons, hc, hyc, hx, hbefore, List.cons_append]
          · -- the leading unit would stand inside the word of `a`
            cases cs' with
            | nil =>
                obtain ⟨before, after, ht, hbefore, hafter⟩ :=
                  ih (x := []) (by simpa using hrest.symm)
                refine ⟨a :: before, after, by rw [ht, List.cons_append], ?_, hafter⟩
                rw [List.flatMap_cons, hc, hyc, ← hbefore, List.append_nil, hcs',
                  List.append_nil]
            | cons d cs' =>
                have hd : b = d := (List.cons.inj hrest).1
                exact absurd hb (hcs b (by rw [hcs', hd]; simp))

end SelfSynchronizing

/-- The pattern of a coded pattern: each letter becomes the units of its word. -/
def encodeTokens (encode : α → List β) (p : List (Token α)) : List (Token β) :=
  p.flatMap fun
    | .literal a => (encode a).map .literal
    | .one => [.one]
    | .many => [.many]

@[simp] theorem encodeTokens_nil (encode : α → List β) : encodeTokens encode [] = [] := rfl

theorem encodeTokens_literal (encode : α → List β) (a : α) (p : List (Token α)) :
    encodeTokens encode (.literal a :: p) =
      (encode a).map .literal ++ encodeTokens encode p := by
  simp [encodeTokens]

theorem encodeTokens_many (encode : α → List β) (p : List (Token α)) :
    encodeTokens encode (.many :: p) = .many :: encodeTokens encode p := by
  simp [encodeTokens]

/-- A match on the letters is a match on the codes, for a pattern without `one`. -/
theorem Matches.encode {p : List (Token α)} {text : List α} (encode : α → List β)
    (hone : .one ∉ p) (h : Matches p text) :
    Matches (encodeTokens encode p) (text.flatMap encode) := by
  induction h with
  | nil => exact .nil
  | literal a h ih =>
      rw [encodeTokens_literal, List.flatMap_cons]
      exact (ih (List.not_mem_of_not_mem_cons hone)).literals_append (encode a)
  | one => simp at hone
  | skip h ih =>
      rw [encodeTokens_many]
      exact .skip (ih (List.not_mem_of_not_mem_cons hone))
  | take a h ih =>
      have hrest := ih hone
      rw [encodeTokens_many] at hrest ⊢
      rw [List.flatMap_cons]
      exact hrest.many_append_many (encode a)

/-- A match on the codes is a match on the letters, for a pattern without `one`. -/
theorem Matches.decode {encode : α → List β} {leads : β → Prop}
    (hcode : SelfSynchronizing encode leads) {p : List (Token α)} (hone : .one ∉ p)
    {text : List α} (h : Matches (encodeTokens encode p) (text.flatMap encode)) :
    Matches p text := by
  induction p generalizing text with
  | nil =>
      rw [encodeTokens_nil, matches_nil_iff] at h
      cases text with
      | nil => exact .nil
      | cons a text =>
          obtain ⟨b, bs, hb, -, -⟩ := hcode.word a
          rw [List.flatMap_cons, hb] at h
          cases h
  | cons k p ih =>
      have hp : .one ∉ p := List.not_mem_of_not_mem_cons hone
      cases k with
      | one => simp at hone
      | literal a =>
          rw [encodeTokens_literal] at h
          obtain ⟨rest, hrest, hm⟩ := matches_literals_append_iff.mp h
          obtain ⟨text', rfl, htext⟩ := hcode.head_eq hrest.symm
          exact .literal a (ih hp (htext ▸ hm))
      | many =>
          rw [encodeTokens_many] at h
          obtain ⟨x, rest, hrest, hm⟩ := matches_many_iff.mp h
          cases p with
          | nil =>
              exact matches_many_iff.mpr ⟨text, [], (List.append_nil _).symm, .nil⟩
          | cons k' p =>
              cases k' with
              | one => simp at hp
              | many =>
                  -- two wildcards in a row are one
                  rw [encodeTokens_many] at hm ih
                  exact .skip (ih hp (hrest ▸ hm.many_append_many x))
              | literal a =>
                  -- the word of `a` starts where a letter of the text starts
                  obtain ⟨b, bs, hb, hleads, -⟩ := hcode.word a
                  rw [encodeTokens_literal] at hm ih
                  obtain ⟨rest', rfl, -⟩ := matches_literals_append_iff.mp hm
                  rw [hb, List.cons_append] at hrest
                  obtain ⟨before, after, rfl, -, hafter⟩ := hcode.split_eq hrest hleads
                  rw [← List.cons_append, ← hb] at hafter
                  exact (ih hp (hafter ▸ hm)).many_append before

end MissionOs.Lib.Glob
