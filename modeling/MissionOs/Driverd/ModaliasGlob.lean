import Mathlib.Data.List.Infix
import MissionOs.Driverd.Matching
import MissionOs.Lib.Glob

/-!
# Modalias patterns as globs

The comment of `modalias_pattern_match` gives the meaning of a pattern: `*` stands for
any sequence of characters, `?` for any one character and every other character for
itself.  Against this language the matcher is sound for a pattern with a `*`
(`inGlob_of_match`): its loop uses up the text between the wildcards in order, and the
bytes of a part can only be found where a character starts.

A pattern without `*` has one part, which is first and last at once, and only the test of
a first part is made for it: the pattern also matches every longer text that begins with
it (`modaliasPatternMatch_sound_iff`).

In the other direction nothing is lost (`modaliasPatternMatch_complete`): a part is placed
where it first stands, so no way of placing the parts uses up less of the text.
-/

namespace MissionOs.Driverd

open MissionOs.Rust
open MissionOs.Lib.Glob

/-- The tokens of a pattern, by the comment of `modalias_pattern_match`. -/
def globToken (c : Char) : Token Char :=
  if c = '*' then .many else if c = '?' then .one else .literal c

/-- Whether a modalias is in the language that the comment gives to a pattern. -/
def InGlob (pattern modalias : String) : Prop :=
  Matches (pattern.toList.map globToken) modalias.toList

/-! ## The loop -/

section Segments

variable {α : Type} [BEq α] [LawfulBEq α]

theorem findSubslice_spec {haystack needle : List α} {n : Nat}
    (h : findSubslice haystack needle = some n) :
    ∃ x y, haystack = x ++ (needle ++ y) ∧ x.length = n := by
  rw [findSubslice] at h
  split at h
  · rename_i hempty
    cases h
    exact ⟨[], haystack, by simp [List.isEmpty_iff.mp hempty], rfl⟩
  · obtain ⟨hlt, hpre, -⟩ := List.findIdx?_eq_some_iff_getElem.mp h
    rw [List.getElem_tails] at hpre
    obtain ⟨y, hy⟩ := List.isPrefixOf_iff_prefix.mp hpre
    refine ⟨haystack.take n, y, ?_, ?_⟩
    · rw [hy, List.take_append_drop]
    · rw [List.length_tails] at hlt
      rw [List.length_take]
      omega

/-- The parts after the first, each after a wildcard, and the text that is left. -/
theorem matches_of_matchSegments {count : Nat} {text : List α} {i pos : Nat}
    {segments : List (List α)} (hi : 0 < i) (hne : segments ≠ [])
    (hcount : i + segments.length = count)
    (h : matchSegments count text i pos segments = true) :
    Matches (gaps segments) (text.drop pos) := by
  induction segments generalizing i pos with
  | nil => exact absurd rfl hne
  | cons segment rest ih =>
      have hcount' : i + 1 + rest.length = count := by
        rw [List.length_cons] at hcount
        omega
      have hfirst : ¬i = 0 := by omega
      rw [gaps_cons]
      rw [matchSegments] at h
      by_cases hempty : segment.isEmpty = true
      · -- nothing is looked for between two wildcards
        rw [if_pos hempty] at h
        rw [List.isEmpty_iff.mp hempty]
        cases rest with
        | nil => exact matches_many_iff.mpr ⟨text.drop pos, [], by simp, .nil⟩
        | cons next rest => exact .skip (ih (by omega) (by simp) hcount' h)
      · rw [if_neg hempty, if_neg hfirst] at h
        by_cases hlast : i = count - 1
        · -- the last part ends the text
          have hrest : rest = [] := List.length_eq_zero_iff.mp (by omega)
          subst hrest
          rw [if_pos hlast, Bool.and_eq_true, Bool.and_eq_true] at h
          obtain ⟨before, hbefore⟩ := List.isSuffixOf_iff_suffix.mp h.1.1
          have hroom : pos ≤ before.length := by
            have hstart := h.1.2
            rw [← hbefore, List.length_append] at hstart
            simpa using hstart
          have hdrop : text.drop pos = before.drop pos ++ (segment ++ []) := by
            rw [← hbefore, List.drop_append_of_le_length hroom, List.append_nil]
          rw [hdrop]
          exact (Matches.nil.literals_append segment).many_append _
        · -- a part in the middle is found in the text that is left
          rw [if_neg hlast] at h
          cases hfound : findSubslice (text.drop pos) segment with
          | none => simp [hfound] at h
          | some n =>
              simp only [hfound] at h
              obtain ⟨x, y, hxy, hlen⟩ := findSubslice_spec hfound
              have hrest : rest ≠ [] := by
                intro heq
                subst heq
                simp only [List.length_nil] at hcount'
                omega
              have hleft : text.drop (pos + (n + segment.length)) = y := by
                rw [← List.drop_drop, hxy, ← List.append_assoc]
                exact List.drop_left' (by rw [List.length_append, hlen])
              have hmatch := ih (by omega) hrest hcount' h
              rw [hleft] at hmatch
              rw [hxy]
              exact (hmatch.literals_append segment).many_append x

/-- The whole loop, for a pattern with more than one part. -/
theorem matches_of_matchSegments_cons {text segment : List α} {rest : List (List α)}
    (hne : rest ≠ [])
    (h : matchSegments (segment :: rest).length text 0 0 (segment :: rest) = true) :
    Matches (segment.map .literal ++ gaps rest) text := by
  have hcount : 0 + 1 + rest.length = (segment :: rest).length := by
    rw [List.length_cons]
    omega
  rw [matchSegments] at h
  by_cases hempty : segment.isEmpty = true
  · rw [if_pos hempty] at h
    rw [List.isEmpty_iff.mp hempty]
    exact matches_of_matchSegments (by omega) hne hcount h
  · rw [if_neg hempty, if_pos rfl, Bool.and_eq_true] at h
    obtain ⟨y, rfl⟩ := List.isPrefixOf_iff_prefix.mp h.1
    have hmatch := matches_of_matchSegments (by omega) hne hcount h.2
    rw [List.drop_left] at hmatch
    exact hmatch.literals_append segment

end Segments

/-! ## From bytes to characters -/

theorem utf8_eq_flatMap (s : String) : utf8 s = s.toList.flatMap String.utf8EncodeChar := by
  rw [utf8, String.toUTF8_eq_toByteArray, ← String.utf8Encode_toList, List.utf8Encode]
  simp

/-- Where a character starts is seen from its first byte. -/
theorem utf8_selfSynchronizing :
    SelfSynchronizing String.utf8EncodeChar UInt8.IsUTF8FirstByte where
  word c := by
    obtain ⟨b, bs, hb⟩ := List.exists_cons_of_ne_nil (String.utf8EncodeChar_ne_nil (c := c))
    refine ⟨b, bs, hb, ?_, ?_⟩
    · have h := UInt8.isUTF8FirstByte_getElem_zero_utf8EncodeChar (c := c)
      simpa [hb] using h
    · intro x hx hlead
      obtain ⟨i, hi, rfl⟩ := List.mem_iff_getElem.mp hx
      have hi' : i + 1 < (String.utf8EncodeChar c).length := by
        rw [hb]
        simpa using hi
      have h : (String.utf8EncodeChar c)[i + 1].IsUTF8FirstByte ↔ i + 1 = 0 :=
        UInt8.isUTF8FirstByte_getElem_utf8EncodeChar
      simp [hb, hlead] at h
  prefixFree {a b} h := by
    obtain ⟨bs, hbs⟩ := h
    have hpre : [a] <+: [b] := by
      apply List.isPrefix_of_utf8Encode_append_eq_utf8Encode bs.toByteArray
      rw [List.utf8Encode_singleton, List.utf8Encode_singleton, ← hbs]
      simp
    simpa using hpre

/-- The byte of the wildcard stands in no other character. -/
theorem star_not_mem_utf8EncodeChar {c : Char} (hc : c ≠ '*') :
    '*'.toUInt8 ∉ String.utf8EncodeChar c := by
  intro hmem
  obtain ⟨b, bs, hb, -, hbs⟩ := utf8_selfSynchronizing.word c
  rw [hb, List.mem_cons] at hmem
  rcases hmem with hhead | htail
  · apply hc
    refine (utf8_selfSynchronizing.prefixFree (a := '*') ?_).symm
    rw [hb, ← hhead]
    exact ⟨bs, rfl⟩
  · exact hbs _ htail (by decide)

/-- The wildcards of a pattern are where its bytes have them. -/
theorem starTokens_utf8 (s : String) :
    starTokens '*'.toUInt8 (utf8 s) =
      encodeTokens String.utf8EncodeChar (starTokens '*' s.toList) := by
  rw [utf8_eq_flatMap]
  induction s.toList with
  | nil => rfl
  | cons c cs ih =>
      rw [List.flatMap_cons, starTokens_append, ih]
      by_cases hc : c = '*'
      · subst hc
        exact (encodeTokens_many _ _).symm
      · rw [starTokens_eq_literals (star_not_mem_utf8EncodeChar hc)]
        have hhead : starTokens '*' (c :: cs) = .literal c :: starTokens '*' cs := by
          simp [starTokens, hc]
        rw [hhead, encodeTokens_literal]

/-! ## Soundness -/

/-- The comment's pattern allows what the matcher's reading of the pattern allows: a `?`
stands for itself there. -/
theorem starTokens_within (p : List Char) :
    List.Forall₂ Token.Within (starTokens '*' p) (p.map globToken) := by
  rw [starTokens, List.forall₂_map_left_iff, List.forall₂_map_right_iff, List.forall₂_same]
  intro c _
  rw [globToken]
  by_cases hstar : c = '*'
  · rw [if_pos hstar, if_pos hstar]
    exact .refl _
  · rw [if_neg hstar, if_neg hstar]
    split
    · exact .one c
    · exact .refl _

theorem one_not_mem_starTokens (p : List Char) : .one ∉ starTokens '*' p := by
  intro hmem
  obtain ⟨c, -, hc⟩ := List.mem_map.mp hmem
  split at hc <;> cases hc

theorem star_mem_utf8_iff (s : String) : '*'.toUInt8 ∈ utf8 s ↔ '*' ∈ s.toList := by
  rw [utf8_eq_flatMap, List.mem_flatMap]
  constructor
  · intro h
    obtain ⟨c, hc, hmem⟩ := h
    by_contra hstar
    refine star_not_mem_utf8EncodeChar ?_ hmem
    intro heq
    subst heq
    exact hstar hc
  · intro hstar
    exact ⟨'*', hstar, by decide⟩

/-- A pattern with a wildcard has more than one part. -/
theorem rest_ne_nil_of_star {text segment : Bytes} {rest : List Bytes}
    (hstar : '*'.toUInt8 ∈ text) (hsplit : text.splitOn '*'.toUInt8 = segment :: rest) :
    rest ≠ [] := by
  intro heq
  subst heq
  have hmany := many_mem_starTokens hstar
  rw [starTokens_of_splitOn hsplit] at hmany
  simp at hmany

theorem matches_bytes_of_match {pattern modalias : String} (hstar : '*' ∈ pattern.toList)
    (h : modaliasPatternMatch pattern modalias = true) :
    Matches (starTokens '*'.toUInt8 (utf8 pattern)) (utf8 modalias) := by
  obtain ⟨segment, rest, hsplit⟩ :=
    List.exists_cons_of_ne_nil (List.splitOn_ne_nil '*'.toUInt8 (utf8 pattern))
  have hrest : rest ≠ [] := rest_ne_nil_of_star ((star_mem_utf8_iff pattern).mpr hstar) hsplit
  by_cases hall : pattern = "*"
  · subst hall
    exact matches_many_iff.mpr ⟨utf8 modalias, [], (List.append_nil _).symm, .nil⟩
  · rw [modaliasPatternMatch, if_neg hall, hsplit, if_neg (by simp [hrest])] at h
    rw [starTokens_of_splitOn hsplit]
    exact matches_of_matchSegments_cons hrest h

/-- A pattern with a wildcard matches only what is in its language. -/
theorem inGlob_of_match {pattern modalias : String} (hstar : '*' ∈ pattern.toList)
    (h : modaliasPatternMatch pattern modalias = true) : InGlob pattern modalias := by
  have hmatch := matches_bytes_of_match hstar h
  rw [starTokens_utf8, utf8_eq_flatMap] at hmatch
  have hchars := hmatch.decode utf8_selfSynchronizing (one_not_mem_starTokens _)
  exact hchars.within (starTokens_within _)

/-! ## Patterns without a wildcard -/

theorem utf8_isPrefix_iff (s t : String) : utf8 s <+: utf8 t ↔ s.toList <+: t.toList := by
  rw [utf8_eq_flatMap, utf8_eq_flatMap]
  constructor
  · intro h
    obtain ⟨rest, hrest⟩ := h
    apply List.isPrefix_of_utf8Encode_append_eq_utf8Encode rest.toByteArray
    rw [List.utf8Encode, List.utf8Encode, ← hrest]
    simp
  · intro h
    obtain ⟨rest, hrest⟩ := h
    rw [← hrest, List.flatMap_append]
    exact List.prefix_append _ _

/-- The only part of a pattern without `*` is looked for at the start. -/
theorem match_iff_isPrefix {pattern modalias : String} (hstar : '*' ∉ pattern.toList)
    (hne : pattern ≠ "") :
    modaliasPatternMatch pattern modalias = true ↔ pattern.toList <+: modalias.toList := by
  have hall : pattern ≠ "*" := by
    intro heq
    subst heq
    exact hstar (by decide)
  have hsplit : (utf8 pattern).splitOn '*'.toUInt8 = [utf8 pattern] :=
    List.splitOn_eq_singleton (mt (star_mem_utf8_iff pattern).mp hstar)
  have hbytes : utf8 pattern ≠ [] := by
    intro hnil
    have hpre : utf8 pattern <+: utf8 "" := hnil ▸ List.nil_prefix
    rw [utf8_isPrefix_iff] at hpre
    exact hne (String.toList_eq_nil_iff.mp (List.prefix_nil.mp hpre))
  rw [modaliasPatternMatch, if_neg hall, hsplit, if_neg (by simpa using hbytes),
    ← utf8_isPrefix_iff, ← List.isPrefixOf_iff_prefix]
  rw [matchSegments, if_neg (by simpa using hbytes), if_pos rfl, matchSegments,
    Bool.and_true]

theorem globToken_ne_many {c : Char} (hc : c ≠ '*') : globToken c ≠ .many := by
  rw [globToken, if_neg hc]
  split <;> simp

/-- The language of a pattern without `*` has texts of the pattern's length only. -/
theorem InGlob.length_eq {pattern modalias : String} (h : InGlob pattern modalias)
    (hstar : '*' ∉ pattern.toList) : modalias.toList.length = pattern.toList.length := by
  have hmany : .many ∉ pattern.toList.map globToken := by
    intro hmem
    obtain ⟨c, hc, hk⟩ := List.mem_map.mp hmem
    refine globToken_ne_many ?_ hk
    intro heq
    subst heq
    exact hstar hc
  rw [Matches.length_eq h hmany, List.length_map]

/-- Every character but `*` stands for itself. -/
theorem inGlob_self {pattern : String} (hstar : '*' ∉ pattern.toList) :
    InGlob pattern pattern := by
  have hself : Matches (starTokens '*' pattern.toList) pattern.toList := by
    rw [starTokens_eq_literals hstar]
    simpa using Matches.nil.literals_append pattern.toList
  exact hself.within (starTokens_within _)

/-- The matcher is sound for a pattern and a modalias unless the pattern has no `*`, is
not empty and begins the modalias without being all of it. -/
theorem modaliasPatternMatch_sound_iff (pattern modalias : String) :
    (modaliasPatternMatch pattern modalias = true → InGlob pattern modalias) ↔
      '*' ∈ pattern.toList ∨ pattern = "" ∨ modalias = pattern ∨
        ¬pattern.toList <+: modalias.toList := by
  constructor
  · intro hsound
    by_contra hfails
    simp only [not_or, not_not] at hfails
    obtain ⟨hstar, hne, hdiff, hpre⟩ := hfails
    have hglob := hsound ((match_iff_isPrefix hstar hne).mpr hpre)
    have hlen := (hglob.length_eq hstar).symm
    exact hdiff (String.toList_inj.mp (hpre.eq_of_length hlen).symm)
  · intro hholds hmatch
    by_cases hstar : '*' ∈ pattern.toList
    · exact inGlob_of_match hstar hmatch
    · by_cases hne : pattern = ""
      · -- the empty pattern is compared with the whole text
        subst hne
        have hempty : modalias = "" := by
          simpa [modaliasPatternMatch, utf8] using hmatch
        subst hempty
        exact .nil
      · have hpre := (match_iff_isPrefix hstar hne).mp hmatch
        have heq : modalias = pattern := by
          simpa [hstar, hne, hpre] using hholds
        rw [heq]
        exact inGlob_self hstar

/-- A pattern without wildcards matches a modalias that only begins with it. -/
theorem prefix_pattern_unsound :
    ¬∀ pattern modalias, modaliasPatternMatch pattern modalias = true →
      InGlob pattern modalias := by
  intro h
  have hglob := h "pci:v00008086" "pci:v00008086d000010D3" (by decide)
  exact absurd (hglob.length_eq (by decide)) (by decide)

/-! ## Completeness -/

section Segments

variable {α : Type} [BEq α] [LawfulBEq α]

/-- The first place of a part is not after any other of its places. -/
theorem findSubslice_le (needle x y : List α) :
    ∃ n, n ≤ x.length ∧ findSubslice (x ++ (needle ++ y)) needle = some n := by
  rw [findSubslice]
  split
  · exact ⟨0, Nat.zero_le _, rfl⟩
  · have hlt : x.length < (x ++ (needle ++ y)).tails.length := by
      rw [List.length_tails, List.length_append]
      omega
    have hfound : (needle.isPrefixOf ((x ++ (needle ++ y)).tails[x.length])) = true := by
      rw [List.getElem_tails, List.drop_left, List.isPrefixOf_iff_prefix]
      exact List.prefix_append _ _
    cases hfind : (x ++ (needle ++ y)).tails.findIdx? (needle.isPrefixOf ·) with
    | none =>
        have hnone := List.findIdx?_eq_none_iff.mp hfind _ (List.getElem_mem hlt)
        rw [hfound] at hnone
        cases hnone
    | some n =>
        obtain ⟨hn, -, hbefore⟩ := List.findIdx?_eq_some_iff_getElem.mp hfind
        refine ⟨n, ?_, rfl⟩
        by_contra hlate
        exact hbefore x.length (by omega) hfound

/-- The loop finds every match: it has used up no more of the text than any way of placing
the parts, so a way of placing the rest stays open. -/
theorem matchSegments_of_matches {count : Nat} {text : List α} {i pos used : Nat}
    {segments : List (List α)} (hi : 0 < i) (hcount : i + segments.length = count)
    (hpos : pos ≤ used) (hused : used ≤ text.length)
    (h : Matches (gaps segments) (text.drop used)) :
    matchSegments count text i pos segments = true := by
  induction segments generalizing i pos used with
  | nil => rfl
  | cons segment rest ih =>
      have hcount' : i + 1 + rest.length = count := by
        rw [List.length_cons] at hcount
        omega
      rw [gaps_cons] at h
      obtain ⟨x, t, hx, ht⟩ := matches_many_iff.mp h
      obtain ⟨y, rfl, hy⟩ := matches_literals_append_iff.mp ht
      -- where this way of placing the part leaves the rest of the text
      have hlen : text.length = used + x.length + segment.length + y.length := by
        have hlength := congrArg List.length hx
        simp only [List.length_drop, List.length_append] at hlength
        omega
      have hleft : text.drop (used + x.length + segment.length) = y := by
        rw [Nat.add_assoc, ← List.drop_drop, hx, ← List.append_assoc]
        exact List.drop_left' (List.length_append)
      rw [← hleft] at hy
      rw [matchSegments]
      by_cases hempty : segment.isEmpty = true
      · rw [if_pos hempty]
        exact ih (by omega) hcount' (by omega) (by omega) hy
      · rw [if_neg hempty, if_neg (by omega)]
        by_cases hlast : i = count - 1
        · -- the last part ends the text, after what is used up
          have hrest : rest = [] := List.length_eq_zero_iff.mp (by omega)
          subst hrest
          have hend : y = [] := by
            rw [hleft, gaps_nil, matches_nil_iff] at hy
            exact hy
          subst hend
          have hsuffix : segment <:+ text := by
            rw [List.append_nil] at hx
            exact ((List.suffix_append x segment).trans (hx ▸ List.suffix_rfl)).trans
              (List.drop_suffix used text)
          rw [List.length_nil] at hlen
          rw [if_pos hlast, List.isSuffixOf_iff_suffix.mpr hsuffix, matchSegments]
          simp only [Bool.true_and, Bool.and_true, Bool.not_eq_true', decide_eq_false_iff_not]
          omega
        · -- a part in the middle is found here or before
          have hremaining : text.drop pos = (text.drop pos).take (used - pos) ++ x ++
              (segment ++ y) := by
            rw [List.append_assoc, ← hx]
            have hdrop : text.drop used = (text.drop pos).drop (used - pos) := by
              rw [List.drop_drop]
              congr 1
              omega
            rw [hdrop, List.take_append_drop]
          obtain ⟨n, hn, hfound⟩ :=
            findSubslice_le segment ((text.drop pos).take (used - pos) ++ x) y
          rw [← hremaining] at hfound
          rw [List.length_append, List.length_take, List.length_drop] at hn
          rw [if_neg hlast, hfound]
          exact ih (by omega) hcount' (by omega) (by omega) hy

theorem matchSegments_of_matches_cons {text segment : List α} {rest : List (List α)}
    (h : Matches (segment.map .literal ++ gaps rest) text) :
    matchSegments (segment :: rest).length text 0 0 (segment :: rest) = true := by
  have hcount : 0 + 1 + rest.length = (segment :: rest).length := by
    rw [List.length_cons]
    omega
  obtain ⟨y, rfl, hy⟩ := matches_literals_append_iff.mp h
  rw [matchSegments]
  by_cases hempty : segment.isEmpty = true
  · rw [if_pos hempty]
    rw [List.isEmpty_iff.mp hempty] at hcount ⊢
    exact matchSegments_of_matches (by omega) hcount (Nat.le_refl 0) (by omega) hy
  · rw [if_neg hempty, if_pos rfl, Bool.and_eq_true]
    refine ⟨List.isPrefixOf_iff_prefix.mpr (List.prefix_append _ _), ?_⟩
    refine matchSegments_of_matches (by omega) hcount (Nat.le_refl segment.length) ?_ ?_
    · rw [List.length_append]
      omega
    · rwa [List.drop_left]

end Segments

/-- A pattern without `?` is read by its comment as by the matcher. -/
theorem globToken_eq_starTokens {p : List Char} (h : '?' ∉ p) :
    p.map globToken = starTokens '*' p := by
  apply List.map_congr_left
  intro c hc
  have hne : c ≠ '?' := by
    intro heq
    subst heq
    exact h hc
  rw [globToken, if_neg hne]

/-- What is in the language of a pattern without `?` is matched. -/
theorem match_of_inGlob {pattern modalias : String} (hone : '?' ∉ pattern.toList)
    (h : InGlob pattern modalias) : modaliasPatternMatch pattern modalias = true := by
  rw [InGlob, globToken_eq_starTokens hone] at h
  have hbytes := h.encode String.utf8EncodeChar (one_not_mem_starTokens _)
  rw [← starTokens_utf8, ← utf8_eq_flatMap] at hbytes
  obtain ⟨segment, rest, hsplit⟩ :=
    List.exists_cons_of_ne_nil (List.splitOn_ne_nil '*'.toUInt8 (utf8 pattern))
  rw [starTokens_of_splitOn hsplit] at hbytes
  rw [modaliasPatternMatch, hsplit]
  dsimp only
  split_ifs with hall hnil
  · rfl
  · -- the empty pattern
    cases hnil
    have hempty : utf8 modalias = [] := matches_nil_iff.mp hbytes
    have hpre : utf8 modalias <+: utf8 "" := hempty ▸ List.nil_prefix
    rw [utf8_isPrefix_iff] at hpre
    rw [String.toList_eq_nil_iff.mp (List.prefix_nil.mp hpre)]
    rfl
  · exact matchSegments_of_matches_cons hbytes

/-! ## Slices -/

section Segments

variable {α : Type} [BEq α] [LawfulBEq α]

/-- `&text[pos..]`, or nothing if it is out of range. -/
def sliceFrom (text : List α) (pos : Nat) : Option (List α) :=
  if pos ≤ text.length then some (text.drop pos) else none

/-- A difference of two lengths, or nothing if it is below zero. -/
def lengthSub (a b : Nat) : Option Nat := if b ≤ a then some (a - b) else none

/-- The loop of `modalias_pattern_match` with its slices and its subtraction checked. -/
def checkedSegments (count : Nat) (text : List α) : Nat → Nat → List (List α) → Option Bool
  | _, _, [] => some true
  | i, pos, segment :: rest =>
      if segment.isEmpty then
        checkedSegments count text (i + 1) pos rest
      else if i = 0 then
        if segment.isPrefixOf text then checkedSegments count text (i + 1) segment.length rest
        else some false
      else if i = count - 1 then
        if !segment.isSuffixOf text then some false
        else if text.length < segment.length then some false
        else do
          let start ← lengthSub text.length segment.length
          if start < pos then some false else checkedSegments count text (i + 1) pos rest
      else do
        let remaining ← sliceFrom text pos
        match findSubslice remaining segment with
        | some found => checkedSegments count text (i + 1) (pos + (found + segment.length)) rest
        | none => some false

/-- The loop never uses up more than the text, so every slice is in range. -/
theorem checkedSegments_eq {count : Nat} {text : List α} {i pos : Nat}
    {segments : List (List α)} (hpos : pos ≤ text.length) :
    checkedSegments count text i pos segments =
      some (matchSegments count text i pos segments) := by
  induction segments generalizing i pos with
  | nil => rfl
  | cons segment rest ih =>
      rw [checkedSegments, matchSegments]
      by_cases hempty : segment.isEmpty = true
      · rw [if_pos hempty, if_pos hempty, ih hpos]
      · rw [if_neg hempty, if_neg hempty]
        by_cases hfirst : i = 0
        · rw [if_pos hfirst, if_pos hfirst]
          cases hinitial : segment.isPrefixOf text with
          | false => rfl
          | true =>
              rw [if_pos rfl, Bool.true_and]
              exact ih (List.isPrefixOf_iff_prefix.mp hinitial).length_le
        · rw [if_neg hfirst, if_neg hfirst]
          by_cases hlast : i = count - 1
          · rw [if_pos hlast, if_pos hlast]
            cases hsuffix : segment.isSuffixOf text with
            | false => rfl
            | true =>
                have hle := (List.isSuffixOf_iff_suffix.mp hsuffix).length_le
                rw [Bool.not_true, if_neg Bool.false_ne_true, if_neg (by omega), lengthSub,
                  if_pos hle]
                by_cases hstart : text.length - segment.length < pos
                · simp [hstart]
                · simp [hstart, ih hpos]
          · rw [if_neg hlast, if_neg hlast, sliceFrom, if_pos hpos]
            cases hfound : findSubslice (text.drop pos) segment with
            | none => simp [hfound]
            | some n =>
                obtain ⟨x, y, hxy, hlen⟩ := findSubslice_spec hfound
                have hlength := congrArg List.length hxy
                simp only [List.length_drop, List.length_append] at hlength
                simp only [Option.bind_eq_bind, Option.bind_some, hfound]
                exact ih (by omega)

end Segments

/-- `modalias_pattern_match` with its slices checked. -/
def checkedPatternMatch (pattern modalias : String) : Option Bool :=
  if pattern = "*" then some true
  else
    let segments := (utf8 pattern).splitOn '*'.toUInt8
    if segments = [[]] then some modalias.isEmpty
    else checkedSegments segments.length (utf8 modalias) 0 0 segments

/-- The matcher finds every modalias in the language of a pattern without `?`, and on no
pattern and modalias a slice of it is out of range. -/
theorem modaliasPatternMatch_complete (pattern modalias : String) :
    ('?' ∉ pattern.toList → InGlob pattern modalias →
      modaliasPatternMatch pattern modalias = true) ∧
    checkedPatternMatch pattern modalias = some (modaliasPatternMatch pattern modalias) := by
  constructor
  · exact match_of_inGlob
  · rw [checkedPatternMatch, modaliasPatternMatch]
    dsimp only
    split_ifs
    · rfl
    · rfl
    · exact checkedSegments_eq (Nat.zero_le _)

end MissionOs.Driverd
