import MissionOs.Rust.Cut
import MissionOs.Rust.Decimal

/-!
# Words and lines

Texts that are put together of words with a blank between them, or of lines with a line feed
after each, and taken apart again by `str::split_whitespace` and `str::lines`.
-/

namespace MissionOs.Rust

/-! ## Words -/

/-- A word: not empty, and without white space. -/
structure IsWord (s : List Char) : Prop where
  ne_nil : s ≠ []
  not_space : ∀ c ∈ s, isWhitespace c = false

theorem isWord_of_all {s : List Char} (hne : s ≠ [])
    (h : (s.all fun c => !isWhitespace c) = true) : IsWord s :=
  ⟨hne, fun c hc => by simpa using List.all_eq_true.mp h c hc⟩

theorem isWord_of_isDecimal {s : List Char} (h : IsDecimal s) : IsWord s :=
  ⟨h.1, fun c hc => isWhitespace_of_isDigit (h.2 c hc)⟩

/-- A part that is not empty is kept. -/
theorem splitWhitespace_append_cons {word : List Char} (hword : IsWord word)
    (rest : List Char) :
    splitWhitespace (word ++ ' ' :: rest) = word :: splitWhitespace rest := by
  have hkeep : word.isEmpty = false := by simpa using hword.ne_nil
  rw [splitWhitespace, List.splitOnP_append_cons_of_forall_mem hword.not_space ' ' rfl,
    List.filter_cons, hkeep]
  rfl

theorem splitWhitespace_of_isWord {word : List Char} (hword : IsWord word) :
    splitWhitespace word = [word] := by
  have hkeep : word.isEmpty = false := by simpa using hword.ne_nil
  rw [splitWhitespace, List.splitOnP_eq_singleton hword.not_space, List.filter_cons, hkeep]
  rfl

/-- Words with a blank between them are taken apart again. -/
theorem splitWhitespace_intercalate {words : List (List Char)} (hwords : ∀ w ∈ words, IsWord w)
    (hne : words ≠ []) : splitWhitespace ([' '].intercalate words) = words := by
  induction words with
  | nil => exact absurd rfl hne
  | cons word rest ih =>
      obtain ⟨hword, hrest⟩ := List.forall_mem_cons.mp hwords
      cases rest with
      | nil =>
          rw [List.intercalate_singleton]
          exact splitWhitespace_of_isWord hword
      | cons next rest =>
          have htail := ih hrest (List.cons_ne_nil next rest)
          rw [List.intercalate_cons_cons, List.append_assoc, List.singleton_append,
            splitWhitespace_append_cons hword, htail]

theorem intercalate_ne_nil {words : List (List Char)} (hwords : ∀ w ∈ words, IsWord w)
    (hne : words ≠ []) : [' '].intercalate words ≠ [] := by
  intro hnil
  have hsplit := splitWhitespace_intercalate hwords hne
  rw [hnil] at hsplit
  exact hne hsplit.symm

/-- Words with a blank between them begin with a character of a word. -/
theorem not_isWhitespace_head {words : List (List Char)} (hwords : ∀ w ∈ words, IsWord w)
    {c : Char} (h : ([' '].intercalate words).head? = some c) : isWhitespace c = false := by
  cases words with
  | nil => cases h
  | cons word rest =>
      have hword := hwords word List.mem_cons_self
      cases hchars : word with
      | nil => exact absurd hchars hword.ne_nil
      | cons a chars =>
          have ha : a ∈ word := by
            rw [hchars]
            exact List.mem_cons_self
          cases rest with
          | nil =>
              rw [List.intercalate_singleton, hchars, List.head?_cons] at h
              rw [← Option.some.inj h]
              exact hword.not_space a ha
          | cons next rest =>
              rw [List.intercalate_cons_cons, hchars] at h
              rw [← Option.some.inj h]
              exact hword.not_space a ha

/-- They end with one. -/
theorem not_isWhitespace_getLast {words : List (List Char)} (hwords : ∀ w ∈ words, IsWord w)
    {c : Char} (h : ([' '].intercalate words).getLast? = some c) : isWhitespace c = false := by
  induction words with
  | nil => cases h
  | cons word rest ih =>
      obtain ⟨hword, hrest⟩ := List.forall_mem_cons.mp hwords
      cases rest with
      | nil =>
          rw [List.intercalate_singleton] at h
          exact hword.not_space c (List.mem_of_getLast? h)
      | cons next rest =>
          have htail := intercalate_ne_nil hrest (List.cons_ne_nil next rest)
          rw [List.intercalate_cons_cons, List.getLast?_append_of_ne_nil _ htail] at h
          exact ih hrest h

theorem trim_intercalate {words : List (List Char)} (hwords : ∀ w ∈ words, IsWord w) :
    trim ([' '].intercalate words) = [' '].intercalate words :=
  trim_eq_self (fun _ h => not_isWhitespace_head hwords h)
    (fun _ h => not_isWhitespace_getLast hwords h)

/-- A character of words with a blank between them is a blank or no white space. -/
theorem not_mem_intercalate {words : List (List Char)} (hwords : ∀ w ∈ words, IsWord w)
    {c : Char} (hspace : isWhitespace c = true) (hblank : c ≠ ' ') :
    c ∉ [' '].intercalate words := by
  intro hmem
  rcases mem_intercalate hmem with hc | ⟨word, hword, hc⟩
  · exact hblank hc
  · rw [(hwords word hword).not_space c hc] at hspace
    cases hspace

/-! ## Lines -/

/-- Each line with a line feed after it. -/
def textOfLines (ls : List (List Char)) : List Char := ls.flatMap fun l => l ++ ['\n']

theorem textOfLines_eq_intercalate (ls : List (List Char)) :
    textOfLines ls = ['\n'].intercalate (ls ++ [[]]) := by
  induction ls with
  | nil => rfl
  | cons l ls ih =>
      have htail : textOfLines (l :: ls) = l ++ ['\n'] ++ textOfLines ls := List.flatMap_cons
      rw [htail, ih, List.cons_append, List.intercalate_cons_of_ne_nil (by simp)]

/-- Lines with a line feed after each are read back. -/
theorem lines_textOfLines {ls : List (List Char)}
    (hls : ∀ l ∈ ls, '\n' ∉ l ∧ l.getLast? ≠ some '\r') : lines (textOfLines ls) = ls := by
  have hfeed : ∀ l ∈ ls ++ [[]], '\n' ∉ l := by
    intro l hl
    rcases List.mem_append.mp hl with hl | hl
    · exact (hls l hl).1
    · rw [List.mem_singleton.mp hl]
      exact List.not_mem_nil
  have hsplit : (textOfLines ls).splitOn '\n' = ls ++ [[]] := by
    rw [textOfLines_eq_intercalate]
    exact List.splitOn_intercalate '\n' hfeed (by simp)
  have hlast : (ls ++ [[]]).getLast? = some ([] : List Char) := by simp
  rw [lines, hsplit]
  simp only [hlast, List.dropLast_concat]
  calc ls.map stripReturn ++ ((some []).filter fun l => l ≠ []).toList
      = ls.map stripReturn := List.append_nil _
    _ = ls.map id := List.map_congr_left fun l hl => if_neg (hls l hl).2
    _ = ls := List.map_id ls

end MissionOs.Rust
