import Mathlib.Data.List.TakeWhile
import MissionOs.Rust.Text

/-!
# Texts that are trimmed, cut and joined

A text that neither begins nor ends with white space is not changed by `str::trim`, and what
`str::trim` returns is such a text.  `str::split_once` cuts a text at the first mark, and takes
the mark away.
-/

namespace MissionOs.Rust

/-! ## Trimming -/

section Trim

variable {s : List Char}

theorem dropWhile_isWhitespace_eq_self (h : ∀ c, s.head? = some c → isWhitespace c = false) :
    s.dropWhile isWhitespace = s := by
  cases s with
  | nil => rfl
  | cons c s => exact List.dropWhile_cons_of_neg (by simp [h c rfl])

/-- A text with no white space at its ends is trimmed already. -/
theorem trim_eq_self (hhead : ∀ c, s.head? = some c → isWhitespace c = false)
    (hlast : ∀ c, s.getLast? = some c → isWhitespace c = false) : trim s = s := by
  have hreverse : ∀ c, s.reverse.head? = some c → isWhitespace c = false := by
    intro c hc
    rw [List.head?_reverse] at hc
    exact hlast c hc
  rw [trim, dropWhile_isWhitespace_eq_self hhead, dropWhile_isWhitespace_eq_self hreverse,
    List.reverse_reverse]

/-- What does not begin with white space keeps its beginning. -/
theorem head?_trim_cons {c : Char} (hc : isWhitespace c = false) :
    (trim (c :: s)).head? = some c := by
  have hfront : (c :: s).dropWhile isWhitespace = c :: s :=
    List.dropWhile_cons_of_neg (by simp [hc])
  have hback : [c].dropWhile isWhitespace = [c] := List.dropWhile_cons_of_neg (by simp [hc])
  rw [trim, hfront, List.head?_reverse, List.reverse_cons, List.dropWhile_append, hback]
  split_ifs
  · rfl
  · exact List.getLast?_concat

theorem trim_eq_self_of_forall (h : ∀ c ∈ s, isWhitespace c = false) : trim s = s := by
  apply trim_eq_self
  · exact fun c hc => h c (List.mem_of_head? hc)
  · exact fun c hc => h c (List.mem_of_getLast? hc)

/-- A trimmed text does not end with white space. -/
theorem isWhitespace_getLast_trim {c : Char} (h : (trim s).getLast? = some c) :
    isWhitespace c = false := by
  rw [trim, List.getLast?_reverse] at h
  have hnot := List.head?_dropWhile_not isWhitespace (s.dropWhile isWhitespace).reverse
  rw [h] at hnot
  simpa using hnot

/-- What is trimmed to nothing is white space. -/
theorem trim_eq_nil_iff : trim s = [] ↔ ∀ c ∈ s, isWhitespace c = true := by
  rw [trim, List.reverse_eq_nil_iff, List.dropWhile_eq_nil_iff]
  constructor
  · intro h
    have hnil : s.dropWhile isWhitespace = [] := by
      by_contra hne
      have hhead := List.head_dropWhile_not isWhitespace hne
      rw [h _ (List.mem_reverse.mpr (List.head_mem hne))] at hhead
      cases hhead
    exact List.dropWhile_eq_nil_iff.mp hnil
  · intro h c hc
    exact h c ((List.dropWhile_suffix isWhitespace).subset (List.mem_reverse.mp hc))

/-- White space behind a text without any is trimmed, and nothing else. -/
theorem trim_append_singleton (h : ∀ c ∈ s, isWhitespace c = false) {space : Char}
    (hspace : isWhitespace space = true) : trim (s ++ [space]) = s := by
  cases s with
  | nil =>
      apply trim_eq_nil_iff.mpr
      simp [hspace]
  | cons a s =>
      have hfront : (a :: s ++ [space]).dropWhile isWhitespace = a :: s ++ [space] :=
        List.dropWhile_cons_of_neg (by simp [h a List.mem_cons_self])
      have hback : (a :: s).reverse.dropWhile isWhitespace = (a :: s).reverse := by
        apply dropWhile_isWhitespace_eq_self
        intro c hc
        exact h c (List.mem_reverse.mp (List.mem_of_head? hc))
      rw [trim, hfront, List.reverse_append, List.reverse_singleton, List.singleton_append,
        List.dropWhile_cons_of_pos hspace, hback, List.reverse_reverse]

end Trim

/-! ## Cutting -/

/-- The text left of the first `mark`, and the text right of it, if it is there. -/
def splitAtFirst (mark : Char) (s : List Char) : List Char × Option (List Char) :=
  match s.dropWhile (· ≠ mark) with
  | [] => (s, none)
  | _ :: right => (s.takeWhile (· ≠ mark), some right)

/-- What stands right of a cut: the mark with a text after it, or nothing. -/
def afterMark (mark : Char) : Option (List Char) → List Char
  | none => []
  | some s => mark :: s

section Cut

variable {mark : Char} {s : List Char}

theorem splitAtFirst_append (hs : mark ∉ s) (rest : Option (List Char)) :
    splitAtFirst mark (s ++ afterMark mark rest) = (s, rest) := by
  have hne : ∀ c ∈ s, decide (c ≠ mark) = true := by
    intro c hc
    have hcm : c ≠ mark := fun h => hs (h ▸ hc)
    exact decide_eq_true hcm
  rw [splitAtFirst, List.dropWhile_append_of_pos hne, List.takeWhile_append_of_pos hne]
  cases rest with
  | none => simp [afterMark]
  | some rest => simp [afterMark]

/-- A text is cut at a mark that does not stand before. -/
theorem splitAtFirst_spec (mark : Char) (s : List Char) :
    mark ∉ (splitAtFirst mark s).1 ∧
      s = (splitAtFirst mark s).1 ++ afterMark mark (splitAtFirst mark s).2 := by
  have hsplit := List.takeWhile_append_dropWhile (p := fun c => decide (c ≠ mark)) (l := s)
  have hbefore : mark ∉ s.takeWhile (· ≠ mark) := by
    intro hmem
    simpa using List.mem_takeWhile_imp hmem
  rw [splitAtFirst]
  split
  · rename_i hdrop
    rw [hdrop, List.append_nil] at hsplit
    rw [hsplit] at hbefore
    exact ⟨hbefore, (List.append_nil s).symm⟩
  · rename_i c right hdrop
    have hc : c = mark := by
      have hhead := List.head?_dropWhile_not (fun c => decide (c ≠ mark)) s
      rw [hdrop] at hhead
      simpa using hhead
    rw [hdrop, hc] at hsplit
    exact ⟨hbefore, hsplit.symm⟩

end Cut

/-! ## Joining -/

/-- A character of joined pieces is the one between them, or in one of them. -/
theorem mem_intercalate {sep c : Char} {pieces : List (List Char)}
    (h : c ∈ [sep].intercalate pieces) : c = sep ∨ ∃ piece ∈ pieces, c ∈ piece := by
  induction pieces with
  | nil => cases h
  | cons piece pieces ih =>
      cases pieces with
      | nil =>
          rw [List.intercalate_singleton] at h
          exact Or.inr ⟨piece, List.mem_cons_self, h⟩
      | cons next pieces =>
          rw [List.intercalate_cons_cons, List.mem_append, List.mem_append,
            List.mem_singleton] at h
          rcases h with (h | h) | h
          · exact Or.inr ⟨piece, List.mem_cons_self, h⟩
          · exact Or.inl h
          · rcases ih h with hsep | ⟨piece', hpiece, hc⟩
            · exact Or.inl hsep
            · exact Or.inr ⟨piece', List.mem_cons_of_mem piece hpiece, hc⟩

end MissionOs.Rust
