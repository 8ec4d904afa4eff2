import Mathlib.Data.List.Infix
import MissionOs.Rust.Text

/-!
# Suffixes that are trimmed

`str::trim_end_matches` of a text takes it away from the end as often as it stands there.
-/

namespace MissionOs.Rust

/-- `str::trim_end_matches` of a pattern that is not empty. -/
def trimEndMatches (pattern s : List Char) : List Char :=
  (dropPrefixes pattern.reverse s.length s.reverse).reverse

section TrimEnd

variable {pattern s : List Char}

theorem dropPrefixes_eq_self (h : ¬ pattern <+: s) (n : Nat) :
    dropPrefixes pattern n s = s := by
  cases n with
  | zero => rfl
  | succ n => rw [dropPrefixes, if_neg (by rwa [List.isPrefixOf_iff_prefix])]

/-- No more passes are made than there are characters. -/
theorem dropPrefixes_eq_of_length_le (hne : pattern ≠ []) {m n : Nat} (hm : s.length ≤ m)
    (hn : s.length ≤ n) : dropPrefixes pattern m s = dropPrefixes pattern n s := by
  induction m generalizing n s with
  | zero =>
      have hnil : s = [] := List.length_eq_zero_iff.mp (by omega)
      subst hnil
      have hnot : ¬ pattern <+: [] := fun h => hne (List.prefix_nil.mp h)
      rw [dropPrefixes_eq_self hnot, dropPrefixes_eq_self hnot]
  | succ m ih =>
      by_cases hbegin : pattern <+: s
      · have hlength : 0 < pattern.length := List.length_pos_iff.mpr hne
        have hle := hbegin.length_le
        cases n with
        | zero => omega
        | succ n =>
            rw [dropPrefixes, dropPrefixes, if_pos (List.isPrefixOf_iff_prefix.mpr hbegin),
              if_pos (List.isPrefixOf_iff_prefix.mpr hbegin)]
            apply ih
            · rw [List.length_drop]
              omega
            · rw [List.length_drop]
              omega
      · rw [dropPrefixes_eq_self hbegin, dropPrefixes_eq_self hbegin]

theorem dropPrefixes_suffix (n : Nat) : dropPrefixes pattern n s <:+ s := by
  induction n generalizing s with
  | zero => exact List.suffix_refl s
  | succ n ih =>
      rw [dropPrefixes]
      split_ifs
      · exact ih.trans (List.drop_suffix _ _)
      · exact List.suffix_refl s

/-- What is left is the text without some characters at its end. -/
theorem trimEndMatches_isPrefix (pattern s : List Char) : trimEndMatches pattern s <+: s := by
  have hsuffix := @dropPrefixes_suffix pattern.reverse s.reverse s.length
  rw [trimEndMatches]
  exact List.reverse_suffix.mp (by rwa [List.reverse_reverse])

theorem trimEndMatches_of_not_suffix (h : ¬ pattern <:+ s) : trimEndMatches pattern s = s := by
  have hnot : ¬ pattern.reverse <+: s.reverse := mt List.reverse_prefix.mp h
  rw [trimEndMatches, dropPrefixes_eq_self hnot, List.reverse_reverse]

/-- A pattern at the end is taken away, and the rest is trimmed further. -/
theorem trimEndMatches_append (hne : pattern ≠ []) :
    trimEndMatches pattern (s ++ pattern) = trimEndMatches pattern s := by
  have hlength : 0 < pattern.length := List.length_pos_iff.mpr hne
  rw [trimEndMatches, trimEndMatches, List.reverse_append]
  have hbegin : pattern.reverse <+: pattern.reverse ++ s.reverse := List.prefix_append _ _
  have hstep : dropPrefixes pattern.reverse (s ++ pattern).length
      (pattern.reverse ++ s.reverse) =
        dropPrefixes pattern.reverse ((s ++ pattern).length - 1) s.reverse := by
    obtain ⟨n, hn⟩ : ∃ n, (s ++ pattern).length = n + 1 :=
      Nat.exists_eq_succ_of_ne_zero (by rw [List.length_append]; omega)
    rw [hn, dropPrefixes, if_pos (List.isPrefixOf_iff_prefix.mpr hbegin), List.drop_left]
    rfl
  rw [hstep]
  congr 1
  apply dropPrefixes_eq_of_length_le (by simpa using hne)
  · rw [List.length_reverse, List.length_append]
    omega
  · rw [List.length_reverse]

/-- A text is left alone exactly if the pattern is not at its end. -/
theorem trimEndMatches_eq_self_iff (hne : pattern ≠ []) :
    trimEndMatches pattern s = s ↔ ¬ pattern <:+ s := by
  constructor
  · intro h hsuffix
    obtain ⟨rest, rfl⟩ := hsuffix
    rw [trimEndMatches_append hne] at h
    have hle := (trimEndMatches_isPrefix pattern rest).length_le
    rw [h, List.length_append] at hle
    have hlength : 0 < pattern.length := List.length_pos_iff.mpr hne
    omega
  · exact trimEndMatches_of_not_suffix

end TrimEnd

/-! ## Several patterns in turn -/

/-- Trim one pattern after the other. -/
def trimEndEach (patterns : List (List Char)) (s : List Char) : List Char :=
  patterns.foldl (fun s pattern => trimEndMatches pattern s) s

theorem trimEndEach_isPrefix (patterns : List (List Char)) (s : List Char) :
    trimEndEach patterns s <+: s := by
  induction patterns generalizing s with
  | nil => exact List.prefix_refl s
  | cons pattern patterns ih =>
      exact (ih (trimEndMatches pattern s)).trans (trimEndMatches_isPrefix pattern s)

/-- A text is left alone exactly if none of the patterns is at its end. -/
theorem trimEndEach_eq_self_iff {patterns : List (List Char)} {s : List Char}
    (hne : ∀ pattern ∈ patterns, pattern ≠ []) :
    trimEndEach patterns s = s ↔ ∀ pattern ∈ patterns, ¬ pattern <:+ s := by
  induction patterns generalizing s with
  | nil => exact iff_of_true rfl (by simp)
  | cons pattern patterns ih =>
      obtain ⟨hpattern, hpatterns⟩ := List.forall_mem_cons.mp hne
      rw [List.forall_mem_cons, ← trimEndMatches_eq_self_iff hpattern, ← ih hpatterns]
      constructor
      · intro h
        have hrest := trimEndEach_isPrefix patterns (trimEndMatches pattern s)
        have hfirst := trimEndMatches_isPrefix pattern s
        have hsame : trimEndMatches pattern s = s := by
          apply hfirst.eq_of_length_le
          have hle := hrest.length_le
          have hwhole : trimEndEach patterns (trimEndMatches pattern s) = s := h
          rw [hwhole] at hle
          exact hle
        refine ⟨hsame, ?_⟩
        have hwhole : trimEndEach patterns (trimEndMatches pattern s) = s := h
        rw [hsame] at hwhole
        exact hwhole
      · intro h
        obtain ⟨hsame, hrest⟩ := h
        show trimEndEach patterns (trimEndMatches pattern s) = s
        rw [hsame, hrest]

end MissionOs.Rust
