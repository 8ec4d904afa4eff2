import Mathlib.Data.List.Forall2

/-!
# Lines that keep their ends

A text cut behind every line feed, as a reader does that leaves the line feeds where they are.
The last line may be without one.  Nothing is lost, so the lines put together are the text
again; and some of the lines, put together, are a text with just these lines.
-/

namespace MissionOs.Lib

variable {α : Type} [DecidableEq α] (feed : α)

/-- A text cut behind every line feed. -/
def endedLines : List α → List (List α)
  | [] => []
  | c :: cs =>
      if c = feed then [c] :: endedLines cs
      else
        match endedLines cs with
        | [] => [[c]]
        | line :: rest => (c :: line) :: rest

/-- Lines of a text: not empty, with a line feed at their end and nowhere else, which only the
last may lack. -/
structure AreLines (ls : List (List α)) : Prop where
  line : ∀ l ∈ ls, l ≠ [] ∧ feed ∉ l.dropLast
  ended : ls.Pairwise fun l _ => l.getLast? = some feed

variable {feed}

/-- The lines make up the text. -/
theorem flatten_endedLines (cs : List α) : (endedLines feed cs).flatten = cs := by
  induction cs with
  | nil => rfl
  | cons c cs ih =>
      rw [endedLines]
      split_ifs with hc
      · rw [List.flatten_cons, ih]
        rfl
      · cases hlines : endedLines feed cs with
        | nil =>
            rw [hlines] at ih
            rw [← ih]
            rfl
        | cons line rest =>
            rw [hlines] at ih
            rw [← ih]
            rfl

omit [DecidableEq α] in
/-- Some of the lines are lines. -/
theorem AreLines.sublist {ls some : List (List α)} (h : AreLines feed ls)
    (hsub : some.Sublist ls) : AreLines feed some where
  line l hl := h.line l (hsub.subset hl)
  ended := h.ended.sublist hsub

omit [DecidableEq α] in
theorem areLines_cons_iff {l : List α} {ls : List (List α)} :
    AreLines feed (l :: ls) ↔
      l ≠ [] ∧ feed ∉ l.dropLast ∧ (ls ≠ [] → l.getLast? = some feed) ∧ AreLines feed ls := by
  constructor
  · intro h
    obtain ⟨hne, hbody⟩ := h.line l List.mem_cons_self
    refine ⟨hne, hbody, ?_, h.sublist (List.sublist_cons_self l ls)⟩
    intro hls
    obtain ⟨next, hnext⟩ := List.exists_mem_of_ne_nil ls hls
    exact (List.pairwise_cons.mp h.ended).1 next hnext
  · rintro ⟨hne, hbody, hend, h⟩
    constructor
    · intro l' hl'
      rcases List.mem_cons.mp hl' with rfl | hl'
      · exact ⟨hne, hbody⟩
      · exact h.line l' hl'
    · apply List.pairwise_cons.mpr
      exact ⟨fun next hnext => hend (List.ne_nil_of_mem hnext), h.ended⟩

omit [DecidableEq α] in
theorem areLines_nil : AreLines feed ([] : List (List α)) where
  line _ hl := absurd hl List.not_mem_nil
  ended := List.Pairwise.nil

theorem areLines_endedLines (cs : List α) : AreLines feed (endedLines feed cs) := by
  induction cs with
  | nil => exact areLines_nil
  | cons c cs ih =>
      rw [endedLines]
      split_ifs with hc
      · rw [areLines_cons_iff]
        exact ⟨by simp, by simp, fun _ => by rw [hc]; rfl, ih⟩
      · cases hlines : endedLines feed cs with
        | nil =>
            show AreLines feed [[c]]
            rw [areLines_cons_iff]
            exact ⟨by simp, by simp, fun h => absurd rfl h, areLines_nil⟩
        | cons line rest =>
            show AreLines feed ((c :: line) :: rest)
            rw [hlines, areLines_cons_iff] at ih
            obtain ⟨hne, hbody, hend, hrest⟩ := ih
            rw [areLines_cons_iff, List.dropLast_cons_of_ne_nil hne,
              List.getLast?_cons_of_ne_nil hne, List.mem_cons, not_or]
            exact ⟨List.cons_ne_nil c line, ⟨fun h => hc h.symm, hbody⟩, hend, hrest⟩

/-- A line without its feed goes on in what follows. -/
theorem endedLines_append {body : List α} (h : feed ∉ body) (rest : List α) :
    endedLines feed (body ++ feed :: rest) = (body ++ [feed]) :: endedLines feed rest := by
  induction body with
  | nil => exact if_pos rfl
  | cons c body ih =>
      have hc : c ≠ feed := fun heq => h (heq ▸ List.mem_cons_self)
      have hbody := ih fun hmem => h (List.mem_cons_of_mem c hmem)
      rw [List.cons_append, endedLines, if_neg hc, hbody]
      rfl

/-- Without a feed, a text is one line. -/
theorem endedLines_of_not_mem {l : List α} (hne : l ≠ []) (h : feed ∉ l) :
    endedLines feed l = [l] := by
  induction l with
  | nil => exact absurd rfl hne
  | cons c l ih =>
      have hc : c ≠ feed := fun heq => h (heq ▸ List.mem_cons_self)
      rw [endedLines, if_neg hc]
      cases l with
      | nil => rfl
      | cons d l =>
          rw [ih (List.cons_ne_nil d l) fun hmem => h (List.mem_cons_of_mem c hmem)]

/-- Lines put together are cut into the same lines. -/
theorem AreLines.endedLines_flatten {ls : List (List α)} (h : AreLines feed ls) :
    endedLines feed ls.flatten = ls := by
  induction ls with
  | nil => rfl
  | cons l ls ih =>
      obtain ⟨hne, hbody, hend, htail⟩ := areLines_cons_iff.mp h
      have hrest := ih htail
      have hlast := List.dropLast_append_getLast hne
      by_cases hfeed : l.getLast hne = feed
      · rw [hfeed] at hlast
        rw [List.flatten_cons, ← hlast, List.append_assoc, List.singleton_append,
          endedLines_append hbody, hrest]
      · -- a line without a feed is the last one
        have hnil : ls = [] := by
          by_contra hls
          have hget := hend hls
          rw [List.getLast?_eq_some_getLast hne] at hget
          exact hfeed (Option.some.inj hget)
        have hnone : feed ∉ l := by
          rw [← hlast]
          intro hmem
          rcases List.mem_append.mp hmem with hmem | hmem
          · exact hbody hmem
          · exact hfeed (List.mem_singleton.mp hmem).symm
        rw [hnil, List.flatten_singleton, endedLines_of_not_mem hne hnone]

/-- The lines of the beginning of a text are the first lines of the text, each of them as far as
the beginning goes. -/
theorem endedLines_take (cs : List α) (n : Nat) :
    ∃ ls, ls <+: endedLines feed cs ∧
      List.Forall₂ (· <+: ·) (endedLines feed (cs.take n)) ls := by
  induction cs generalizing n with
  | nil => exact ⟨[], List.nil_prefix, by rw [List.take_nil]; exact List.Forall₂.nil⟩
  | cons c cs ih =>
      cases n with
      | zero => exact ⟨[], List.nil_prefix, List.Forall₂.nil⟩
      | succ n =>
          obtain ⟨ls, hls, hlines⟩ := ih n
          rw [List.take_succ_cons, endedLines, endedLines]
          split_ifs with hc
          · exact ⟨[c] :: ls, (List.prefix_cons_inj _).mpr hls,
              List.Forall₂.cons List.prefix_rfl hlines⟩
          · generalize endedLines feed (cs.take n) = begun at hlines ⊢
            cases hlines with
            | nil =>
                have hstart : [c] <+: c :: (endedLines feed cs).headD [] := List.prefix_append [c] _
                refine ⟨[_], ?_, List.Forall₂.cons hstart List.Forall₂.nil⟩
                cases endedLines feed cs with
                | nil => exact List.prefix_rfl
                | cons line rest => exact ⟨rest, rfl⟩
            | cons hline hrest =>
                rename_i line line' rest rest'
                obtain ⟨more, hmore⟩ := hls
                refine ⟨(c :: line') :: rest', ?_, List.Forall₂.cons ?_ hrest⟩
                · rw [← hmore]
                  exact ⟨more, rfl⟩
                · exact (List.prefix_cons_inj c).mpr hline

/-- A line of the beginning of a text is the beginning of a line. -/
theorem exists_isPrefix_of_mem_take {cs line : List α} {n : Nat}
    (h : line ∈ endedLines feed (cs.take n)) : ∃ l ∈ endedLines feed cs, line <+: l := by
  obtain ⟨ls, hls, hlines⟩ : ∃ ls, ls <+: endedLines feed cs ∧ _ := endedLines_take cs n
  obtain ⟨i, hi, rfl⟩ := List.mem_iff_getElem.mp h
  have hi' : i < ls.length := hlines.length_eq ▸ hi
  exact ⟨ls[i], hls.subset (List.getElem_mem hi'), (List.forall₂_iff_get.mp hlines).2 i hi hi'⟩

end MissionOs.Lib
