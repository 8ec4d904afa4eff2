import Mathlib.Data.List.Basic

/-!
# Sections of a file

A file whose lines fall into sections.  Some of the lines open a section, and some of these
are headers of the kind that is looked for.  A section goes on to the next line that opens
one.

`outsideSections` says which lines do not belong to such a section, line by line.  A reader
that goes through the file from the top need only know whether it is in a section:
`openAfter_concat` and `outsideSections_concat` say what one more line does.
-/

namespace MissionOs.Lib

variable {α : Type} (header opens : α → Bool)

/-- The line `i` belongs to a section: there is a header at it or above it, and no line that
opens a section stands between, nor is it one itself. -/
def InSection (ls : List α) (i : Nat) : Prop :=
  ∃ j ≤ i, ls[j]?.any header = true ∧ ∀ k ≤ i, j < k → ls[k]?.any opens = false

instance (ls : List α) (i : Nat) : Decidable (InSection header opens ls i) :=
  inferInstanceAs (Decidable (∃ j ≤ i, _ ∧ ∀ k ≤ i, _ → _))

/-- The lines that belong to no section, in their order. -/
def outsideSections (ls : List α) : List α :=
  (ls.zipIdx.filter fun p => ¬ InSection header opens ls p.2).map Prod.fst

/-- A section is open behind the last line. -/
def OpenAfter (ls : List α) : Prop :=
  ∃ j < ls.length, ls[j]?.any header = true ∧ ∀ k < ls.length, j < k → ls[k]?.any opens = false

variable {header opens}

theorem not_openAfter_nil : ¬ OpenAfter header opens [] := by
  rintro ⟨j, hj, -⟩
  exact absurd hj (Nat.not_lt_zero j)

/-- One more line opens a section if it is a header; otherwise it leaves an open one open,
unless it opens another. -/
theorem openAfter_concat {ls : List α} {l : α} :
    OpenAfter header opens (ls ++ [l]) ↔
      header l = true ∨ (opens l = false ∧ OpenAfter header opens ls) := by
  have hold {k : Nat} (hk : k < ls.length) : (ls ++ [l])[k]? = ls[k]? :=
    List.getElem?_append_left hk
  have hnew : (ls ++ [l])[ls.length]? = some l := List.getElem?_concat_length
  have hlength : (ls ++ [l]).length = ls.length + 1 := List.length_append
  constructor
  · rintro ⟨j, hj, hheader, hrest⟩
    rw [hlength] at hj hrest
    rcases Nat.lt_succ_iff_lt_or_eq.mp hj with hlt | rfl
    · right
      constructor
      · have hlast := hrest ls.length (by omega) hlt
        rwa [hnew] at hlast
      · refine ⟨j, hlt, ?_, ?_⟩
        · rwa [hold hlt] at hheader
        · intro k hk hjk
          have hbetween := hrest k (by omega) hjk
          rwa [hold hk] at hbetween
    · left
      rwa [hnew] at hheader
  · rintro (hheader | ⟨hopens, j, hj, hheader, hrest⟩)
    · refine ⟨ls.length, by omega, ?_, ?_⟩
      · rwa [hnew]
      · intro k hk hjk
        omega
    · refine ⟨j, by omega, ?_, ?_⟩
      · rwa [hold hj]
      · intro k hk hjk
        rw [hlength] at hk
        rcases Nat.lt_succ_iff_lt_or_eq.mp hk with hlt | rfl
        · rw [hold hlt]
          exact hrest k hlt hjk
        · rwa [hnew]

/-- Whether a line belongs to a section depends on no line below it. -/
theorem inSection_append {ls rest : List α} {i : Nat} (hi : i < ls.length) :
    InSection header opens (ls ++ rest) i ↔ InSection header opens ls i := by
  have hold {k : Nat} (hk : k ≤ i) : (ls ++ rest)[k]? = ls[k]? :=
    List.getElem?_append_left (by omega)
  constructor
  · rintro ⟨j, hj, hheader, hrest⟩
    refine ⟨j, hj, hold hj ▸ hheader, ?_⟩
    intro k hk hjk
    exact hold hk ▸ hrest k hk hjk
  · rintro ⟨j, hj, hheader, hrest⟩
    refine ⟨j, hj, (hold hj).symm ▸ hheader, ?_⟩
    intro k hk hjk
    exact (hold hk).symm ▸ hrest k hk hjk

/-- The last line belongs to a section if one is open behind it. -/
theorem inSection_last {ls : List α} {l : α} :
    InSection header opens (ls ++ [l]) ls.length ↔ OpenAfter header opens (ls ++ [l]) := by
  have hlength : (ls ++ [l]).length = ls.length + 1 := List.length_append
  simp only [InSection, OpenAfter, hlength, Nat.lt_succ_iff]

open Classical in
/-- One more line is outside unless a section is open behind it. -/
theorem outsideSections_concat (ls : List α) (l : α) :
    outsideSections header opens (ls ++ [l]) =
      outsideSections header opens ls ++
        if OpenAfter header opens (ls ++ [l]) then [] else [l] := by
  have hold : (ls.zipIdx.filter fun p => ¬ InSection header opens (ls ++ [l]) p.2) =
      ls.zipIdx.filter fun p => ¬ InSection header opens ls p.2 := by
    apply List.filter_congr
    intro p hp
    have hlt : p.2 < ls.length := by
      have hindex := List.snd_lt_of_mem_zipIdx hp
      omega
    simp only [inSection_append hlt]
  rw [outsideSections, List.zipIdx_append, List.filter_append, List.map_append, hold]
  congr 1
  have hsingle : [l].zipIdx (0 + ls.length) = [(l, ls.length)] := by simp
  rw [hsingle, List.filter_singleton]
  simp only [inSection_last]
  split_ifs <;> simp_all

/-- The lines outside are lines of the file, in its order. -/
theorem outsideSections_sublist (ls : List α) :
    (outsideSections header opens ls).Sublist ls := by
  have hsub := (List.filter_sublist (p := fun p => ¬ InSection header opens ls p.2)
    (l := ls.zipIdx)).map Prod.fst
  rwa [List.zipIdx_map_fst] at hsub

/-- No header is outside. -/
theorem header_of_mem_outsideSections {ls : List α} {l : α}
    (h : l ∈ outsideSections header opens ls) : header l = false := by
  obtain ⟨p, hp, rfl⟩ := List.mem_map.mp h
  obtain ⟨hmem, hnot⟩ := List.mem_filter.mp hp
  have hline : ls[p.2]? = some p.1 := List.mem_zipIdx_iff_getElem?.mp hmem
  by_contra hheader
  have hin : InSection header opens ls p.2 := by
    refine ⟨p.2, Nat.le_refl _, ?_, ?_⟩
    · rw [hline]
      simpa using hheader
    · intro k hk hlt
      omega
  simp [hin] at hnot

/-- Where there is no header, nothing belongs to a section. -/
theorem not_inSection_of_forall {ls : List α} (h : ∀ l ∈ ls, header l = false) (i : Nat) :
    ¬ InSection header opens ls i := by
  rintro ⟨j, -, hheader, -⟩
  cases hline : ls[j]? with
  | none =>
      rw [hline] at hheader
      cases hheader
  | some l =>
      rw [hline, Option.any_some, h l (List.mem_of_getElem? hline)] at hheader
      cases hheader

/-- So everything is outside there. -/
theorem outsideSections_of_forall {ls : List α} (h : ∀ l ∈ ls, header l = false) :
    outsideSections header opens ls = ls := by
  have hall : ls.zipIdx.filter (fun p => ¬ InSection header opens ls p.2) = ls.zipIdx := by
    apply List.filter_eq_self.mpr
    intro p hp
    simpa using not_inSection_of_forall h p.2
  rw [outsideSections, hall, List.zipIdx_map_fst]

end MissionOs.Lib
