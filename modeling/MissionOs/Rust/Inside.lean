import MissionOs.Rust.Path

/-!
# Paths inside a directory

A path that is joined to a directory need not lead into it: an absolute path replaces it, and
`..` leaves it.  `Path.Inside` says where the joined path leads, and `inside_join_suffix` that a
name and the same name with an extension lead to one place.
-/

namespace MissionOs.Rust

namespace Path

/-- The path leads to a place below the directory. -/
def Inside (dir p : Path) : Prop := dir.resolve <+: p.resolve ∧ dir.resolve ≠ p.resolve

instance (dir p : Path) : Decidable (Inside dir p) := inferInstanceAs (Decidable (_ ∧ _))

/-- A directory is above an entry exactly if it is the entry's directory or above that. -/
theorem inside_iff_of_resolve_eq {dir p : Path} {parent : List String} {c : String}
    (h : p.resolve = parent ++ [c]) : Inside dir p ↔ dir.resolve <+: parent := by
  rw [Inside, h, List.prefix_concat_iff]
  constructor
  · intro hright
    obtain ⟨heq | hparent, hne⟩ := hright
    · exact absurd heq hne
    · exact hparent
  · intro hparent
    refine ⟨Or.inr hparent, fun heq => ?_⟩
    have hlength := hparent.length_le
    rw [heq, List.length_append, List.length_singleton] at hlength
    omega

/-- A file name leads into the directory. -/
theorem inside_join_of_fileName (dir : Path) {c : String} (hslash : '/' ∉ c.toList)
    (hne : c ≠ "") (hdot : c ≠ ".") (hdots : c ≠ "..") : Inside dir (dir.join c) := by
  rw [inside_iff_of_resolve_eq (resolve_join_of_fileName dir hslash hne hdot hdots)]

/-! ## A name and its extensions -/

/-- A text ends in what stands after its last slash, whatever is appended to it. -/
theorem splitOn_append (cs : List Char) : ∃ init last, ∀ suffix : List Char, '/' ∉ suffix →
    (cs ++ suffix).splitOn '/' = init ++ [last ++ suffix] := by
  induction cs with
  | nil => exact ⟨[], [], fun suffix h => List.splitOn_eq_singleton h⟩
  | cons c cs ih =>
      obtain ⟨init, last, hsplit⟩ := ih
      by_cases hc : c = '/'
      · refine ⟨[] :: init, last, fun suffix h => ?_⟩
        have hrest := hsplit suffix h
        simp only [List.splitOn] at hrest ⊢
        rw [List.cons_append, List.splitOnP_cons_eq_if_modifyHead, if_pos (by simp [hc]), hrest]
        rfl
      · cases init with
        | nil =>
            refine ⟨[], c :: last, fun suffix h => ?_⟩
            have hrest := hsplit suffix h
            simp only [List.splitOn] at hrest ⊢
            rw [List.cons_append, List.splitOnP_cons_eq_if_modifyHead, if_neg (by simp [hc]), hrest]
            rfl
        | cons word init =>
            refine ⟨(c :: word) :: init, last, fun suffix h => ?_⟩
            have hrest := hsplit suffix h
            simp only [List.splitOn] at hrest ⊢
            rw [List.cons_append, List.splitOnP_cons_eq_if_modifyHead, if_neg (by simp [hc]), hrest]
            rfl

/-- What is appended to a name in place of an extension. -/
structure IsSuffix (suffix : String) : Prop where
  no_slash : '/' ∉ suffix.toList
  not_dots : ∃ c ∈ suffix.toList.getLast?, c ≠ '.'

theorem IsSuffix.append {suffix : String} (h : IsSuffix suffix) (last : List Char) :
    String.ofList (last ++ suffix.toList) ≠ "" ∧ String.ofList (last ++ suffix.toList) ≠ "." ∧
      String.ofList (last ++ suffix.toList) ≠ ".." := by
  obtain ⟨c, hc, hdot⟩ := h.not_dots
  have hlast : (last ++ suffix.toList).getLast? = some c := by
    rw [List.getLast?_append, Option.mem_def.mp hc]
    rfl
  refine ⟨fun heq => ?_, fun heq => ?_, fun heq => ?_⟩ <;>
    have hchars := congrArg (fun s => s.toList.getLast?) heq <;>
    rw [String.toList_ofList, hlast] at hchars <;>
    simp at hchars
  · exact hdot hchars
  · exact hdot hchars

/-- The last component of a path is the last step. -/
theorem resolve_append_concat (dir : Path) (absolute : Bool) (components : List String)
    (c : String) : (dir.append ⟨absolute, components ++ [c]⟩).resolve =
      descend (dir.append ⟨absolute, components⟩).resolve c := by
  cases absolute <;> simp [append, resolve]

theorem absolute_suffix (name : String) {suffix : String} (h : '/' ∉ suffix.toList) :
    (new (name ++ suffix)).absolute = (new name).absolute := by
  simp only [new, String.toList_append]
  cases name.toList with
  | nil =>
      cases hsuffix : suffix.toList with
      | nil => rfl
      | cons c cs =>
          have hc : c ≠ '/' := by
            intro heq
            subst heq
            exact h (by simp [hsuffix])
          simp [hc]
  | cons c cs => rfl

/-- A name that is joined to a directory leads to some place and on by its last component; a
suffix is appended to that component. -/
theorem resolve_join (dir : Path) (name : String) : ∃ (parent : List String) (last : List Char),
    (∀ suffix, IsSuffix suffix → (dir.join (name ++ suffix)).resolve =
      parent ++ [String.ofList (last ++ suffix.toList)]) ∧
    (dir.join name).resolve =
      if last = [] ∨ last = ['.'] then parent else descend parent (String.ofList last) := by
  obtain ⟨init, last, hsplit⟩ := splitOn_append name.toList
  let start : Path :=
    ⟨(new name).absolute, (init.map String.ofList).filter (fun c => c ≠ "" && c ≠ ".")⟩
  refine ⟨(dir.append start).resolve, last, fun suffix h => ?_, ?_⟩
  · obtain ⟨hempty, hdot, hdots⟩ := h.append last
    have habsolute : (new (name ++ suffix)).absolute = (new name).absolute :=
      absolute_suffix name h.no_slash
    have hnew : new (name ++ suffix) =
        ⟨start.absolute, start.components ++ [String.ofList (last ++ suffix.toList)]⟩ := by
      refine congrArg₂ Path.mk habsolute ?_
      rw [String.toList_append, hsplit _ h.no_slash, List.map_append, List.map_singleton]
      generalize String.ofList (last ++ suffix.toList) = c at hempty hdot
      simp [start, hempty, hdot]
    rw [join, hnew, resolve_append_concat, descend, if_neg hdots]
  · have hname := hsplit [] (by simp)
    rw [List.append_nil, List.append_nil] at hname
    by_cases hlast : last = [] ∨ last = ['.']
    · have hnew : new name = start := by
        refine congrArg₂ Path.mk rfl ?_
        rw [hname]
        rcases hlast with rfl | rfl <;> simp
      rw [join, hnew, if_pos hlast]
    · have hnew : new name =
          ⟨start.absolute, start.components ++ [String.ofList last]⟩ := by
        obtain ⟨hempty, hdot⟩ := not_or.mp hlast
        have hdot' : String.ofList last ≠ "." := fun heq =>
          hdot (by simpa using congrArg String.toList heq)
        refine congrArg₂ Path.mk rfl ?_
        rw [hname]
        simp [start, hempty, hdot']
      rw [join, hnew, resolve_append_concat, if_neg hlast]

/-- Where a name leads below a directory, it does with a suffix, too. -/
theorem inside_join_suffix {dir base : Path} {name suffix : String}
    (h : Inside dir (base.join name)) (hsuffix : IsSuffix suffix) :
    Inside dir (base.join (name ++ suffix)) := by
  obtain ⟨parent, last, hjoin, hname⟩ := resolve_join base name
  rw [inside_iff_of_resolve_eq (hjoin suffix hsuffix)]
  obtain ⟨hinitial, hne⟩ := h
  rw [hname] at hinitial hne
  split_ifs at hinitial hne
  · exact hinitial
  · rw [descend] at hinitial hne
    split_ifs at hinitial hne
    · exact hinitial.trans (List.dropLast_prefix parent)
    · exact (List.prefix_concat_iff.mp hinitial).resolve_left hne

/-- One suffix is as good as another. -/
theorem inside_join_suffix_iff {dir base : Path} {name suffix suffix' : String}
    (h : IsSuffix suffix) (h' : IsSuffix suffix') :
    Inside dir (base.join (name ++ suffix)) ↔ Inside dir (base.join (name ++ suffix')) := by
  obtain ⟨parent, last, hjoin, -⟩ := resolve_join base name
  rw [inside_iff_of_resolve_eq (hjoin suffix h), inside_iff_of_resolve_eq (hjoin suffix' h')]

/-- Nor does a name with one suffix lead where it does with another. -/
theorem resolve_join_suffix_inj {base : Path} {name suffix suffix' : String}
    (h : IsSuffix suffix) (h' : IsSuffix suffix')
    (heq : (base.join (name ++ suffix)).resolve = (base.join (name ++ suffix')).resolve) :
    suffix = suffix' := by
  obtain ⟨parent, last, hjoin, -⟩ := resolve_join base name
  rw [hjoin suffix h, hjoin suffix' h'] at heq
  simpa using heq

/-- A name does not lead to a place at or below the one where it leads with a suffix. -/
theorem not_prefix_join_suffix {base : Path} {name suffix : String} (h : IsSuffix suffix) :
    ¬ (base.join (name ++ suffix)).resolve <+: (base.join name).resolve := by
  obtain ⟨parent, last, hjoin, hname⟩ := resolve_join base name
  rw [hjoin suffix h, hname]
  intro hinitial
  have hlength := hinitial.length_le
  rw [List.length_append, List.length_singleton] at hlength
  split_ifs at hinitial hlength with hlast
  · omega
  · rw [descend] at hinitial hlength
    split_ifs at hinitial hlength
    · rw [List.length_dropLast] at hlength
      omega
    · obtain ⟨c, hc, -⟩ := h.not_dots
      have hnil : suffix.toList = [] := by simpa using hinitial
      simp [hnil] at hc

end Path

end MissionOs.Rust
