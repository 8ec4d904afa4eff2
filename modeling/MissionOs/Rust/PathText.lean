import MissionOs.Rust.Path

/-!
# The texts of paths

`Path::components` and `PathBuf::push` on the text of a path, as they are on Unix.  `Path`
keeps no more of a text than its names; here the whole decomposition is kept, with the root
and a `.` at the start.

A text that is pushed is not looked into.  That its components come after those of the base
is a theorem, `pathComponents_pushText`, and needs that it is not absolute.
-/

namespace MissionOs.Rust

/-- `std::path::Component`. -/
inductive Component where
  | windowsPrefix (text : String)
  | rootDir
  | curDir
  | parentDir
  | normal (name : String)
deriving DecidableEq, Repr

/-- The name of a normal component. -/
def Component.name? : Component → Option String
  | .normal name => some name
  | _ => none

/-- What stands between two slashes, as a component: nothing and `.` are none. -/
def componentOf (part : List Char) : Option Component :=
  if part = [] ∨ part = ['.'] then none
  else if part = ['.', '.'] then some .parentDir
  else some (.normal (String.ofList part))

/-- What a path begins with: the root, or a `.` of its own. -/
def leadOf (cs : List Char) : List Component :=
  if cs.head? = some '/' then [.rootDir]
  else if (cs.splitOn '/').head? = some ['.'] then [.curDir]
  else []

/-- What follows the beginning. -/
def bodyOf (cs : List Char) : List Component := (cs.splitOn '/').filterMap componentOf

/-- `Path::components`.  On Unix no path has a prefix. -/
def pathComponents (text : String) : List Component := leadOf text.toList ++ bodyOf text.toList

/-- The normal components of a path. -/
def normalNames (text : String) : List String := (pathComponents text).filterMap Component.name?

/-- `PathBuf::push`: an absolute path replaces the base, another is put behind a slash. -/
def pushText (base path : String) : String :=
  if path.toList.head? = some '/' then path
  else if base = "" ∨ base.toList.getLast? = some '/' then base ++ path
  else base ++ "/" ++ path

/-! ## The components of a text -/

/-- Behind the beginning there is neither root nor `.`. -/
theorem mem_bodyOf {cs : List Char} {c : Component} (h : c ∈ bodyOf cs) :
    c = .parentDir ∨ ∃ name, c = .normal name := by
  obtain ⟨part, -, hpart⟩ := List.mem_filterMap.mp h
  unfold componentOf at hpart
  split_ifs at hpart
  · exact Or.inl (Option.some.inj hpart).symm
  · exact Or.inr ⟨_, (Option.some.inj hpart).symm⟩

/-- A path begins with its root exactly if it is absolute. -/
theorem rootDir_mem_pathComponents {text : String} :
    Component.rootDir ∈ pathComponents text ↔ text.toList.head? = some '/' := by
  have hbody : Component.rootDir ∉ bodyOf text.toList := by
    intro h
    rcases mem_bodyOf h with h | ⟨name, h⟩
    · cases h
    · cases h
  rw [pathComponents, List.mem_append, leadOf]
  split_ifs with habs hdot <;> simp [hbody, habs]

theorem windowsPrefix_not_mem_pathComponents (text pre : String) :
    Component.windowsPrefix pre ∉ pathComponents text := by
  intro h
  rcases List.mem_append.mp h with h | h
  · unfold leadOf at h
    split_ifs at h <;> simp at h
  · rcases mem_bodyOf h with h | ⟨name, h⟩
    · cases h
    · cases h

/-- The beginning of a path is no normal component. -/
theorem normalNames_eq (text : String) :
    normalNames text = (bodyOf text.toList).filterMap Component.name? := by
  have hlead : (leadOf text.toList).filterMap Component.name? = [] := by
    unfold leadOf
    split_ifs <;> rfl
  rw [normalNames, pathComponents, List.filterMap_append, hlead, List.nil_append]

/-- Without a `..` all that follows the beginning is normal. -/
theorem bodyOf_eq_map_normal {text : String} (h : Component.parentDir ∉ pathComponents text) :
    bodyOf text.toList = (normalNames text).map .normal := by
  have hnormal : ∀ c ∈ bodyOf text.toList, ∃ name, c = .normal name := by
    intro c hc
    rcases mem_bodyOf hc with rfl | hname
    · exact absurd (List.mem_append_right _ hc) h
    · exact hname
  rw [normalNames_eq]
  generalize bodyOf text.toList = body at hnormal
  induction body with
  | nil => rfl
  | cons c body ih =>
      obtain ⟨name, rfl⟩ := hnormal c List.mem_cons_self
      have hrest := ih fun c hc => hnormal c (List.mem_cons_of_mem _ hc)
      show Component.normal name :: body =
        .normal name :: (body.filterMap Component.name?).map .normal
      rw [← hrest]

theorem dots_not_mem_normalNames (text : String) : ".." ∉ normalNames text := by
  rw [normalNames_eq]
  intro h
  obtain ⟨c, hc, hname⟩ := List.mem_filterMap.mp h
  obtain ⟨part, -, hpart⟩ := List.mem_filterMap.mp hc
  unfold componentOf at hpart
  split_ifs at hpart with hskip hdots
  · cases hpart
    cases hname
  · cases hpart
    have hlist : part = ['.', '.'] := String.ofList_injective (Option.some.inj hname)
    exact hdots hlist

/-! ## Pushing -/

theorem bodyOf_append (a b : List Char) : bodyOf (a ++ '/' :: b) = bodyOf a ++ bodyOf b := by
  rw [bodyOf, List.splitOn_append_cons_self, List.filterMap_append]
  rfl

/-- What stands behind the first slash does not change the beginning. -/
theorem leadOf_append (a b : List Char) : leadOf (a ++ '/' :: b) = leadOf (a ++ ['/']) := by
  have hhead : (a ++ '/' :: b).head? = (a ++ ['/']).head? := by
    cases a <;> rfl
  have hfirst : ((a ++ '/' :: b).splitOn '/').head? = ((a ++ ['/']).splitOn '/').head? := by
    rw [List.splitOn_append_cons_self, List.splitOn_append_cons_self]
    cases hsplit : a.splitOn '/' with
    | nil => exact absurd hsplit (List.splitOn_ne_nil '/' a)
    | cons part parts => rfl
  rw [leadOf, leadOf, hhead, hfirst]

/-- A slash at the end of a path adds nothing to it. -/
theorem leadOf_append_slash {a : List Char} (hne : a ≠ []) : leadOf (a ++ ['/']) = leadOf a := by
  have hhead : (a ++ ['/']).head? = a.head? := by
    cases a with
    | nil => exact absurd rfl hne
    | cons c a => rfl
  have hfirst : ((a ++ ['/']).splitOn '/').head? = (a.splitOn '/').head? := by
    rw [List.splitOn_append_cons_self]
    cases hsplit : a.splitOn '/' with
    | nil => exact absurd hsplit (List.splitOn_ne_nil '/' a)
    | cons part parts => rfl
  rw [leadOf, leadOf, hhead, hfirst]

/-- The components of a path that is not absolute come behind those of the base, without its
own beginning. -/
theorem pathComponents_pushText {base path : String} (hbase : base ≠ "")
    (hrel : path.toList.head? ≠ some '/') :
    pathComponents (pushText base path) = pathComponents base ++ bodyOf path.toList := by
  have hne : base.toList ≠ [] := by
    intro hnil
    exact hbase (String.toList_inj.mp hnil)
  by_cases hslash : base.toList.getLast? = some '/'
  · obtain ⟨init, hinit⟩ := List.getLast?_eq_some_iff.mp hslash
    have htext : (pushText base path).toList = init ++ '/' :: path.toList := by
      rw [pushText, if_neg hrel, if_pos (Or.inr hslash), String.toList_append, hinit]
      simp
    rw [pathComponents, pathComponents, htext, hinit, leadOf_append, bodyOf_append,
      bodyOf_append, List.append_assoc, List.append_assoc]
    rfl
  · have htext : (pushText base path).toList = base.toList ++ '/' :: path.toList := by
      rw [pushText, if_neg hrel, if_neg (not_or.mpr ⟨hbase, hslash⟩), String.toList_append,
        String.toList_append]
      simp
    rw [pathComponents, pathComponents, htext, leadOf_append, leadOf_append_slash hne,
      bodyOf_append, List.append_assoc]

/-! ## The names of a path -/

/-- The name that a component has in a `Path`. -/
def Component.pathName? : Component → Option String
  | .parentDir => some ".."
  | .normal name => some name
  | _ => none

theorem pathName?_componentOf (part : List Char) :
    (componentOf part).bind Component.pathName? =
      if String.ofList part ≠ "" && String.ofList part ≠ "." then some (String.ofList part)
      else none := by
  have hempty : String.ofList part = "" ↔ part = [] :=
    ⟨fun h => String.ofList_injective h, fun h => by rw [h]⟩
  have hdot : String.ofList part = "." ↔ part = ['.'] :=
    ⟨fun h => String.ofList_injective h, fun h => by rw [h]⟩
  unfold componentOf
  split_ifs with hskip hdots hname hname <;> simp_all [Component.pathName?]

/-- A `Path` keeps the names of its text and whether it is absolute. -/
theorem components_new (text : String) :
    (Path.new text).components = (pathComponents text).filterMap Component.pathName? := by
  have hlead : (leadOf text.toList).filterMap Component.pathName? = [] := by
    unfold leadOf
    split_ifs <;> rfl
  rw [pathComponents, List.filterMap_append, hlead, List.nil_append]
  show ((text.toList.splitOn '/').map String.ofList).filter (fun c => c ≠ "" && c ≠ ".") =
    ((text.toList.splitOn '/').filterMap componentOf).filterMap Component.pathName?
  rw [List.filterMap_filterMap, ← List.filterMap_eq_filter, List.filterMap_map]
  congr 1
  funext part
  rw [pathName?_componentOf]
  simp only [Function.comp_apply, Option.guard_apply]

/-- A walk along names goes down. -/
theorem isPrefix_foldl_descend {names : List String} (h : ".." ∉ names) (dir : List String) :
    dir <+: names.foldl Path.descend dir := by
  induction names generalizing dir with
  | nil => exact List.prefix_refl dir
  | cons name names ih =>
      have hname : name ≠ ".." := fun heq => h (heq ▸ List.mem_cons_self)
      have hrest := ih (fun hmem => h (List.mem_cons_of_mem name hmem)) (Path.descend dir name)
      have hstep : Path.descend dir name = dir ++ [name] := if_neg hname
      rw [List.foldl_cons]
      exact (List.prefix_append dir [name]).trans (hstep ▸ hrest)

/-- So a path that goes on with names from another does not leave where that leads. -/
theorem resolve_isPrefix {base path : String} {names : List String}
    (hpath : pathComponents path = pathComponents base ++ names.map .normal)
    (hnames : ".." ∉ names) : (Path.new base).resolve <+: (Path.new path).resolve := by
  have hkept : (names.map Component.normal).filterMap Component.pathName? = names := by
    rw [List.filterMap_map]
    exact List.filterMap_some
  rw [Path.resolve, Path.resolve, components_new, components_new, hpath,
    List.filterMap_append, List.foldl_append, hkept]
  exact isPrefix_foldl_descend hnames _

end MissionOs.Rust
