import MissionOs.Rust.Path

/-!
# Symbolic links

A file system that has symbolic links, and the walk of a path through it.  A walk goes from one
directory entry to the next until it comes to a link; the text of the link then takes the
place of its name, and the walk goes on from there, forty times at most.

Such a part of the walk is a `Leg`.  A leg without a link leads where its names say
(`walkLeg_reached`), so a path leads where the last of its legs says (`walk_reached`).
-/

namespace MissionOs.Rust

/-- What stands at a directory entry. -/
inductive Node where
  | file (data : Bytes)
  | dir
  | link (target : String)
  | other
deriving DecidableEq, Repr

/-- The names on a path as the kernel reads them.  A slash at the end asks for a directory, as
`.` does. -/
def linkNames (text : String) : List String :=
  ((text.toList.splitOn '/').map String.ofList).filter (· ≠ "") ++
    if text.toList.getLast? = some '/' then ["."] else []

/-- The names that are left to walk, from a directory. -/
structure Leg where
  dir : List String
  names : List String
deriving DecidableEq, Repr

/-- One name further: `..` leaves the directory, `.` stays in it. -/
def stepName (dir : List String) (name : String) : List String :=
  if name = "." then dir else Path.descend dir name

/-- Where the names of a leg lead if none of them is a link. -/
def Leg.target (leg : Leg) : List String := leg.names.foldl stepName leg.dir

/-- The leg that begins with a text: at the root if the text begins there. -/
def Leg.ofText (dir : List String) (text : String) : Leg :=
  ⟨if text.toList.head? = some '/' then [] else dir, linkNames text⟩

/-- How a leg ends: at a place, at a link with the leg behind it, or nowhere. -/
inductive LegEnd where
  | reached (place : List String)
  | met (next : Leg)
  | missing
deriving DecidableEq, Repr

/-- A file system with symbolic links: what stands at a place, and the working directory. -/
structure LinkedFs where
  node : List String → Option Node
  workDir : List String

namespace LinkedFs

variable (fs : LinkedFs)

/-- Walk from a directory up to the first link. -/
def walkLeg (dir : List String) : List String → LegEnd
  | [] => .reached dir
  | name :: rest =>
    if name = "." ∨ name = ".." then walkLeg (stepName dir name) rest
    else
      match fs.node (dir ++ [name]) with
      | some .dir => walkLeg (dir ++ [name]) rest
      | some (.link "") => .missing
      | some (.link target) =>
        let next := Leg.ofText dir target
        .met ⟨next.dir, next.names ++ rest⟩
      | some _ => if rest = [] then .reached (dir ++ [name]) else .missing
      | none => .missing

/-- The last leg of a walk over so many links at most. -/
def lastLeg : Nat → Leg → Option Leg
  | links, leg =>
    match fs.walkLeg leg.dir leg.names with
    | .reached _ => some leg
    | .missing => none
    | .met next =>
      match links with
      | 0 => none
      | links + 1 => lastLeg links next

/-- How many links a walk follows. -/
def maxLinks : Nat := 40

/-- The first leg of a path. -/
def firstLeg (text : String) : Leg := Leg.ofText fs.workDir text

/-- The last leg of a path, if it leads anywhere. -/
def pathLeg (text : String) : Option Leg :=
  if text = "" then none else fs.lastLeg maxLinks (fs.firstLeg text)

/-- What stands at a place; at the root stands a directory. -/
def nodeAt (place : List String) : Option Node :=
  if place = [] then some .dir else fs.node place

/-- What a path denotes, with all links followed. -/
def stat (text : String) : Option Node :=
  (fs.pathLeg text).bind fun leg => fs.nodeAt leg.target

variable {fs}

/-- A leg that meets no link is the last one. -/
theorem lastLeg_eq_self {links : Nat} {leg last : Leg} (h : fs.lastLeg links leg = some last)
    (hlink : ∀ next, fs.walkLeg leg.dir leg.names ≠ .met next) : last = leg := by
  unfold lastLeg at h
  split at h
  · exact (Option.some.inj h).symm
  · cases h
  · rename_i next hnext
    exact absurd hnext (hlink next)

end LinkedFs

/-! ## Names in a text -/

/-- The components of a path, from its characters. -/
def componentsOf (cs : List Char) : List String :=
  ((cs.splitOn '/').map String.ofList).filter fun c => c ≠ "" && c ≠ "."

theorem componentsOf_new (text : String) : (Path.new text).components = componentsOf text.toList :=
  rfl

theorem componentsOf_append (a b : List Char) :
    componentsOf (a ++ '/' :: b) = componentsOf a ++ componentsOf b := by
  rw [componentsOf, List.splitOn_append_cons_self, List.map_append, List.filter_append]
  rfl

theorem componentsOf_cons (b : List Char) : componentsOf ('/' :: b) = componentsOf b :=
  componentsOf_append [] b

/-- A name is one component. -/
theorem componentsOf_name {name : List Char} (hslash : '/' ∉ name) (hne : name ≠ [])
    (hdot : name ≠ ['.']) : componentsOf name = [String.ofList name] := by
  have hempty : String.ofList name ≠ "" := by
    intro h
    have hlist := congrArg String.toList h
    rw [String.toList_ofList] at hlist
    exact hne hlist
  have hself : String.ofList name ≠ "." := by
    intro h
    have hlist := congrArg String.toList h
    rw [String.toList_ofList] at hlist
    exact hdot hlist
  rw [componentsOf, List.splitOn_eq_singleton hslash]
  simp [hempty, hself]

theorem containsText_iff {haystack needle : String} :
    containsText haystack needle = true ↔ needle.toList <:+: haystack.toList := by
  rw [containsText, List.any_eq_true]
  constructor
  · intro h
    obtain ⟨tail, htail, hbegin⟩ := h
    exact (List.isPrefixOf_iff_prefix.mp hbegin).isInfix.trans
      ((List.mem_tails _ _).mp htail).isInfix
  · intro h
    obtain ⟨pre, post, h⟩ := h
    refine ⟨needle.toList ++ post, (List.mem_tails _ _).mpr ⟨pre, ?_⟩, ?_⟩
    · rw [← List.append_assoc, h]
    · exact List.isPrefixOf_iff_prefix.mpr (List.prefix_append _ _)

/-- A part of a text that is split stands in it. -/
theorem infix_of_mem_splitOn {sep : Char} {s part : List Char} (h : part ∈ s.splitOn sep) :
    part <:+: s := by
  have hjoin := @List.intercalate_splitOn Char s _ _ sep
  generalize s.splitOn sep = parts at h hjoin
  subst hjoin
  induction parts with
  | nil => cases h
  | cons first parts ih =>
      cases parts with
      | nil =>
          rw [List.mem_singleton.mp h, List.intercalate_singleton]
      | cons next parts =>
          rw [List.intercalate_cons_cons]
          rcases List.mem_cons.mp h with rfl | h
          · exact ⟨[], [sep] ++ [sep].intercalate (next :: parts), by simp⟩
          · exact (ih h).trans (List.suffix_append _ _).isInfix

/-- Without `..` the names of a path lead where its components say. -/
theorem foldl_stepName {names dir : List String} (h : ".." ∉ names) :
    names.foldl stepName dir = dir ++ names.filter (· ≠ ".") := by
  induction names generalizing dir with
  | nil => simp
  | cons name names ih =>
      rw [List.mem_cons, not_or] at h
      obtain ⟨hname, hnames⟩ := h
      rw [List.foldl_cons, ih hnames]
      by_cases hdot : name = "."
      · rw [stepName, if_pos hdot, List.filter_cons_of_neg (by simp [hdot])]
      · rw [stepName, if_neg hdot, Path.descend, if_neg (Ne.symm hname),
          List.filter_cons_of_pos (by simpa using hdot), List.append_assoc]
        rfl

/-- An absolute path without `..` leads, if it meets no link, where its components say. -/
theorem target_ofText {text : String} (hhead : text.toList.head? = some '/')
    (hdots : containsText text ".." = false) (dir : List String) :
    (Leg.ofText dir text).target = componentsOf text.toList := by
  have hnames : ".." ∉ linkNames text := by
    intro hmem
    rcases List.mem_append.mp hmem with hmem | hmem
    · obtain ⟨part, hpart, heq⟩ := List.mem_map.mp (List.mem_filter.mp hmem).1
      have hinfix := infix_of_mem_splitOn hpart
      have hlist : part = "..".toList := by rw [← heq, String.toList_ofList]
      rw [hlist] at hinfix
      rw [containsText_iff.mpr hinfix] at hdots
      cases hdots
    · split_ifs at hmem
      · exact absurd (List.mem_singleton.mp hmem) (by decide)
      · exact absurd hmem List.not_mem_nil
  have hslash : (if text.toList.getLast? = some '/' then ["."] else []).filter (· ≠ ".") =
      ([] : List String) := by
    split_ifs <;> rfl
  rw [Leg.target, Leg.ofText, if_pos hhead, foldl_stepName hnames, List.nil_append, linkNames,
    List.filter_append, hslash, List.append_nil, List.filter_filter, componentsOf]
  congr 1
  funext c
  simp [Bool.and_comm]

end MissionOs.Rust
