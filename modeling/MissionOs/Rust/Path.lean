import MissionOs.Rust.Text
import Mathlib.Data.List.AList
import Mathlib.Data.List.Infix
import Mathlib.Data.List.TakeWhile

/-!
# Paths and a file system

`Path` is `std::path::Path` up to the equality that Rust itself uses: two
paths are equal when their components are, so repeated separators, a trailing
separator and the component `.` are dropped.  `..` is a component like any
other until a path is resolved.

`FileSystem` maps a resolved path to the bytes of the regular file there, and
keeps the list of the directories.  There are no symbolic links: resolving a
path is lexical, and a relative path starts at the root, which is the working
directory of a system service.
-/

namespace MissionOs.Rust

/-- A path: whether it starts at the root, and its components. -/
structure Path where
  absolute : Bool
  components : List String
deriving DecidableEq, Repr

namespace Path

/-- `Path::new`. -/
def new (s : String) : Path where
  absolute := s.toList.head? = some '/'
  components := ((s.toList.splitOn '/').map String.ofList).filter
    (fun c => c ≠ "" && c ≠ ".")

/-- `Path::join` of two paths: an absolute second path replaces the first. -/
def append (p q : Path) : Path :=
  if q.absolute then q else { p with components := p.components ++ q.components }

/-- `Path::join`. -/
def join (p : Path) (s : String) : Path := p.append (new s)

/-- `Path::parent`, for a path with no `..` at its end. -/
def parent (p : Path) : Option Path :=
  if p.components = [] then none
  else some { p with components := p.components.dropLast }

/-- `Path::file_name`: the last component, unless that is `..`. -/
def fileName (p : Path) : Option String :=
  p.components.getLast?.filter (· ≠ "..")

/-- `Path::file_stem` of a file name: what stands before its last dot, unless that is
nothing. -/
def stem (name : String) : String :=
  match name.toList.reverse.dropWhile (· ≠ '.') with
  | [] => name
  | _ :: before => if before = [] then name else String.ofList before.reverse

/-- `Path::extension` of a file name: what stands after its last dot, unless nothing stands
before that. -/
def extension (name : String) : Option String :=
  match name.toList.reverse.dropWhile (· ≠ '.') with
  | [] => none
  | _ :: before =>
    if before = [] then none
    else some (String.ofList (name.toList.reverse.takeWhile (· ≠ '.')).reverse)

/-- `Path::with_extension`. -/
def withExtension (p : Path) (ext : String) : Path :=
  match p.fileName with
  | none => p
  | some name => { p with components := p.components.dropLast ++ [stem name ++ "." ++ ext] }

/-- One component of a path read from a directory: `..` leaves it. -/
def descend (dir : List String) (c : String) : List String :=
  if c = ".." then dir.dropLast else dir ++ [c]

/-- `DirEntry::path` of the entry `name` of a directory. -/
def entry (p : Path) (name : String) : Path := { p with components := p.components ++ [name] }

/-- The directory entries that a path walks through, from the root. -/
def resolve (p : Path) : List String := p.components.foldl descend []

/-- The text of a path in a message. -/
def display (p : Path) : String :=
  (if p.absolute then "/" else "") ++ Rust.join "/" p.components

/-- A file name is a path of one component. -/
theorem new_of_fileName {c : String} (hslash : '/' ∉ c.toList) (hne : c ≠ "")
    (hdot : c ≠ ".") : new c = ⟨false, [c]⟩ := by
  have hhead : c.toList.head? ≠ some '/' := fun h => hslash (List.mem_of_mem_head? h)
  have hsplit : c.toList.splitOn '/' = [c.toList] := List.splitOn_eq_singleton hslash
  simp [new, hhead, hsplit, hne, hdot]

/-- Joining a file name adds one component. -/
theorem join_of_fileName (p : Path) {c : String} (hslash : '/' ∉ c.toList) (hne : c ≠ "")
    (hdot : c ≠ ".") : p.join c = { p with components := p.components ++ [c] } := by
  rw [join, new_of_fileName hslash hne hdot]
  rfl

/-- A file name other than `..` is one more directory entry. -/
theorem resolve_join_of_fileName (p : Path) {c : String} (hslash : '/' ∉ c.toList)
    (hne : c ≠ "") (hdot : c ≠ ".") (hdots : c ≠ "..") :
    (p.join c).resolve = p.resolve ++ [c] := by
  rw [join_of_fileName p hslash hne hdot, resolve, List.foldl_append]
  simp [descend, hdots, resolve]

/-- So is a name that begins with another character than a dot. -/
theorem resolve_join_of_head (p : Path) {c : String} {x : Char} (hslash : '/' ∉ c.toList)
    (hhead : c.toList.head? = some x) (hx : x ≠ '.') :
    (p.join c).resolve = p.resolve ++ [c] := by
  apply resolve_join_of_fileName p hslash
  · intro hc
    rw [hc] at hhead
    cases hhead
  · intro hc
    rw [hc] at hhead
    exact hx (Option.some.inj hhead).symm
  · intro hc
    rw [hc] at hhead
    exact hx (Option.some.inj hhead).symm

/-- A path with a file name leads to that name in its directory. -/
theorem resolve_of_fileName {p : Path} {name : String} (h : p.fileName = some name) :
    p.resolve = p.components.dropLast.foldl descend [] ++ [name] := by
  obtain ⟨hlast, hname⟩ := Option.filter_eq_some_iff.mp h
  obtain ⟨dir, hdir⟩ := List.getLast?_eq_some_iff.mp hlast
  rw [resolve, hdir, List.foldl_append, List.dropLast_concat]
  exact if_neg (by simpa using hname)

/-- With a new extension a file keeps its directory, and its name ends in the extension. -/
theorem resolve_withExtension (p : Path) {name ext : String} (h : p.fileName = some name)
    (hext : stem name ++ "." ++ ext ≠ "..") :
    (p.withExtension ext).resolve =
      p.components.dropLast.foldl descend [] ++ [stem name ++ "." ++ ext] := by
  rw [withExtension, h, resolve, List.foldl_append]
  simp [descend, hext]

/-- Whatever a path stands in is its parent or above it. -/
theorem dropLast_resolve_prefix {p dir : Path} (h : p.parent = some dir) :
    p.resolve.dropLast <+: dir.resolve := by
  unfold parent at h
  split_ifs at h with hnil
  cases h
  have hsplit := List.dropLast_append_getLast hnil
  have hresolve : p.resolve = descend (p.components.dropLast.foldl descend [])
      (p.components.getLast hnil) := by
    have hfold := congrArg (List.foldl descend []) hsplit
    rw [List.foldl_append] at hfold
    exact hfold.symm
  rw [hresolve, descend]
  split_ifs
  · exact (List.dropLast_prefix _).trans (List.dropLast_prefix _)
  · rw [List.dropLast_concat]
    exact List.prefix_refl _

/-- With a new extension a file stays where it is. -/
theorem parent_withExtension (p : Path) (ext : String) :
    (p.withExtension ext).parent = p.parent := by
  unfold withExtension
  cases hname : p.fileName with
  | none => rfl
  | some name =>
      have hne : p.components ≠ [] := by
        intro hnil
        simp [fileName, hnil] at hname
      simp [parent, hne]

/-- An entry of a directory is one step below it. -/
theorem resolve_entry (p : Path) {name : String} (h : name ≠ "..") :
    (p.entry name).resolve = p.resolve ++ [name] := by
  rw [entry, resolve, List.foldl_append]
  simp [descend, h, resolve]

theorem fileName_entry (p : Path) {name : String} (h : name ≠ "..") :
    (p.entry name).fileName = some name := by
  simp [fileName, entry, h]

section Dotted

variable {base ext name : String}

theorem ne_dot_of_mem_reverse (h : '.' ∉ ext.toList) :
    ∀ c ∈ ext.toList.reverse, decide (c ≠ '.') = true := by
  intro c hc
  have hne : c ≠ '.' := fun hdot => h (by simpa [hdot] using hc)
  exact decide_eq_true hne

theorem dropWhile_of_no_dot (h : '.' ∉ name.toList) :
    name.toList.reverse.dropWhile (· ≠ '.') = [] :=
  List.dropWhile_eq_nil_iff.mpr (ne_dot_of_mem_reverse h)

/-- A name without a dot is all stem. -/
theorem stem_of_no_dot (h : '.' ∉ name.toList) : stem name = name := by
  rw [stem, dropWhile_of_no_dot h]

theorem extension_of_no_dot (h : '.' ∉ name.toList) : extension name = none := by
  rw [extension, dropWhile_of_no_dot h]

theorem stem_ne_empty (h : name ≠ "") : stem name ≠ "" := by
  unfold stem
  split
  · exact h
  · split_ifs with hnil
    · exact h
    · intro hempty
      have hlist := congrArg String.toList hempty
      simp [hnil] at hlist

/-- The last dot of a name with an extension is the one before the extension. -/
theorem reverse_dotted (base ext : String) :
    (base ++ "." ++ ext).toList.reverse =
      ext.toList.reverse ++ '.' :: base.toList.reverse := by
  simp

theorem dropWhile_dotted (base : String) (hext : '.' ∉ ext.toList) :
    (base ++ "." ++ ext).toList.reverse.dropWhile (· ≠ '.') = '.' :: base.toList.reverse := by
  rw [reverse_dotted, List.dropWhile_append_of_pos (ne_dot_of_mem_reverse hext)]
  simp

/-- What stands before a last dot is the stem. -/
theorem stem_dotted (hbase : base ≠ "") (hext : '.' ∉ ext.toList) :
    stem (base ++ "." ++ ext) = base := by
  rw [stem, dropWhile_dotted base hext]
  simp [hbase]

theorem extension_dotted (hbase : base ≠ "") (hext : '.' ∉ ext.toList) :
    extension (base ++ "." ++ ext) = some ext := by
  have htake : (base ++ "." ++ ext).toList.reverse.takeWhile (· ≠ '.') =
      ext.toList.reverse := by
    rw [reverse_dotted, List.takeWhile_append_of_pos (ne_dot_of_mem_reverse hext)]
    simp
  rw [extension, dropWhile_dotted base hext, htake]
  simp [hbase]

end Dotted

/-- A beginning of a list without `c` is one of what stands before `c`. -/
theorem isPrefixOf_append_cons {α : Type} [BEq α] [LawfulBEq α] {c : α} {pre : List α}
    (hpre : c ∉ pre) (l r : List α) :
    pre.isPrefixOf (l ++ c :: r) = pre.isPrefixOf l := by
  induction pre generalizing l with
  | nil => simp
  | cons a pre ih =>
      have hne : a ≠ c := fun h => hpre (h ▸ List.mem_cons_self)
      cases l with
      | nil => simp [List.isPrefixOf, hne]
      | cons b l =>
          rw [List.cons_append, List.isPrefixOf, List.isPrefixOf,
            ih (fun h => hpre (List.mem_cons_of_mem _ h)) l]

/-- A name and its stem begin alike. -/
theorem isPrefixOf_stem {pre : List Char} (hpre : '.' ∉ pre) (name : String) :
    pre.isPrefixOf (stem name).toList = pre.isPrefixOf name.toList := by
  have hsplit := @List.takeWhile_append_dropWhile Char (· ≠ '.') name.toList.reverse
  unfold stem
  split
  · rfl
  · rename_i dot before hdrop
    split_ifs with hnil
    · rfl
    · have hdot : dot = '.' := by
        have hhead := List.head?_dropWhile_not (fun c : Char => decide (c ≠ '.'))
          name.toList.reverse
        rw [hdrop] at hhead
        simpa using hhead
      rw [hdrop, hdot] at hsplit
      have hname := congrArg List.reverse hsplit
      rw [List.reverse_append, List.reverse_cons, List.reverse_reverse, List.append_assoc,
        List.singleton_append] at hname
      rw [← hname, isPrefixOf_append_cons hpre, String.toList_ofList]

example : (new "/var/cache/e1000e.ko").withExtension "tmp" = new "/var/cache/e1000e.tmp" := by
  decide

end Path

instance lawfulBEqParts : LawfulBEq (List String) := inferInstance

/-- The regular files of a machine, by resolved path, and its directories. -/
structure FileSystem where
  files : AList (fun _ : List String => Bytes)
  dirs : List (List String)

namespace FileSystem

/-- The file system with nothing but the root. -/
def empty : FileSystem := ⟨∅, [[]]⟩

/-- The bytes at a path, if a file is there. -/
def get? (fs : FileSystem) (p : Path) : Option Bytes := fs.files.lookup p.resolve

/-- Whether a path names a directory. -/
def isDir (fs : FileSystem) (p : Path) : Bool := p.resolve ∈ fs.dirs

/-- Whether the directory that a path stands in is there. -/
def parentIsDir (fs : FileSystem) (p : Path) : Bool := p.resolve.dropLast ∈ fs.dirs

/-- Whether a file stands where `p` or a directory above it would be made. -/
def blocks (fs : FileSystem) (p : Path) : Bool :=
  p.resolve.inits.any fun dir => (fs.files.lookup dir).isSome

/-- `Path::exists`. -/
def pathExists (fs : FileSystem) (p : Path) : Bool := (fs.get? p).isSome || fs.isDir p

/-- The file system after the bytes `b` were written to `p`. -/
def write (fs : FileSystem) (p : Path) (b : Bytes) : FileSystem :=
  { fs with files := fs.files.insert p.resolve b }

/-- The file system after the file at `p` was removed. -/
def remove (fs : FileSystem) (p : Path) : FileSystem :=
  { fs with files := fs.files.erase p.resolve }

/-- The file system after `p` and the directories above it were made. -/
def makeDirs (fs : FileSystem) (p : Path) : FileSystem :=
  { fs with dirs := p.resolve.inits ++ fs.dirs }

theorem get?_congr (fs : FileSystem) {p q : Path} (h : p.resolve = q.resolve) :
    fs.get? p = fs.get? q := by
  rw [get?, get?, h]

@[simp] theorem get?_write_self (fs : FileSystem) (p : Path) (b : Bytes) :
    (fs.write p b).get? p = some b := AList.lookup_insert _

theorem lookup_write_of_ne (fs : FileSystem) {p : Path} {l : List String} (b : Bytes)
    (h : l ≠ p.resolve) : (fs.write p b).files.lookup l = fs.files.lookup l :=
  AList.lookup_insert_ne h

theorem lookup_remove_of_ne (fs : FileSystem) {p : Path} {l : List String}
    (h : l ≠ p.resolve) : (fs.remove p).files.lookup l = fs.files.lookup l :=
  AList.lookup_erase_ne h

theorem get?_write (fs : FileSystem) (p q : Path) (b : Bytes) :
    (fs.write p b).get? q = if q.resolve = p.resolve then some b else fs.get? q := by
  split_ifs with h
  · rw [get?_congr _ h, get?_write_self]
  · exact lookup_write_of_ne fs b h

theorem get?_write_of_ne (fs : FileSystem) {p q : Path} (b : Bytes)
    (h : q.resolve ≠ p.resolve) : (fs.write p b).get? q = fs.get? q := by
  rw [get?_write, if_neg h]

@[simp] theorem get?_remove_self (fs : FileSystem) (p : Path) :
    (fs.remove p).get? p = none := AList.lookup_erase _ _

theorem get?_remove_of_ne (fs : FileSystem) {p q : Path}
    (h : q.resolve ≠ p.resolve) : (fs.remove p).get? q = fs.get? q :=
  lookup_remove_of_ne fs h

theorem isDir_makeDirs (fs : FileSystem) (p q : Path) :
    (fs.makeDirs p).isDir q = (decide (q.resolve <+: p.resolve) || fs.isDir q) := by
  simp [isDir, makeDirs, List.mem_inits]

theorem parentIsDir_makeDirs (fs : FileSystem) {p q : Path}
    (h : q.resolve.dropLast <+: p.resolve) : (fs.makeDirs p).parentIsDir q = true := by
  simp [parentIsDir, makeDirs, h, List.mem_inits]

@[simp] theorem get?_makeDirs (fs : FileSystem) (p q : Path) :
    (fs.makeDirs p).get? q = fs.get? q := rfl

theorem pathExists_of_get? {fs : FileSystem} {p : Path} {b : Bytes}
    (h : fs.get? p = some b) : fs.pathExists p = true := by
  rw [pathExists, h]
  rfl

end FileSystem

end MissionOs.Rust
