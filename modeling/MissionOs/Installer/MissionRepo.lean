import MissionOs.Lib.Attempt
import MissionOs.Lib.Listing
import MissionOs.Rust.Text
import Mathlib.Data.List.Infix
import Mathlib.Data.List.Sort

/-!
# Staging the package repository

`run` of the installer's step that copies the repository from the medium into the target system
and then tells `apt` about the copy.  The target is a tree of files, the repository a listing: the
order of `scandir` is the order of the listing.

Anything may fail, and a fault is named by the place in the target at which it shows: a directory
is not made, a directory of the medium is not listed, a file is not copied or only the beginning of
it is, the attributes are not copied.  `copytree` goes on after a fault and raises at its end, the
loop of `run` raises at once.  The root is a directory, and there are no links.

What the step does is a plan (`planned`), and each part of it takes care of a piece of the plan.
-/

namespace MissionOs.Installer.Repo

open MissionOs.Lib MissionOs.Rust

/-- The target system, with the bytes of its files. -/
abbrev Tree := FileTree Bytes

/-- The tree after a step, and where it raised an exception. -/
abbrev Outcome := Attempt Tree Place

/-- What fails. -/
structure Faults where
  refuses : Place → Bool
  unlisted : Place → Bool
  writes : Place → WriteOutcome
  unstamped : Place → Bool

/-! ## Directories and files -/

/-- `os.mkdir`, where a directory that is there is good enough. -/
def makeDirectory (f : Faults) (t : Tree) (q : Place) : Outcome :=
  if t.isdir q then ⟨t, none⟩
  else if t.isfile q || f.refuses q then ⟨t, some q⟩
  else ⟨t.mkdir q, none⟩

/-- `os.makedirs` with `exist_ok`. -/
def makedirs (f : Faults) (t : Tree) (q : Place) : Outcome :=
  Attempt.forEach (makeDirectory f) t q.inits

/-- `scandir` and `listdir` of the directory that is copied to `q`. -/
def listDirectory (f : Faults) (q : Place) (t : Tree) : Outcome :=
  ⟨t, if f.unlisted q then some q else none⟩

/-- `shutil.copystat`. -/
def copystat (f : Faults) (q : Place) (t : Tree) : Outcome :=
  ⟨t, if f.unstamped q then some q else none⟩

/-- A file is opened for writing and written. -/
def writeFile (f : Faults) (c : Bytes) (q : Place) (t : Tree) : Outcome :=
  if t.isdir q || !t.isdir q.dropLast then ⟨t, some q⟩
  else
    match f.writes q with
    | .done => ⟨t.put q c, none⟩
    | .refused => ⟨t, some q⟩
    | .cut n => ⟨t.put q (c.take n), some q⟩

/-- `shutil.copy2` of a file `name` to `q`, or into the directory that is there. -/
def copy2 (f : Faults) (c : Bytes) (name : String) (q : Place) (t : Tree) : Outcome :=
  let q := if t.isdir q then q ++ [name] else q
  (writeFile f c q t).andThen (copystat f q)

/-- `shutil.copytree` with `dirs_exist_ok`, with the loop over the entries. -/
def copyDirectory (f : Faults) (q : Place) (copyEntries : Tree → Outcome) (t : Tree) : Outcome :=
  (listDirectory f q t).andThen fun t =>
    (makedirs f t q).andThen fun t => (copyEntries t).collect (copystat f q)

/-- The loop of `copytree`, which collects the errors. -/
def copyEntries (f : Faults) : Listing Bytes → Place → Tree → Outcome
  | .nil, _, t => ⟨t, none⟩
  | .file name c rest, q, t =>
      (copy2 f c name (q ++ [name]) t).collect (copyEntries f rest q)
  | .dir name entries rest, q, t =>
      (copyDirectory f (q ++ [name]) (copyEntries f entries (q ++ [name])) t).collect
        (copyEntries f rest q)

/-- `shutil.copytree`. -/
def copytree (f : Faults) (entries : Listing Bytes) (q : Place) (t : Tree) : Outcome :=
  copyDirectory f q (copyEntries f entries q) t

/-! ## The function -/

/-- The directories on the medium. -/
abbrev Medium := String → Option (Folder Bytes)

/-- `MEDIUM_REPO_CANDIDATES`. -/
def mediumRepoCandidates : List String :=
  ["/opt/mission/repo", "/run/live/medium/mission/repo", "/media/mission/repo",
    "/mnt/mission/repo"]

/-- `TARGET_REPO_DIR`. -/
def targetRepoDir : Place := ["var", "cache", "mission", "repo"]

/-- `APT_SOURCE_FILE`. -/
def aptSourceFile : Place := ["etc", "apt", "sources.list.d", "mission-local.list"]

/-- `APT_SOURCE_LINE`. -/
def aptSourceLine : String := "deb [trusted=yes] file:/var/cache/mission/repo ./\n"

/-- `_find_repo`. -/
def findRepo (medium : Medium) : Option (Folder Bytes) := mediumRepoCandidates.findSome? medium

/-- What is done with one entry of the repository. -/
def copyEntry (f : Faults) (entries : Listing Bytes) (t : Tree) (name : String) : Outcome :=
  match entries.item name with
  | none => ⟨t, none⟩
  | some (.dir inner) => copytree f inner (targetRepoDir ++ [name]) t
  | some (.file c) => copy2 f c name (targetRepoDir ++ [name]) t

/-- The names in the order of `sorted`. -/
def sorted (names : List String) : List String :=
  names.insertionSort fun a b => (strCmp a.toList b.toList).isLE = true

/-- The local copy. -/
def copyRepo (f : Faults) (repo : Folder Bytes) (t : Tree) : Outcome :=
  (makedirs f t targetRepoDir).andThen fun t =>
    (listDirectory f targetRepoDir t).andThen fun t =>
      Attempt.forEach (copyEntry f repo.entries) t (sorted repo.entries.names)

/-- The list of the source. -/
def writeSource (f : Faults) (t : Tree) : Outcome :=
  (makedirs f t aptSourceFile.dropLast).andThen (writeFile f (utf8 aptSourceLine) aptSourceFile)

/-- The part of `run` that writes. -/
def stageRepo (f : Faults) (repo : Folder Bytes) (t : Tree) : Outcome :=
  (copyRepo f repo t).andThen (writeSource f)

/-- `run`.  What `apt-get update` does to the tree is a parameter; its exit code is only
printed. -/
def run (medium : Medium) (f : Faults) (aptGetUpdate : Tree → Tree) (t : Tree) : Outcome :=
  match findRepo medium with
  | none => ⟨t, none⟩
  | some repo =>
      if repo.entries.isfile "Packages" then
        (stageRepo f repo t).andThen fun t => ⟨aptGetUpdate t, none⟩
      else ⟨t, none⟩

/-! ## What a fault stops -/

/-- What the step takes care of: that something stands at a place, that a directory is listed, and
that attributes are copied. -/
inductive Duty where
  | node (q : Place)
  | listing (q : Place)
  | stamp (q : Place)
deriving DecidableEq, Repr

def Duty.place : Duty → Place
  | node q | listing q | stamp q => q

/-- What is seen of it in the tree. -/
def seen (t : Tree) : Duty → Option (FileNode Bytes)
  | .node q => t.node q
  | .listing _ | .stamp _ => some .dir

/-- Both are files, or both are directories. -/
def SameKind : FileNode Bytes → FileNode Bytes → Prop
  | .file _, .file _ => True
  | .dir, .dir => True
  | _, _ => False

/-- Nothing stops it, where `v` is seen before. -/
def Goes (f : Faults) (v : Option (FileNode Bytes)) : Duty → FileNode Bytes → Prop
  | .node q, .dir => v = some .dir ∨ v = none ∧ f.refuses q = false
  | .node q, .file _ => v ≠ some .dir ∧ f.writes q = .done
  | .listing q, _ => f.unlisted q = false
  | .stamp q, _ => f.unstamped q = false

/-- How the step writes. -/
def writing (f : Faults) : Writing Tree Duty (FileNode Bytes) where
  look := seen
  begun := SameKind
  goes := Goes f
  begun_self n := by cases n <;> trivial
  goes_begun v d n n' hbegun hgoes := by
    cases d with
    | node q =>
        cases n with
        | file c =>
            cases n' with
            | file c' => exact ⟨by simp, hgoes.2⟩
            | dir => exact hbegun.elim
        | dir =>
            cases n' with
            | file c' => exact hbegun.elim
            | dir => exact Or.inl rfl
    | listing q => exact hgoes
    | stamp q => exact hgoes

/-! ## The parts of the step -/

section Parts

variable {f : Faults} {t t₀ : Tree} {q : Place}

/-- A tree with one more thing. -/
theorem toward_insert {n n' : FileNode Bytes} (hdir : t.isdir q.dropLast = true)
    (hfree : t.isdir q = false) (hkind : SameKind n n') :
    (writing f).Toward (Plan.just (.node q) n) t (t.insert q n') := by
  intro d
  cases d with
  | node p =>
      show (t.insert q n').node p = t.node p ∨ _
      rw [FileTree.node_insert hdir hfree]
      split_ifs with hpq
      · exact Or.inr ⟨n, n', ⟨congrArg Duty.node hpq, rfl⟩, hkind,
          (FileTree.node_insert hdir hfree n' p).trans (if_pos hpq)⟩
      · exact Or.inl rfl
  | listing p => exact Or.inl rfl
  | stamp p => exact Or.inl rfl

theorem takes_makeDirectory (hdir : t.isdir q.dropLast = true) :
    (writing f).Takes (Plan.just (.node q) .dir) t (makeDirectory f t q) := by
  rw [makeDirectory]
  split_ifs with hq hstop
  · have hnode := FileTree.isdir_iff.mp hq
    exact
      { toward := Writing.Toward.refl _ _ _
        done := by
          rintro - d n ⟨rfl, rfl⟩
          exact hnode
        raised := by
          refine iff_of_true rfl ?_
          rintro d n ⟨rfl, rfl⟩
          exact Or.inl hnode }
  · exact
      { toward := Writing.Toward.refl _ _ _
        done := nofun
        raised := by
          refine iff_of_false nofun ?_
          intro hall
          rcases hall (.node q) .dir ⟨rfl, rfl⟩ with hnode | ⟨hnode, hrefuses⟩
          · exact hq (FileTree.isdir_iff.mpr hnode)
          · rw [hrefuses, Bool.or_false, FileTree.isfile_iff] at hstop
            obtain ⟨c, hc⟩ := hstop
            have hnone : t.node q = none := hnode
            rw [hnone] at hc
            cases hc }
  · have hfree : t.isdir q = false := by simpa using hq
    have hadded (p : Place) := FileTree.node_insert hdir hfree FileNode.dir p
    exact
      { toward := toward_insert hdir hfree trivial
        done := by
          rintro - d n ⟨rfl, rfl⟩
          exact (hadded q).trans (if_pos rfl)
        raised := by
          refine iff_of_true rfl ?_
          rintro d n ⟨rfl, rfl⟩
          right
          rw [Bool.or_eq_true, not_or] at hstop
          refine ⟨?_, by simpa using hstop.2⟩
          by_contra hnode
          rcases FileTree.isfile_or_isdir hnode with h | h
          · exact hstop.1 h
          · exact hq h }

theorem takes_writeFile {c : Bytes} (hdir : t.isdir q.dropLast = true) :
    (writing f).Takes (Plan.just (.node q) (.file c)) t (writeFile f c q t) := by
  rw [writeFile, hdir, Bool.not_true, Bool.or_false]
  split_ifs with hq
  · exact
      { toward := Writing.Toward.refl _ _ _
        done := nofun
        raised := by
          refine iff_of_false nofun ?_
          intro hall
          exact (hall (.node q) (.file c) ⟨rfl, rfl⟩).1 (FileTree.isdir_iff.mp hq) }
  · have hfree : t.isdir q = false := by simpa using hq
    have hstops (h : f.writes q ≠ .done) :
        ¬ ∀ d n, Plan.just (Duty.node q) (FileNode.file c) d n → Goes f (seen t d) d n :=
      fun hall => h (hall (.node q) (.file c) ⟨rfl, rfl⟩).2
    cases hwrites : f.writes q with
    | done =>
        exact
          { toward := toward_insert hdir hfree trivial
            done := by
              rintro - d n ⟨rfl, rfl⟩
              exact (FileTree.node_insert hdir hfree _ q).trans (if_pos rfl)
            raised := by
              refine iff_of_true rfl ?_
              rintro d n ⟨rfl, rfl⟩
              exact ⟨fun hnode => hq (FileTree.isdir_iff.mpr hnode), hwrites⟩ }
    | refused =>
        exact
          { toward := Writing.Toward.refl _ _ _
            done := nofun
            raised := iff_of_false nofun (hstops (hwrites ▸ nofun)) }
    | cut n =>
        exact
          { toward := toward_insert hdir hfree trivial
            done := nofun
            raised := iff_of_false nofun (hstops (hwrites ▸ nofun)) }

/-- A check that leaves the tree as it is. -/
theorem takes_check {d : Duty} {fails : Bool} (hseen : seen t d = some .dir)
    (hgoes : Goes f (seen t d) d .dir ↔ fails = false) :
    (writing f).Takes (Plan.just d .dir) t (⟨t, if fails then some q else none⟩ : Outcome) where
  toward := Writing.Toward.refl _ _ _
  done := by
    rintro - d' n ⟨rfl, rfl⟩
    exact hseen
  raised := by
    constructor
    · rintro hend d' n ⟨rfl, rfl⟩
      exact hgoes.mpr (by simpa using hend)
    · intro hall
      have hpasses := hgoes.mp (hall d .dir ⟨rfl, rfl⟩)
      simp [hpasses]

theorem takes_listDirectory :
    (writing f).Takes (Plan.just (.listing q) .dir) t (listDirectory f q t) :=
  takes_check rfl Iff.rfl

theorem takes_copystat : (writing f).Takes (Plan.just (.stamp q) .dir) t (copystat f q t) :=
  takes_check rfl Iff.rfl

/-- The directories on the way to a place, and that place. -/
def parents (q : Place) : Plan Duty (FileNode Bytes) :=
  fun d n => n = .dir ∧ ∃ p, d = .node p ∧ p <+: q

theorem agrees_parents (q q' : Place) : (parents q).Agrees (parents q') := by
  rintro d n n' ⟨rfl, -⟩ ⟨rfl, -⟩
  rfl

theorem parents_self (q : Place) : parents q (.node q) .dir := ⟨rfl, q, rfl, List.prefix_rfl⟩

theorem isPrefix_of_parents {r : Place} {n : FileNode Bytes} (h : parents q (.node r) n) :
    r <+: q := by
  obtain ⟨-, p, hr, hp⟩ := h
  exact Duty.node.inj hr ▸ hp

/-- Where a file is below a place, no directory on the way to the place is to be made. -/
theorem not_parents_of_file {l : Listing Bytes} {p : Place} {c : Bytes} {n : FileNode Bytes}
    (hp : l.node p = some (.file c)) : ¬ parents q (.node (q ++ p)) n := by
  intro h
  have hself : q = q ++ p :=
    (List.prefix_append q p).eq_of_length_le (isPrefix_of_parents h).length_le
  rw [List.self_eq_append_right.mp hself, Listing.node_nil] at hp
  cases hp

theorem makedirs_append (f : Faults) (t : Tree) (q : Place) (name : String) :
    makedirs f t (q ++ [name]) =
      (makedirs f t q).andThen fun t => makeDirectory f t (q ++ [name]) := by
  rw [makedirs, List.inits_append, Attempt.forEach_append]
  congr 1
  funext t
  exact Attempt.forEach_singleton (makeDirectory f) t (q ++ [name])

theorem takes_makedirs : (writing f).Takes (parents q) t (makedirs f t q) := by
  induction q using List.reverseRecOn with
  | nil =>
      have hroot : t.isdir [] = true := FileTree.isdir_iff.mpr t.root
      show (writing f).Takes _ t (Attempt.forEach (makeDirectory f) t [[]])
      rw [Attempt.forEach_singleton]
      refine (takes_makeDirectory hroot).congr fun d n => ?_
      simp only [Plan.just, parents, List.prefix_nil, and_comm, exists_eq_left]
  | append_singleton q name ih =>
      rw [makedirs_append]
      have hlast (hend : (makedirs f t q).raised = none) :
          (writing f).Takes (Plan.just (.node (q ++ [name])) .dir) (makedirs f t q).state
            (makeDirectory f (makedirs f t q).state (q ++ [name])) := by
        apply takes_makeDirectory
        rw [List.dropLast_concat]
        exact FileTree.isdir_iff.mpr (ih.done hend (.node q) .dir (parents_self q))
      refine (ih.andThen hlast ?_).congr fun d n => ?_
      · rintro d n n' ⟨rfl, -⟩ ⟨-, rfl⟩
        rfl
      · simp only [Plan.both, Plan.just, parents, List.prefix_concat_iff]
        constructor
        · rintro (⟨rfl, p, rfl, hp⟩ | ⟨rfl, rfl⟩)
          · exact ⟨rfl, p, rfl, Or.inr hp⟩
          · exact ⟨rfl, _, rfl, Or.inl rfl⟩
        · rintro ⟨rfl, p, rfl, rfl | hp⟩
          · exact Or.inr ⟨rfl, rfl⟩
          · exact Or.inl ⟨rfl, p, rfl, hp⟩

theorem isdir_of_makedirs (hend : (makedirs f t q).raised = none) :
    (makedirs f t q).state.isdir q = true :=
  FileTree.isdir_iff.mpr (takes_makedirs.done hend (.node q) .dir (parents_self q))

theorem isdir_of_isPrefix {p : Place} (hpq : p <+: q) (hq : t.isdir q = true) :
    t.isdir p = true := by
  obtain ⟨rest, rfl⟩ := hpq
  cases rest with
  | nil => rwa [List.append_nil] at hq
  | cons name rest =>
      rw [FileTree.isdir_iff] at hq
      exact FileTree.isdir_of_below (hq ▸ Option.some_ne_none _)

/-- In a directory that is there, only the last one is made. -/
theorem takes_makedirs_in {name : String} (hq : t.isdir q = true) :
    (writing f).Takes (Plan.just (.node (q ++ [name])) .dir) t (makedirs f t (q ++ [name])) := by
  have hidle : makedirs f t q = ⟨t, none⟩ := by
    apply Attempt.forEach_of_idle
    intro p hp
    rw [makeDirectory, if_pos (isdir_of_isPrefix ((List.mem_inits _ _).mp hp) hq)]
  rw [makedirs_append, hidle]
  apply takes_makeDirectory
  rwa [List.dropLast_concat]

/-- Where a file lands that is copied to a place. -/
def landing (t : Tree) (q : Place) : Place := if t.isdir q then q ++ [q.getLastD ""] else q

theorem isPrefix_landing (t : Tree) (q : Place) : q <+: landing t q := by
  rw [landing]
  split_ifs
  · exact List.prefix_append _ _
  · exact List.prefix_rfl

/-- The plan for one file. -/
def fileCopy (t : Tree) (q : Place) (c : Bytes) : Plan Duty (FileNode Bytes) :=
  (Plan.just (.node (landing t q)) (.file c)).both (Plan.just (.stamp (landing t q)) .dir)

theorem takes_copy2 {c : Bytes} {name : String} (hdir : t.isdir q = true)
    (hsame : t.isdir (q ++ [name]) = t₀.isdir (q ++ [name])) :
    (writing f).Takes (fileCopy t₀ (q ++ [name]) c) t (copy2 f c name (q ++ [name]) t) := by
  have hlanding : landing t₀ (q ++ [name]) =
      if t.isdir (q ++ [name]) then q ++ [name] ++ [name] else q ++ [name] := by
    rw [landing, hsame, List.getLastD_concat]
  rw [fileCopy, hlanding, copy2]
  have hparent : t.isdir
      (if t.isdir (q ++ [name]) then q ++ [name] ++ [name] else q ++ [name]).dropLast = true := by
    split_ifs with hinside
    · rwa [List.dropLast_concat]
    · rwa [List.dropLast_concat]
  refine (takes_writeFile hparent).andThen (fun _ => takes_copystat) ?_
  apply Plan.agrees_of_apart
  rintro d n n' ⟨rfl, -⟩ ⟨h, -⟩
  cases h

/-! ## Copying directories -/

/-- The plan for one directory, by the plan for what is in it. -/
def directoryCopy (q : Place) (inner : Plan Duty (FileNode Bytes)) : Plan Duty (FileNode Bytes) :=
  (Plan.just (.listing q) .dir).both
    ((Plan.just (.node q) .dir).both (inner.both (Plan.just (.stamp q) .dir)))

/-- The plan for what is in a directory, which is copied to `q`. -/
def copies (t : Tree) : Listing Bytes → Place → Plan Duty (FileNode Bytes)
  | .nil, _ => Plan.nothing
  | .file name c rest, q => (fileCopy t (q ++ [name]) c).both (copies t rest q)
  | .dir name entries rest, q =>
      (directoryCopy (q ++ [name]) (copies t entries (q ++ [name]))).both (copies t rest q)

/-- All duties of a plan are about a place or about places below it. -/
def Under (q : Place) (plan : Plan Duty (FileNode Bytes)) : Prop := ∀ d n, plan d n → q <+: d.place

theorem agrees_of_under {plan plan' : Plan Duty (FileNode Bytes)} {name name' : String}
    (h : Under (q ++ [name]) plan) (h' : Under (q ++ [name']) plan') (hne : name ≠ name') :
    plan.Agrees plan' := by
  apply Plan.agrees_of_apart
  intro d n n' hd hd'
  have hboth := List.prefix_of_prefix_length_le (h d n hd) (h' d n' hd') (by simp)
  have heq := hboth.eq_of_length (by simp)
  exact hne (by simpa using heq)

/-- All duties of a plan are directories on the way to a place, or about `root` or places below
it. -/
def Spans (dir root : Place) (plan : Plan Duty (FileNode Bytes)) : Prop :=
  ∀ d n, plan d n → parents dir d n ∨ root <+: d.place

section Spans

variable {plan plan' : Plan Duty (FileNode Bytes)} {dir root dir' root' : Place}

theorem Spans.both (h : Spans dir root plan) (h' : Spans dir root plan') :
    Spans dir root (plan.both plan') := by
  rintro d n (hd | hd)
  · exact h d n hd
  · exact h' d n hd

theorem spans_parents (dir root : Place) : Spans dir root (parents dir) := fun _ _ h => Or.inl h

theorem Under.spans (h : Under root plan) (dir : Place) : Spans dir root plan :=
  fun d n hd => Or.inr (h d n hd)

/-- Two plans whose roots are apart, and not on the way of the other, share directories only. -/
theorem Spans.agrees (h : Spans dir root plan) (h' : Spans dir' root' plan')
    (hdir : ¬ root <+: dir') (hdir' : ¬ root' <+: dir) (hroot : ¬ root <+: root')
    (hroot' : ¬ root' <+: root) : plan.Agrees plan' := by
  intro d n n' hd hd'
  rcases h d n hd with ⟨rfl, p, rfl, hp⟩ | hbelow
  · rcases h' _ n' hd' with ⟨rfl, -⟩ | hbelow'
    · rfl
    · exact absurd (hbelow'.trans hp) hdir'
  · rcases h' d n' hd' with ⟨-, p, rfl, hp⟩ | hbelow'
    · exact absurd (hbelow.trans hp) hdir
    · rcases List.prefix_or_prefix_of_prefix hbelow hbelow' with hpre | hpre
      · exact absurd hpre hroot
      · exact absurd hpre hroot'

/-- What is below another root is not planned. -/
theorem Spans.not_node (h : Spans dir root plan) {q : Place} {n : FileNode Bytes}
    (hdir : ¬ root' <+: dir) (hroot : ¬ root <+: root') (hroot' : ¬ root' <+: root)
    (hq : root' <+: q) : ¬ plan (.node q) n := by
  intro hn
  rcases h _ n hn with hparents | hbelow
  · exact hdir (hq.trans (isPrefix_of_parents hparents))
  · rcases List.prefix_or_prefix_of_prefix hbelow hq with hpre | hpre
    · exact hroot hpre
    · exact hroot' hpre

end Spans

theorem under_fileCopy (t : Tree) (q : Place) (c : Bytes) : Under q (fileCopy t q c) := by
  rintro d n (⟨rfl, -⟩ | ⟨rfl, -⟩)
  · exact isPrefix_landing t q
  · exact isPrefix_landing t q

theorem exists_of_copies {l : Listing Bytes} {d : Duty} {n : FileNode Bytes}
    (h : copies t l q d n) : ∃ name ∈ l.names, q ++ [name] <+: d.place := by
  induction l generalizing q with
  | nil => exact h.elim
  | file name c rest ih =>
      rcases h with h | h
      · exact ⟨name, List.mem_cons_self, under_fileCopy t _ c d n h⟩
      · obtain ⟨key, hkey, hpre⟩ := ih h
        exact ⟨key, List.mem_cons_of_mem name hkey, hpre⟩
  | dir name entries rest ihin ih =>
      rcases h with h | h
      · refine ⟨name, List.mem_cons_self, ?_⟩
        rcases h with ⟨rfl, -⟩ | ⟨rfl, -⟩ | h | ⟨rfl, -⟩
        · exact List.prefix_rfl
        · exact List.prefix_rfl
        · obtain ⟨key, -, hpre⟩ := ihin h
          exact (List.prefix_append _ [key]).trans hpre
        · exact List.prefix_rfl
      · obtain ⟨key, hkey, hpre⟩ := ih h
        exact ⟨key, List.mem_cons_of_mem name hkey, hpre⟩

theorem under_copies (t : Tree) (l : Listing Bytes) (q : Place) : Under q (copies t l q) := by
  intro d n hd
  obtain ⟨name, -, hpre⟩ := exists_of_copies hd
  exact (List.prefix_append q [name]).trans hpre

/-- What is in a directory is below it. -/
theorem ne_of_copies {l : Listing Bytes} {d : Duty} {n : FileNode Bytes} (h : copies t l q d n) :
    d.place ≠ q := by
  intro heq
  obtain ⟨name, -, hpre⟩ := exists_of_copies h
  have hlength := hpre.length_le
  rw [heq, List.length_append, List.length_singleton] at hlength
  omega

theorem under_directoryCopy (t : Tree) (entries : Listing Bytes) (q : Place) :
    Under q (directoryCopy q (copies t entries q)) := by
  rintro d n (⟨rfl, -⟩ | ⟨rfl, -⟩ | h | ⟨rfl, -⟩)
  · exact List.prefix_rfl
  · exact List.prefix_rfl
  · exact under_copies t entries q d n h
  · exact List.prefix_rfl

/-- The plan for one entry agrees with that for the others. -/
theorem agrees_copies {plan : Plan Duty (FileNode Bytes)} {l : Listing Bytes} {name : String}
    (h : Under (q ++ [name]) plan) (hname : name ∉ l.names) : plan.Agrees (copies t l q) := by
  intro d n n' hd hd'
  obtain ⟨key, hkey, hpre⟩ := exists_of_copies hd'
  have hne : name ≠ key := fun heq => hname (heq ▸ hkey)
  have hkeyed : Under (q ++ [key]) (Plan.just d n') := by
    rintro d' n'' ⟨rfl, -⟩
    exact hpre
  exact agrees_of_under h hkeyed hne d n n' hd ⟨rfl, rfl⟩

/-- The parts of the plan for one directory agree. -/
theorem agrees_node_copies (t : Tree) (entries : Listing Bytes) (q : Place) :
    (Plan.just (.node q) .dir).Agrees ((copies t entries q).both (Plan.just (.stamp q) .dir)) := by
  apply Plan.agrees_of_apart
  rintro d n n' ⟨rfl, -⟩ (h | ⟨h, -⟩)
  · exact ne_of_copies h rfl
  · cases h

theorem agrees_copies_stamp (t : Tree) (entries : Listing Bytes) (q : Place) :
    (copies t entries q).Agrees (Plan.just (.stamp q) .dir) := by
  apply Plan.agrees_of_apart
  rintro d n n' h ⟨rfl, -⟩
  exact ne_of_copies h rfl

theorem agrees_listing_rest (t : Tree) (entries : Listing Bytes) (q : Place) :
    (Plan.just (.listing q) .dir).Agrees
      ((Plan.just (.node q) .dir).both
        ((copies t entries q).both (Plan.just (.stamp q) .dir))) := by
  apply Plan.agrees_of_apart
  rintro d n n' ⟨rfl, -⟩ (⟨h, -⟩ | h | ⟨h, -⟩)
  · cases h
  · exact ne_of_copies h rfl
  · cases h

/-- A change to one place does not change what kind of thing stands at another one. -/
theorem isdir_of_toward {plan : Plan Duty (FileNode Bytes)} {t' : Tree} {p : Place}
    (h : (writing f).Toward plan t t') (hp : ∀ n, ¬ plan (.node p) n) :
    t'.isdir p = t.isdir p :=
  FileTree.isdir_congr (h.look_eq hp)

/-- Where a file was begun there is no directory. -/
theorem isdir_of_begun_file {p : Place} {c : Bytes} {n : FileNode Bytes}
    (hkind : SameKind (.file c) n) (hnode : t.node p = some n) : t.isdir p = false := by
  cases n with
  | file c' => rw [FileTree.isdir, hnode]
  | dir => exact hkind.elim

/-- A file that is planned for the place itself is planned where there is no directory. -/
theorem fileCopy_self {c : Bytes} {n : FileNode Bytes} (h : fileCopy t q c (.node q) n) :
    t.isdir q = false ∧ n = .file c := by
  rcases h with ⟨hplace, rfl⟩ | ⟨hplace, -⟩
  · refine ⟨?_, rfl⟩
    have hlanding := Duty.node.inj hplace
    rw [landing] at hlanding
    split_ifs at hlanding with hdir
    · rw [List.self_eq_append_right] at hlanding
      cases hlanding
    · simpa using hdir
  · cases hplace

/-- A directory stays one while something below it is copied. -/
theorem isdir_of_under {plan : Plan Duty (FileNode Bytes)} {t' : Tree} {name : String}
    (hunder : Under (q ++ [name]) plan) (htoward : (writing f).Toward plan t t') :
    t'.isdir q = t.isdir q := by
  apply isdir_of_toward htoward
  intro n hn
  have hlength := (hunder _ n hn).length_le
  rw [Duty.place, List.length_append, List.length_singleton] at hlength
  omega

/-- Where files of a directory are to be copied, there is a directory or none as there was at the
beginning. -/
def SameAtFiles (t₀ t : Tree) (l : Listing Bytes) (q : Place) : Prop :=
  ∀ p c, l.node p = some (.file c) → t.isdir (q ++ p) = t₀.isdir (q ++ p)

/-- The entries after the first one, when that is copied. -/
theorem SameAtFiles.rest {plan : Plan Duty (FileNode Bytes)} {t' : Tree} {rest : Listing Bytes}
    {name : String} (h : SameAtFiles t₀ t rest q) (hname : name ∉ rest.names)
    (hplan : Under (q ++ [name]) plan) (htoward : (writing f).Toward plan t t') :
    SameAtFiles t₀ t' rest q := by
  intro p c hp
  rw [isdir_of_toward htoward, h p c hp]
  intro n hn
  obtain ⟨key, hkey, hpre⟩ := Listing.exists_of_node hp
  have hunder := hplan (.node (q ++ p)) n hn
  rw [Duty.place, List.prefix_append_right_inj] at hunder
  have heq := (List.prefix_of_prefix_length_le hunder hpre (by simp)).eq_of_length (by simp)
  rw [List.cons.injEq] at heq
  exact hname (heq.1 ▸ hkey)

/-- A directory is copied if what is in it is. -/
theorem takes_copyDirectory {entries : Listing Bytes} {name : String} {k : Tree → Outcome}
    (hdir : t.isdir q = true) (hsame : SameAtFiles t₀ t entries (q ++ [name]))
    (hk : ∀ t', t'.isdir (q ++ [name]) = true → SameAtFiles t₀ t' entries (q ++ [name]) →
      (writing f).Takes (copies t₀ entries (q ++ [name])) t' (k t')) :
    (writing f).Takes (directoryCopy (q ++ [name]) (copies t₀ entries (q ++ [name]))) t
      (copyDirectory f (q ++ [name]) k t) := by
  refine takes_listDirectory.andThen (fun _ => ?_) (agrees_listing_rest t₀ entries _)
  have hmade : (writing f).Takes (Plan.just (.node (q ++ [name])) .dir) t
      (makedirs f t (q ++ [name])) := takes_makedirs_in hdir
  refine hmade.andThen (fun hend => ?_) (agrees_node_copies t₀ entries _)
  have hthere := FileTree.isdir_iff.mpr (hmade.done hend (.node (q ++ [name])) .dir ⟨rfl, rfl⟩)
  refine (hk _ hthere ?_).collect takes_copystat (agrees_copies_stamp t₀ entries _)
  intro p c hp
  rw [isdir_of_toward hmade.toward, hsame p c hp]
  rintro n ⟨heq, -⟩
  rw [Duty.node.injEq, List.append_right_eq_self] at heq
  rw [heq, Listing.node_nil] at hp
  cases hp

/-- `copytree` takes care of the plan for a directory. -/
theorem takes_copyEntries {l : Listing Bytes} (h : l.Distinct) (hdir : t.isdir q = true)
    (hsame : SameAtFiles t₀ t l q) :
    (writing f).Takes (copies t₀ l q) t (copyEntries f l q t) := by
  induction l generalizing q t with
  | nil => exact Writing.takes_nothing (writing f) t
  | file name c rest ih =>
      have hfirst : (writing f).Takes (fileCopy t₀ (q ++ [name]) c) t
          (copy2 f c name (q ++ [name]) t) :=
        takes_copy2 hdir (hsame [name] c (if_pos rfl))
      have hunder := under_fileCopy t₀ (q ++ [name]) c
      have hrest : SameAtFiles t₀ t rest q :=
        fun p c' hp => hsame p c' (Listing.node_file_of_rest h.1 hp)
      exact hfirst.collect
        (ih h.2 ((isdir_of_under hunder hfirst.toward).trans hdir)
          (hrest.rest h.1 hunder hfirst.toward))
        (agrees_copies hunder h.1)
  | dir name entries rest ihin ih =>
      have hinside : SameAtFiles t₀ t entries (q ++ [name]) := by
        intro p c hp
        rw [List.append_assoc]
        apply hsame (name :: p) c
        rw [Listing.node, if_pos rfl, if_neg _, hp]
        rintro rfl
        rw [Listing.node_nil] at hp
        cases hp
      have hfirst : (writing f).Takes
          (directoryCopy (q ++ [name]) (copies t₀ entries (q ++ [name])))
          t (copyDirectory f (q ++ [name]) (copyEntries f entries (q ++ [name])) t) :=
        takes_copyDirectory hdir hinside fun t' hdir' hsame' => ihin h.2.1 hdir' hsame'
      have hunder := under_directoryCopy t₀ entries (q ++ [name])
      have hrest : SameAtFiles t₀ t rest q :=
        fun p c hp => hsame p c (Listing.node_dir_of_rest h.1 hp)
      exact hfirst.collect
        (ih h.2.2 ((isdir_of_under hunder hfirst.toward).trans hdir)
          (hrest.rest h.1 hunder hfirst.toward))
        (agrees_copies hunder h.1)

end Parts

end MissionOs.Installer.Repo
