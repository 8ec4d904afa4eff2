import MissionOs.Installer.SddmAutologin
import MissionOs.Lib.Attempt
import MissionOs.Lib.FileTree
import Mathlib.Data.List.DropRight

/-!
# Removing what the live system leaves in an installed one

`run` of the installer's clean-up step, on the tree of files of the target system.  It removes the
data of the installer, the launchers and the autostart entries of the installer, the autologin of
the login manager and the saved sessions of the users, in this order.

A place may refuse to be removed, a file may fail to be read or to be written.  `rmtree` goes on
then, and so does the step for the login manager, but `os.remove` raises, and the rest of the
steps is not run.  The root is a directory here, every directory can be listed (`os.listdir` would
raise, too), and the files are texts; what `dpkg` does to the tree is a parameter.

A sweep (`Swept`) says what each step takes away.  Nothing that is refused is ever taken away, so
that the steps compose.
-/

namespace MissionOs.Installer

open MissionOs.Lib MissionOs.Rust

/-- The target system. -/
abbrev Tree := FileTree (List Char)

/-! ## The environment -/

/-- What fails. -/
structure Faults where
  refuses : Place → Bool
  unreadable : Place → Bool
  writes : Place → WriteOutcome

/-- `dpkg`, as it is called: whether it has the package of the installer, and the tree after it
was told to remove it. -/
structure Dpkg where
  installed : Tree → Bool
  remove : Tree → Tree

/-- The tree after a step, and where it raised an exception. -/
abbrev Outcome := Attempt Tree Place

/-- `os.remove`. -/
def remove (f : Faults) (t : Tree) (p : Place) : Outcome :=
  if t.isfile p && !f.refuses p then ⟨t.unlink p, none⟩ else ⟨t, some p⟩

/-! ## The function -/

/-- `AUTOSTART_DIRS`. -/
def autostartDirs : List Place := [["etc", "xdg", "autostart"], ["usr", "share", "autostart"]]

/-- `SESSION_ARTIFACTS`. -/
def sessionArtifacts : List Place := [[".local", "share", "ksmserver"], [".config", "ksmserverrc"]]

/-- `_list_users`. -/
def listUsers (t : Tree) : List String :=
  if t.isdir ["home"] then
    ((t.listdir ["home"]).mergeSort fun a b => (strCmp a.toList b.toList).isLE).filter
      fun name => t.isdir ["home", name]
  else []

/-- `_remove_calamares_packages`. -/
def removeCalamaresPackages (dpkg : Dpkg) (t : Tree) : Tree :=
  if dpkg.installed t then dpkg.remove t else t

def startsWithCalamares (name : String) : Bool := "calamares".toList.isPrefixOf name.toList

/-- What is named after the installer in a directory, in the order in which it is listed. -/
def namedEntries (t : Tree) (directory : Place) : List Place :=
  ((t.listdir directory).filter startsWithCalamares).map fun name => directory ++ [name]

/-- The loop over a directory, which removes these. -/
def removeNamed (f : Faults) (t : Tree) (directory : Place) : Outcome :=
  if t.isdir directory then Attempt.forEach (remove f) t (namedEntries t directory) else ⟨t, none⟩

/-- The directories with the data of the installer. -/
def configDirs : List Place := [["etc", "calamares"], ["usr", "share", "calamares"]]

def removeDirectory (f : Faults) (t : Tree) (base : Place) : Tree :=
  if t.isdir base then t.rmtree f.refuses base else t

/-- `_remove_calamares_config`. -/
def removeCalamaresConfig (f : Faults) (t : Tree) : Outcome :=
  removeNamed f (configDirs.foldl (removeDirectory f) t) ["usr", "share", "applications"]

/-- `_remove_autostart_entries`. -/
def removeAutostartEntries (f : Faults) (t : Tree) : Outcome :=
  Attempt.forEach (removeNamed f) t
    (autostartDirs ++ (listUsers t).map fun user => ["home", user, ".config", "autostart"])

/-- What is done with one configuration file of the login manager. -/
def stripCandidate (f : Faults) (t : Tree) (p : Place) : Tree :=
  match t.content p with
  | none => t
  | some text =>
      if f.unreadable p then t
      else
        let s := scan (readlines text)
        if s.changed then t.put p ((f.writes p).leaves text s.kept.flatten) else t

/-- The configuration files of the login manager. -/
def sddmCandidates (t : Tree) : List Place :=
  ["etc", "sddm.conf"] ::
    if t.isdir ["etc", "sddm.conf.d"] then
      (confdNames (t.listdir ["etc", "sddm.conf.d"])).map fun name => ["etc", "sddm.conf.d", name]
    else []

/-- `_strip_sddm_autologin`. -/
def stripSddm (f : Faults) (t : Tree) : Tree := (sddmCandidates t).foldl (stripCandidate f) t

/-- What is done with one saved session. -/
def removeSession (f : Faults) (t : Tree) (p : Place) : Outcome :=
  if t.isdir p then ⟨t.rmtree f.refuses p, none⟩
  else if t.isfile p then remove f t p
  else ⟨t, none⟩

/-- `_remove_saved_sessions`. -/
def removeSavedSessions (f : Faults) (t : Tree) : Outcome :=
  Attempt.forEach (removeSession f) t
    ((listUsers t).flatMap fun user =>
      sessionArtifacts.map fun artifact => ["home", user] ++ artifact)

/-- The steps after the one for the packages. -/
def cleanUp (f : Faults) (t : Tree) : Outcome :=
  ((removeCalamaresConfig f t).andThen (removeAutostartEntries f)).andThen fun t =>
    removeSavedSessions f (stripSddm f t)

/-- `run`. -/
def run (dpkg : Dpkg) (f : Faults) (t : Tree) : Outcome :=
  cleanUp f (removeCalamaresPackages dpkg t)

/-! ## Steps that take away -/

/-- A step that takes `S` away, or some of it when it raises. -/
structure Within (f : Faults) (S : Set Place) (t : Tree) (o : Outcome) : Prop where
  done : o.raised = none → FileTree.Swept f.refuses S t o.state
  part : ∃ S' ⊆ S, FileTree.Swept f.refuses S' t o.state

theorem Within.of_swept {f : Faults} {S : Set Place} {t t' : Tree}
    (h : FileTree.Swept f.refuses S t t') (raised : Option Place) : Within f S t ⟨t', raised⟩ where
  done _ := h
  part := ⟨S, subset_rfl, h⟩

/-- Nothing is taken away when a step raises at once. -/
theorem Within.of_raised (f : Faults) (S : Set Place) (t : Tree) (p : Place) :
    Within f S t ⟨t, some p⟩ where
  done h := nomatch h
  part := ⟨∅, Set.empty_subset S, FileTree.swept_empty t⟩

theorem Within.congr {f : Faults} {S S' : Set Place} {t : Tree} {o : Outcome}
    (h : Within f S t o)
    (heq : ∀ p, t.node p ≠ none → ¬ t.Held f.refuses p → (p ∈ S ↔ p ∈ S')) :
    Within f S' t o where
  done hraised := (h.done hraised).congr heq
  part := by
    obtain ⟨S₀, hsub, hswept⟩ := h.part
    refine ⟨S₀ ∩ S', Set.inter_subset_right, hswept.congr ?_⟩
    intro p hnode hheld
    constructor
    · intro hp
      exact ⟨hp, (heq p hnode hheld).mp (hsub hp)⟩
    · exact fun hp => hp.1

/-- Two steps. -/
theorem Within.andThen {f : Faults} {S S' : Set Place} {t : Tree} {o : Outcome}
    {k : Tree → Outcome} (h : Within f S t o)
    (hk : ∀ t', FileTree.Swept f.refuses S t t' → Within f S' t' (k t')) :
    Within f (S ∪ S') t (o.andThen k) := by
  obtain ⟨t', raised⟩ := o
  cases raised with
  | none =>
      have hfirst := h.done rfl
      have hsecond := hk t' hfirst
      obtain ⟨S₀, hsub, hswept⟩ := hsecond.part
      exact
        { done := fun hraised => hfirst.trans (hsecond.done hraised)
          part := ⟨S ∪ S₀, Set.union_subset_union_right S hsub, hfirst.trans hswept⟩ }
  | some p =>
      obtain ⟨S₀, hsub, hswept⟩ := h.part
      exact
        { done := fun hraised => nomatch hraised
          part := ⟨S₀, hsub.trans Set.subset_union_left, hswept⟩ }

/-- What an act takes away, and when it raises. -/
structure Acts {α : Type} (f : Faults) (act : Tree → α → Outcome) (S : α → Set Place)
    (B : Tree → α → Prop) : Prop where
  within : ∀ t x, Within f (S x) t (act t x)
  raised : ∀ t x, (act t x).raised = none ↔ ¬ B t x

/-- What the act takes away for `x` does not change whether it raises for `y`. -/
def Apart {α : Type} (f : Faults) (S : α → Set Place) (B : Tree → α → Prop) (x y : α) : Prop :=
  ∀ t t', ¬ B t x → FileTree.Swept f.refuses (S x) t t' → (B t' y ↔ B t y)

/-- The loop takes away what its rounds do, and raises if one of them does. -/
theorem Acts.forEach {α : Type} {f : Faults} {act : Tree → α → Outcome} {S : α → Set Place}
    {B : Tree → α → Prop} (h : Acts f act S B) {xs : List α} (hxs : xs.Pairwise (Apart f S B))
    (t : Tree) :
    Within f {p | ∃ x ∈ xs, p ∈ S x} t (Attempt.forEach act t xs) ∧
      ((Attempt.forEach act t xs).raised = none ↔ ∀ x ∈ xs, ¬ B t x) := by
  induction xs generalizing t with
  | nil =>
      constructor
      · have hempty : {p : Place | ∃ x ∈ ([] : List α), p ∈ S x} = ∅ := by simp
        rw [hempty]
        exact Within.of_swept (FileTree.swept_empty t) none
      · simp [Attempt.forEach]
  | cons x xs ih =>
      obtain ⟨hx, hxs⟩ := List.pairwise_cons.mp hxs
      constructor
      · have hset : {p | ∃ y ∈ x :: xs, p ∈ S y} = S x ∪ {p | ∃ y ∈ xs, p ∈ S y} := by
          ext p
          simp
        rw [hset]
        exact (h.within t x).andThen fun t' _ => (ih hxs t').1
      · show ((act t x).andThen fun t => Attempt.forEach act t xs).raised = none ↔ _
        rw [Attempt.raised_andThen, (ih hxs _).2, h.raised, List.forall_mem_cons]
        apply and_congr_right
        intro hB
        have hswept := (h.within t x).done ((h.raised t x).mpr hB)
        have hsame (y : α) (hy : y ∈ xs) : ¬ B (act t x).state y ↔ ¬ B t y :=
          not_congr (hx y hy t _ hB hswept)
        exact ⟨fun hall y hy => (hsame y hy).mp (hall y hy),
          fun hall y hy => (hsame y hy).mpr (hall y hy)⟩

/-! ## What is taken away -/

/-- What can be removed by `os.remove`. -/
def Removable (f : Faults) (t : Tree) (p : Place) : Prop :=
  t.isfile p = true ∧ f.refuses p = false

/-- What is named after the installer in a directory. -/
def named (directory : Place) : Set Place :=
  {p | ∃ name, startsWithCalamares name = true ∧ p = directory ++ [name]}

/-- The loop over a directory raises. -/
def BlockedIn (f : Faults) (t : Tree) (directory : Place) : Prop :=
  ∃ p ∈ named directory, t.node p ≠ none ∧ ¬ Removable f t p

/-- A file stays a file unless it is taken away. -/
theorem removable_of_node_eq {f : Faults} {t t' : Tree} {p : Place} (h : t'.node p = t.node p) :
    Removable f t' p ↔ Removable f t p := by
  rw [Removable, Removable, FileTree.isfile_congr h]

theorem Removable.not_held {f : Faults} {t : Tree} {p : Place} (h : Removable f t p) :
    ¬ t.Held f.refuses p :=
  FileTree.not_held_of_isfile h.1 h.2

theorem acts_remove (f : Faults) :
    Acts f (remove f) (fun p => {p}) fun t p => ¬ Removable f t p where
  within t p := by
    rw [remove]
    split_ifs with hcan
    · obtain ⟨hfile, hrefuses⟩ := Bool.and_eq_true_iff.mp hcan
      exact Within.of_swept (FileTree.swept_unlink hfile (by simpa using hrefuses)) none
    · exact Within.of_raised f {p} t p
  raised t p := by
    rw [remove, not_not, Removable]
    split_ifs with hcan
    · simpa using hcan
    · simpa using hcan

/-- Removing one file does not change another. -/
theorem apart_remove {f : Faults} {p q : Place} (h : p ≠ q) :
    Apart f (fun p => {p}) (fun t p => ¬ Removable f t p) p q := by
  intro t t' _ hswept
  have hsame := hswept.stays q (Or.inl fun hmem => h hmem.symm)
  exact not_congr (removable_of_node_eq hsame)

theorem mem_namedEntries {t : Tree} {directory p : Place} :
    p ∈ namedEntries t directory ↔ p ∈ named directory ∧ t.node p ≠ none := by
  rw [namedEntries, List.mem_map]
  constructor
  · rintro ⟨name, hname, rfl⟩
    obtain ⟨hlisted, hstarts⟩ := List.mem_filter.mp hname
    exact ⟨⟨name, hstarts, rfl⟩, FileTree.mem_listdir.mp hlisted⟩
  · rintro ⟨⟨name, hstarts, rfl⟩, hnode⟩
    exact ⟨name, List.mem_filter.mpr ⟨FileTree.mem_listdir.mpr hnode, hstarts⟩, rfl⟩

theorem nodup_namedEntries (t : Tree) (directory : Place) : (namedEntries t directory).Nodup := by
  apply ((t.nodup_listdir directory).filter _).map
  intro name name' heq
  simpa using heq

/-- The loop over a directory. -/
theorem acts_removeNamed (f : Faults) : Acts f (removeNamed f) named (BlockedIn f) := by
  have hloop (t : Tree) (directory : Place) :=
    (acts_remove f).forEach ((nodup_namedEntries t directory).imp apart_remove) t
  constructor
  · intro t directory
    rw [removeNamed]
    split_ifs with hdir
    · apply (hloop t directory).1.congr
      intro p hnode _
      constructor
      · rintro ⟨q, hq, hmem⟩
        have hpq : p = q := hmem
        rw [hpq]
        exact (mem_namedEntries.mp hq).1
      · intro hp
        exact ⟨p, mem_namedEntries.mpr ⟨hp, hnode⟩, rfl⟩
    · apply (Within.of_swept (FileTree.swept_empty t) none).congr
      intro p hnode _
      refine iff_of_false (Set.notMem_empty p) ?_
      rintro ⟨name, -, rfl⟩
      exact hdir (FileTree.isdir_of_below hnode)
  · intro t directory
    rw [removeNamed]
    split_ifs with hdir
    · rw [(hloop t directory).2]
      constructor
      · rintro hall ⟨p, hp, hnode, hcannot⟩
        exact hall p (mem_namedEntries.mpr ⟨hp, hnode⟩) hcannot
      · intro hnot p hp hcannot
        obtain ⟨hnamed, hnode⟩ := mem_namedEntries.mp hp
        exact hnot ⟨p, hnamed, hnode, hcannot⟩
    · refine iff_of_true rfl ?_
      rintro ⟨p, ⟨name, -, rfl⟩, hnode, -⟩
      exact hdir (FileTree.isdir_of_below hnode)

/-- What blocks the loop over one directory is there after the loop over another one, and the
other way round. -/
theorem apart_removeNamed (f : Faults) (d d' : Place) : Apart f named (BlockedIn f) d d' := by
  intro t t' hfree hswept
  constructor
  · rintro ⟨p, hp, hnode, hcannot⟩
    have hsame := hswept.node_eq_of_ne_none hnode
    rw [removable_of_node_eq hsame] at hcannot
    exact ⟨p, hp, hsame ▸ hnode, hcannot⟩
  · rintro ⟨p, hp, hnode, hcannot⟩
    have hout : p ∉ named d := fun hmem => hfree ⟨p, hmem, hnode, hcannot⟩
    have hsame := hswept.stays p (Or.inl hout)
    rw [← removable_of_node_eq hsame] at hcannot
    exact ⟨p, hp, hsame.symm ▸ hnode, hcannot⟩

/-! ## The steps before the login manager -/

/-- The data of the installer: the two directories, where they are directories. -/
def configData (t : Tree) : Set Place := {p | ∃ base ∈ configDirs, t.isdir base ∧ base <+: p}

/-- The launchers of the installer. -/
def launchers : Set Place := named ["usr", "share", "applications"]

/-- The directories with autostart entries: those of the system, and those of the users. -/
def IsAutostartDir (directory : Place) : Prop :=
  directory ∈ autostartDirs ∨ ∃ user, directory = ["home", user, ".config", "autostart"]

def autostartEntries : Set Place := {p | ∃ d, IsAutostartDir d ∧ p ∈ named d}

/-- The clean-up ends before it comes to the login manager. -/
def Blocked (f : Faults) (t : Tree) : Prop :=
  ∃ p ∈ launchers ∪ autostartEntries, t.node p ≠ none ∧ ¬ Removable f t p

/-- A directory that is removed only if it is one. -/
theorem swept_removeDirectory (f : Faults) (t : Tree) {base : Place} (h : base ≠ []) :
    FileTree.Swept f.refuses {p | t.isdir base ∧ base <+: p} t (removeDirectory f t base) := by
  rw [removeDirectory]
  split_ifs with hdir
  · apply (FileTree.swept_rmtree base t).congr
    intro p _ _
    constructor
    · exact fun hp => ⟨hdir, hp.1⟩
    · rintro ⟨-, hp⟩
      exact ⟨hp, fun hroot => h (List.prefix_nil.mp (hroot ▸ hp))⟩
  · apply (FileTree.swept_empty t).congr
    intro p _ _
    exact iff_of_false (Set.notMem_empty p) fun hp => hdir hp.1

theorem swept_configDirs (f : Faults) (t : Tree) :
    FileTree.Swept f.refuses (configData t) t (configDirs.foldl (removeDirectory f) t) := by
  have hfirst := swept_removeDirectory f t (List.cons_ne_nil "etc" ["calamares"])
  have hsecond := swept_removeDirectory f (removeDirectory f t ["etc", "calamares"])
    (List.cons_ne_nil "usr" ["share", "calamares"])
  apply (hfirst.trans hsecond).congr
  intro p _ _
  -- the first directory is not above the second
  have hsame : (removeDirectory f t ["etc", "calamares"]).isdir ["usr", "share", "calamares"] =
      t.isdir ["usr", "share", "calamares"] := by
    apply FileTree.isdir_congr
    apply hfirst.stays
    left
    rintro ⟨-, hpre⟩
    simp at hpre
  show _ ∧ _ ∨ _ ∧ _ ↔ ∃ base ∈ configDirs, t.isdir base = true ∧ base <+: p
  rw [hsame]
  simp [configDirs]

/-- Neither is above what is named after the installer elsewhere. -/
theorem notMem_configData {t : Tree} {p : Place} (h : p ∈ launchers ∪ autostartEntries) :
    p ∉ configData t := by
  rintro ⟨base, hbase, -, hpre⟩
  have hdirs : ∃ d, (d = ["usr", "share", "applications"] ∨ IsAutostartDir d) ∧ p ∈ named d := by
    rcases h with h | ⟨d, hd, h⟩
    · exact ⟨_, Or.inl rfl, h⟩
    · exact ⟨d, Or.inr hd, h⟩
  obtain ⟨d, hd, name, -, rfl⟩ := hdirs
  rw [configDirs, List.mem_cons, List.mem_singleton] at hbase
  rcases hd with rfl | hd | ⟨user, rfl⟩
  · rcases hbase with rfl | rfl <;> simp at hpre
  · rw [autostartDirs, List.mem_cons, List.mem_singleton] at hd
    rcases hd with rfl | rfl <;> rcases hbase with rfl | rfl <;> simp at hpre
  · rcases hbase with rfl | rfl <;> simp at hpre

theorem removeCalamaresConfig_spec (f : Faults) (t : Tree) :
    Within f (configData t ∪ launchers) t (removeCalamaresConfig f t) ∧
      ((removeCalamaresConfig f t).raised = none ↔
        ¬ ∃ p ∈ launchers, t.node p ≠ none ∧ ¬ Removable f t p) := by
  have hconfig := swept_configDirs f t
  have hloop := acts_removeNamed f
  constructor
  · have hfirst := Within.of_swept hconfig none
    exact hfirst.andThen fun t' _ => hloop.within t' _
  · rw [removeCalamaresConfig, hloop.raised]
    apply not_congr
    apply exists_congr
    intro p
    apply and_congr_right
    intro hp
    have hsame := hconfig.stays p (Or.inl (notMem_configData (Or.inl hp)))
    rw [removable_of_node_eq hsame, hsame]

theorem mem_listUsers {t : Tree} {user : String} :
    user ∈ listUsers t ↔ t.isdir ["home", user] = true := by
  rw [listUsers]
  split_ifs with hhome
  · rw [List.mem_filter, List.mem_mergeSort, FileTree.mem_listdir]
    constructor
    · exact fun h => h.2
    · intro h
      refine ⟨?_, h⟩
      show t.node ["home", user] ≠ none
      rw [FileTree.isdir_iff.mp h]
      exact Option.some_ne_none _
  · refine iff_of_false List.not_mem_nil ?_
    intro h
    apply hhome
    have hnode : t.node (["home"] ++ [user]) ≠ none := by
      show t.node ["home", user] ≠ none
      rw [FileTree.isdir_iff.mp h]
      exact Option.some_ne_none _
    exact FileTree.isdir_of_below hnode

/-- The directories of the loop are all autostart directories in which something stands. -/
theorem mem_autostartTargets {t : Tree} {p : Place} (hp : t.node p ≠ none) :
    (∃ d ∈ autostartDirs ++ (listUsers t).map fun user => ["home", user, ".config", "autostart"],
      p ∈ named d) ↔ p ∈ autostartEntries := by
  constructor
  · rintro ⟨d, hd, hmem⟩
    refine ⟨d, ?_, hmem⟩
    rcases List.mem_append.mp hd with hd | hd
    · exact Or.inl hd
    · obtain ⟨user, -, rfl⟩ := List.mem_map.mp hd
      exact Or.inr ⟨user, rfl⟩
  · rintro ⟨d, hd, hmem⟩
    refine ⟨d, ?_, hmem⟩
    rcases hd with hd | ⟨user, rfl⟩
    · exact List.mem_append_left _ hd
    · obtain ⟨name, -, rfl⟩ := hmem
      have huser : t.isdir ["home", user] = true := FileTree.isdir_of_below hp
      exact List.mem_append_right _ (List.mem_map.mpr ⟨user, mem_listUsers.mpr huser, rfl⟩)

theorem removeAutostartEntries_spec (f : Faults) (t : Tree) :
    Within f autostartEntries t (removeAutostartEntries f t) ∧
      ((removeAutostartEntries f t).raised = none ↔
        ¬ ∃ p ∈ autostartEntries, t.node p ≠ none ∧ ¬ Removable f t p) := by
  have hpairs (ds : List Place) : ds.Pairwise (Apart f named (BlockedIn f)) :=
    List.pairwise_of_forall (apart_removeNamed f)
  obtain ⟨hwithin, hraised⟩ := (acts_removeNamed f).forEach (hpairs
    (autostartDirs ++ (listUsers t).map fun user => ["home", user, ".config", "autostart"])) t
  constructor
  · exact hwithin.congr fun p hnode _ => mem_autostartTargets hnode
  · rw [removeAutostartEntries, hraised]
    constructor
    · rintro hall ⟨p, hp, hnode, hcannot⟩
      obtain ⟨d, hd, hmem⟩ := (mem_autostartTargets hnode).mpr hp
      exact hall d hd ⟨p, hmem, hnode, hcannot⟩
    · rintro hnot d hd ⟨p, hmem, hnode, hcannot⟩
      exact hnot ⟨p, (mem_autostartTargets hnode).mp ⟨d, hd, hmem⟩, hnode, hcannot⟩

/-- What the steps before the login manager take away. -/
def installerParts (t : Tree) : Set Place := configData t ∪ launchers ∪ autostartEntries

/-- The steps before the login manager. -/
def beforeSddm (f : Faults) (t : Tree) : Outcome :=
  (removeCalamaresConfig f t).andThen (removeAutostartEntries f)

/-- No autostart directory is the one with the launchers. -/
theorem notMem_launchers {p : Place} (h : p ∈ autostartEntries) : p ∉ launchers := by
  obtain ⟨d, hd, name, -, rfl⟩ := h
  rintro ⟨name', -, heq⟩
  rcases hd with hd | ⟨user, rfl⟩
  · rw [autostartDirs, List.mem_cons, List.mem_singleton] at hd
    rcases hd with rfl | rfl <;> simp at heq
  · simp at heq

theorem beforeSddm_spec (f : Faults) (t : Tree) :
    Within f (installerParts t) t (beforeSddm f t) ∧
      ((beforeSddm f t).raised = none ↔ ¬ Blocked f t) := by
  obtain ⟨hwithin, hraised⟩ := removeCalamaresConfig_spec f t
  constructor
  · exact hwithin.andThen fun t' _ => (removeAutostartEntries_spec f t').1
  · rw [beforeSddm, Attempt.raised_andThen, (removeAutostartEntries_spec f _).2]
    have hsplit : Blocked f t ↔ (∃ p ∈ launchers, t.node p ≠ none ∧ ¬ Removable f t p) ∨
        ∃ p ∈ autostartEntries, t.node p ≠ none ∧ ¬ Removable f t p := by
      simp only [Blocked, Set.mem_union, or_and_right, exists_or]
    rw [hsplit, not_or, ← hraised]
    apply and_congr_right
    intro hnone
    apply not_congr
    apply exists_congr
    intro p
    apply and_congr_right
    intro hp
    have hout : p ∉ configData t ∪ launchers := by
      rintro (hmem | hmem)
      · exact notMem_configData (Or.inr hp) hmem
      · exact notMem_launchers hp hmem
    have hsame := (hwithin.done hnone).stays p (Or.inl hout)
    rw [removable_of_node_eq hsame, hsame]

/-! ## The saved sessions -/

/-- The saved sessions of all users, with what is in them. -/
def savedSessions : Set Place :=
  {p | ∃ user, ∃ artifact ∈ sessionArtifacts, ["home", user] ++ artifact <+: p}

/-- The clean-up ends in the saved sessions. -/
def Stuck (f : Faults) (t : Tree) : Prop :=
  ∃ user, ∃ artifact ∈ sessionArtifacts,
    t.isfile (["home", user] ++ artifact) = true ∧ f.refuses (["home", user] ++ artifact) = true

/-- A saved session that is a file and refuses. -/
def StuckAt (f : Faults) (t : Tree) (base : Place) : Prop :=
  t.isfile base = true ∧ f.refuses base = true

theorem stuckAt_of_swept {f : Faults} {S : Set Place} {t t' : Tree}
    (h : FileTree.Swept f.refuses S t t') (base : Place) :
    StuckAt f t' base ↔ StuckAt f t base := by
  constructor
  · rintro ⟨hfile, hrefuses⟩
    obtain ⟨c, hc⟩ := FileTree.isfile_iff.mp hfile
    have hsame := h.node_eq_of_ne_none (hc ▸ Option.some_ne_none _)
    exact ⟨FileTree.isfile_congr hsame ▸ hfile, hrefuses⟩
  · rintro ⟨hfile, hrefuses⟩
    obtain ⟨c, hc⟩ := FileTree.isfile_iff.mp hfile
    have hheld := FileTree.held_of_refuses (hc ▸ Option.some_ne_none _) hrefuses
    have hsame := h.stays base (Or.inr hheld)
    exact ⟨FileTree.isfile_congr hsame ▸ hfile, hrefuses⟩

theorem acts_removeSession (f : Faults) :
    Acts f (removeSession f) (fun base => {p | base <+: p ∧ p ≠ []}) (StuckAt f) where
  within t base := by
    rw [removeSession]
    split_ifs with hdir hfile
    · exact Within.of_swept (FileTree.swept_rmtree base t) none
    · apply ((acts_remove f).within t base).congr
      intro p hnode _
      constructor
      · intro hp
        have hpb : p = base := hp
        subst hpb
        refine ⟨List.prefix_rfl, ?_⟩
        rintro rfl
        rw [FileTree.isdir_iff.mpr t.root] at hdir
        exact hdir rfl
      · rintro ⟨hpre, -⟩
        exact FileTree.eq_of_isfile hfile hpre hnode
    · apply (Within.of_swept (FileTree.swept_empty t) none).congr
      intro p hnode _
      refine iff_of_false (Set.notMem_empty p) ?_
      rintro ⟨hpre, -⟩
      rcases FileTree.isfile_or_isdir (FileTree.node_ne_none_of_isPrefix hpre hnode) with h | h
      · exact hfile h
      · exact hdir h
  raised t base := by
    rw [removeSession, StuckAt]
    split_ifs with hdir hfile
    · simp [FileTree.not_isfile_of_isdir hdir]
    · rw [(acts_remove f).raised, Removable]
      simp [hfile]
    · simp [hfile]

/-- A place that refuses is there after any sweep if it was before. -/
theorem apart_removeSession (f : Faults) (base base' : Place) :
    Apart f (fun base => {p | base <+: p ∧ p ≠ []}) (StuckAt f) base base' := by
  intro t t' _ hswept
  exact stuckAt_of_swept hswept base'

/-- Some saved session of a user is above a place where something stands. -/
theorem mem_savedSessions {t : Tree} {p : Place} (hp : t.node p ≠ none) :
    (∃ base ∈ (listUsers t).flatMap fun user =>
        sessionArtifacts.map fun artifact => ["home", user] ++ artifact,
      base <+: p ∧ p ≠ []) ↔ p ∈ savedSessions := by
  simp only [List.mem_flatMap, List.mem_map, mem_listUsers]
  constructor
  · rintro ⟨-, ⟨user, -, artifact, hartifact, rfl⟩, hpre, -⟩
    exact ⟨user, artifact, hartifact, hpre⟩
  · rintro ⟨user, artifact, hartifact, hpre⟩
    have hroot : p ≠ [] := by
      rintro rfl
      simp at hpre
    have huser : t.isdir ["home", user] = true := by
      obtain ⟨rest, rfl⟩ := hpre
      rw [sessionArtifacts, List.mem_cons, List.mem_singleton] at hartifact
      rcases hartifact with rfl | rfl
      · exact FileTree.isdir_of_below hp
      · exact FileTree.isdir_of_below hp
    exact ⟨_, ⟨user, huser, artifact, hartifact, rfl⟩, hpre, hroot⟩

theorem removeSavedSessions_spec (f : Faults) (t : Tree) :
    Within f savedSessions t (removeSavedSessions f t) ∧
      ((removeSavedSessions f t).raised = none ↔ ¬ Stuck f t) := by
  have hpairs (bases : List Place) :
      bases.Pairwise (Apart f (fun base => {p | base <+: p ∧ p ≠ []}) (StuckAt f)) :=
    List.pairwise_of_forall (apart_removeSession f)
  obtain ⟨hwithin, hraised⟩ := (acts_removeSession f).forEach (hpairs
    ((listUsers t).flatMap fun user =>
      sessionArtifacts.map fun artifact => ["home", user] ++ artifact)) t
  constructor
  · exact hwithin.congr fun p hnode _ => mem_savedSessions hnode
  · rw [removeSavedSessions, hraised]
    simp only [List.mem_flatMap, List.mem_map, mem_listUsers]
    constructor
    · rintro hall ⟨user, artifact, hartifact, hstuck⟩
      have huser : t.isdir ["home", user] = true := by
        obtain ⟨c, hc⟩ := FileTree.isfile_iff.mp hstuck.1
        have hnode : t.node (["home", user] ++ artifact) ≠ none := hc ▸ Option.some_ne_none _
        rw [sessionArtifacts, List.mem_cons, List.mem_singleton] at hartifact
        rcases hartifact with rfl | rfl
        · exact FileTree.isdir_of_below hnode
        · exact FileTree.isdir_of_below hnode
      exact hall _ ⟨user, huser, artifact, hartifact, rfl⟩ hstuck
    · rintro hnot - ⟨user, -, artifact, hartifact, rfl⟩ hstuck
      exact hnot ⟨user, artifact, hartifact, hstuck⟩

/-! ## The login manager -/

/-- The configuration files of the login manager. -/
def isSddmConfig (p : Place) : Bool :=
  p = ["etc", "sddm.conf"] ||
    (p.dropLast = ["etc", "sddm.conf.d"] && ".conf".toList.isSuffixOf (p.getLastD "").toList)

/-- What becomes of the text of one of them. -/
def cleanText (f : Faults) (p : Place) (text : List Char) : List Char :=
  if f.unreadable p then text
  else if (scan (readlines text)).changed then (f.writes p).leaves text (stripText text)
  else text

def cleanNode (f : Faults) (p : Place) : FileNode (List Char) → FileNode (List Char)
  | .file text => .file (if isSddmConfig p then cleanText f p text else text)
  | .dir => .dir

/-- One of the files. -/
theorem node_stripCandidate (f : Faults) (t : Tree) {p : Place} (hp : isSddmConfig p = true)
    (q : Place) :
    (stripCandidate f t p).node q = if q = p then (t.node q).map (cleanNode f q) else t.node q := by
  by_cases hqp : q = p
  · subst hqp
    rw [if_pos rfl, stripCandidate]
    cases hcontent : t.content q with
    | none =>
        show t.node q = _
        cases hnode : t.node q with
        | none => rfl
        | some n =>
            cases n with
            | file c =>
                rw [FileTree.content_eq_some_iff.mpr hnode] at hcontent
                cases hcontent
            | dir => rfl
    | some text =>
        have hnode := FileTree.content_eq_some_iff.mp hcontent
        have hfile := FileTree.isfile_iff.mpr ⟨text, hnode⟩
        rw [hnode, Option.map_some, cleanNode, if_pos hp, cleanText]
        show (if f.unreadable q then t else
          if (scan (readlines text)).changed then _ else t).node q = _
        split_ifs with hunreadable hchanged
        · exact hnode
        · rw [FileTree.node_put_of_isfile hfile, if_pos rfl, stripText]
          show _ = some (FileNode.file (WriteOutcome.leaves _ text (if _ then _ else _)))
          rw [if_pos hchanged]
        · exact hnode
  · rw [if_neg hqp, stripCandidate]
    split
    · rfl
    · next text hcontent =>
        have hfile := FileTree.isfile_iff.mpr ⟨text, FileTree.content_eq_some_iff.mp hcontent⟩
        show (if f.unreadable p then t else
          if (scan (readlines text)).changed then _ else t).node q = _
        split_ifs
        · rfl
        · rw [FileTree.node_put_of_isfile hfile, if_neg hqp]
        · rfl

theorem matchesAtStart_of_isPrefix {pattern s s' : List Char} (hs : s <+: s')
    (h : matchesAtStart pattern s = true) : matchesAtStart pattern s' = true := by
  induction pattern generalizing s s' with
  | nil => rfl
  | cons letter pattern ih =>
      cases s with
      | nil => cases h
      | cons c cs =>
          obtain ⟨rest, rfl⟩ := hs
          rw [matchesAtStart, Bool.and_eq_true] at h
          rw [List.cons_append, matchesAtStart, Bool.and_eq_true]
          exact ⟨h.1, ih (List.prefix_append cs rest) h.2⟩

theorem rdropWhile_isPrefix_append (p : Char → Bool) (s rest : List Char) :
    s.rdropWhile p <+: (s ++ rest).rdropWhile p := by
  induction rest using List.reverseRecOn with
  | nil =>
      show s.rdropWhile p <+: (s ++ []).rdropWhile p
      simp
  | append_singleton rest c ih =>
      rw [← List.append_assoc, List.rdropWhile_concat]
      split_ifs
      · exact ih
      · exact (List.rdropWhile_prefix p s).trans
          ((List.prefix_append s rest).trans (List.prefix_append _ [c]))

/-- The beginning of a line is stripped to the beginning of what the line is stripped to. -/
theorem strip_isPrefix {s s' : List Char} (h : s <+: s') : strip s <+: strip s' := by
  obtain ⟨rest, rfl⟩ := h
  show (s.dropWhile isSpace).rdropWhile isSpace <+:
    ((s ++ rest).dropWhile isSpace).rdropWhile isSpace
  rw [List.dropWhile_append]
  split_ifs with hempty
  · rw [List.isEmpty_iff.mp hempty]
    exact List.nil_prefix
  · exact rdropWhile_isPrefix_append isSpace _ rest

/-- A text without a header has none in its beginning. -/
theorem not_hasHeader_take {text : List Char} (h : ¬ HasHeader text) (hreturn : '\r' ∉ text)
    (n : Nat) : ¬ HasHeader (text.take n) := by
  rintro ⟨line, hline, hheader⟩
  have hbegun : '\r' ∉ text.take n := fun hmem => hreturn (List.mem_of_mem_take hmem)
  rw [readlines, universalNewlines_of_not_mem hbegun] at hline
  obtain ⟨whole, hwhole, hpre⟩ := exists_isPrefix_of_mem_take hline
  apply h
  refine ⟨whole, ?_, matchesAtStart_of_isPrefix (strip_isPrefix hpre) hheader⟩
  rw [readlines, universalNewlines_of_not_mem hreturn]
  exact hwhole

/-- A file that was stripped has the line ends of the system. -/
theorem not_mem_stripText {text : List Char} (h : HasHeader text) : '\r' ∉ stripText text := by
  rw [stripText_of_header h]
  intro hmem
  obtain ⟨line, hline, hchar⟩ := List.mem_flatten.mp hmem
  have hall := List.mem_flatten_of_mem ((outsideSections_sublist _).subset hline) hchar
  rw [readlines, flatten_endedLines] at hall
  exact not_mem_universalNewlines text hall

theorem cleanText_of_not_header (f : Faults) (p : Place) {text : List Char}
    (h : ¬ HasHeader text) : cleanText f p text = text := by
  rw [cleanText]
  split_ifs with hunreadable hchanged
  · rfl
  · exact absurd (scan_changed_iff.mp hchanged) h
  · rfl

/-- Whatever the write does, the text is the old one, or one without a header. -/
theorem cleanText_cases (f : Faults) (p : Place) (text : List Char) :
    cleanText f p text = text ∨ ¬ HasHeader (cleanText f p text) := by
  rw [cleanText]
  split_ifs with hunreadable hchanged
  · exact Or.inl rfl
  · cases f.writes p with
    | done => exact Or.inr (not_hasHeader_stripText text)
    | refused => exact Or.inl rfl
    | cut n =>
        have hreturn := not_mem_stripText (scan_changed_iff.mp hchanged)
        exact Or.inr (not_hasHeader_take (not_hasHeader_stripText text) hreturn n)
  · exact Or.inl rfl

theorem cleanText_cleanText (f : Faults) (p : Place) (text : List Char) :
    cleanText f p (cleanText f p text) = cleanText f p text := by
  rcases cleanText_cases f p text with h | h
  · rw [h, h]
  · exact cleanText_of_not_header f p h

theorem cleanNode_cleanNode (f : Faults) (p : Place) (n : FileNode (List Char)) :
    cleanNode f p (cleanNode f p n) = cleanNode f p n := by
  cases n with
  | file text =>
      rw [cleanNode, cleanNode]
      split_ifs
      · rw [cleanText_cleanText]
      · rfl
  | dir => rfl

theorem node_foldl_stripCandidate (f : Faults) {ps : List Place}
    (h : ∀ p ∈ ps, isSddmConfig p = true) (t : Tree) (q : Place) :
    (ps.foldl (stripCandidate f) t).node q =
      if q ∈ ps then (t.node q).map (cleanNode f q) else t.node q := by
  induction ps generalizing t with
  | nil => rfl
  | cons p ps ih =>
      obtain ⟨hp, hps⟩ := List.forall_mem_cons.mp h
      rw [List.foldl_cons, ih hps, node_stripCandidate f t hp]
      by_cases hqp : q = p
      · subst hqp
        rw [if_pos rfl, if_pos List.mem_cons_self, Option.map_map]
        -- a file that is looked at again is not changed again
        have htwice : cleanNode f q ∘ cleanNode f q = cleanNode f q :=
          funext (cleanNode_cleanNode f q)
        rw [htwice, ite_self]
      · rw [if_neg hqp]
        simp [hqp]

theorem isSddmConfig_iff {p : Place} :
    isSddmConfig p = true ↔ p = ["etc", "sddm.conf"] ∨
      ∃ name, ".conf".toList.isSuffixOf name.toList = true ∧ p = ["etc", "sddm.conf.d", name] := by
  rw [isSddmConfig, Bool.or_eq_true, Bool.and_eq_true, decide_eq_true_eq, decide_eq_true_eq]
  apply or_congr_right
  constructor
  · rintro ⟨hdir, hname⟩
    have hne : p ≠ [] := by
      rintro rfl
      simp at hdir
    refine ⟨p.getLastD "", hname, ?_⟩
    conv_lhs => rw [← List.dropLast_append_getLast hne, hdir]
    rw [List.getLastD_eq_getLast?, List.getLast?_eq_some_getLast hne]
    rfl
  · rintro ⟨name, hname, rfl⟩
    exact ⟨rfl, hname⟩

theorem mem_sddmCandidates {t : Tree} {p : Place} :
    p ∈ sddmCandidates t ↔ p = ["etc", "sddm.conf"] ∨
      ∃ name, ".conf".toList.isSuffixOf name.toList = true ∧ p = ["etc", "sddm.conf.d", name] ∧
        t.node p ≠ none := by
  rw [sddmCandidates, List.mem_cons]
  apply or_congr_right
  split_ifs with hdir
  · simp only [confdNames, List.mem_map, List.mem_filter, List.mem_mergeSort, FileTree.mem_listdir]
    constructor
    · rintro ⟨name, ⟨hnode, hname⟩, rfl⟩
      exact ⟨name, hname, rfl, hnode⟩
    · rintro ⟨name, hname, rfl, hnode⟩
      exact ⟨name, ⟨hnode, hname⟩, rfl⟩
  · refine iff_of_false List.not_mem_nil ?_
    rintro ⟨name, -, rfl, hnode⟩
    have hbelow : t.node (["etc", "sddm.conf.d"] ++ [name]) ≠ none := hnode
    exact hdir (FileTree.isdir_of_below hbelow)

/-- The step for the login manager. -/
theorem node_stripSddm (f : Faults) (t : Tree) (p : Place) :
    (stripSddm f t).node p = (t.node p).map (cleanNode f p) := by
  have hconfig : ∀ q ∈ sddmCandidates t, isSddmConfig q = true := by
    intro q hq
    rw [isSddmConfig_iff]
    rcases mem_sddmCandidates.mp hq with h | ⟨name, hname, h, -⟩
    · exact Or.inl h
    · exact Or.inr ⟨name, hname, h⟩
  rw [stripSddm, node_foldl_stripCandidate f hconfig]
  split_ifs with hp
  · rfl
  · cases hnode : t.node p with
    | none => rfl
    | some n =>
        have hnot : isSddmConfig p ≠ true := by
          intro hc
          apply hp
          rw [mem_sddmCandidates]
          rcases isSddmConfig_iff.mp hc with h | ⟨name, hname, h⟩
          · exact Or.inl h
          · exact Or.inr ⟨name, hname, h, hnode ▸ Option.some_ne_none n⟩
        cases n with
        | file text => rw [Option.map_some, cleanNode, if_neg hnot]
        | dir => rfl

end MissionOs.Installer
