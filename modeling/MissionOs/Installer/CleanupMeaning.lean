import MissionOs.Installer.MissionCleanup

/-!
# The clean-up as a whole

What `run` of the clean-up leaves at every place of the target system, whatever fails on the way
(`run_meaning`), and that running it again after it has run to its end changes nothing
(`run_again`).

`CleanedUp` is the outcome of the steps together: what is looked for is gone unless it is held,
and everything else is as it was, but for the configuration of the login manager.  Without faults
that configuration is what `stripSddmAutologin` makes of its texts (`content_stripSddm`).
-/

namespace MissionOs.Installer

open MissionOs.Lib MissionOs.Rust

/-! ## The steps together -/

/-- What the clean-up takes away. -/
def leftover (t : Tree) : Set Place := installerParts t ∪ savedSessions

/-- `t'` is `t` without the places of `S` that are not held, and with the configuration of the
login manager cleaned. -/
structure CleanedUp (f : Faults) (S : Set Place) (t t' : Tree) : Prop where
  gone : ∀ p ∈ S, ¬ t.Held f.refuses p → t'.node p = none
  stays : ∀ p, p ∉ S ∨ t.Held f.refuses p → t'.node p = (t.node p).map (cleanNode f p)

theorem node_stripSddm_ne_none_iff {f : Faults} {t : Tree} {p : Place} :
    (stripSddm f t).node p ≠ none ↔ t.node p ≠ none := by
  rw [node_stripSddm, ne_eq, Option.map_eq_none_iff]

theorem isfile_of_cleaned {f : Faults} {t t' : Tree} {p : Place}
    (h : t'.node p = (t.node p).map (cleanNode f p)) : t'.isfile p = t.isfile p := by
  rw [FileTree.isfile, FileTree.isfile, h]
  cases t.node p with
  | none => rfl
  | some n => cases n <;> rfl

/-- A sweep before the login manager, and one after it. -/
theorem cleaned_of_swept {f : Faults} {S S' : Set Place} {t t' t'' : Tree}
    (h : FileTree.Swept f.refuses S t t')
    (h' : FileTree.Swept f.refuses S' (stripSddm f t') t'') : CleanedUp f (S ∪ S') t t'' := by
  have hheld (p : Place) : (stripSddm f t').Held f.refuses p ↔ t.Held f.refuses p :=
    (FileTree.held_congr (fun _ _ => node_stripSddm_ne_none_iff) p).trans (h.held_iff p)
  constructor
  · intro p hp hfree
    by_cases hnode : t''.node p = none
    · exact hnode
    rcases hp with hp | hp
    · rw [h'.node_eq_of_ne_none hnode, node_stripSddm, h.gone p hp hfree]
      rfl
    · exact h'.gone p hp (mt (hheld p).mp hfree)
  · intro p hp
    have hboth : (p ∉ S ∨ t.Held f.refuses p) ∧ (p ∉ S' ∨ t.Held f.refuses p) := by
      rcases hp with hp | hstays
      · exact ⟨Or.inl fun hmem => hp (Or.inl hmem), Or.inl fun hmem => hp (Or.inr hmem)⟩
      · exact ⟨Or.inr hstays, Or.inr hstays⟩
    rw [h'.stays p (hboth.2.imp_right (hheld p).mpr), node_stripSddm, h.stays p hboth.1]

theorem stuck_stripSddm {f : Faults} {t : Tree} : Stuck f (stripSddm f t) ↔ Stuck f t := by
  have hsame (p : Place) : (stripSddm f t).isfile p = t.isfile p :=
    isfile_of_cleaned (node_stripSddm f t p)
  simp only [Stuck, hsame]

theorem stuck_of_swept {f : Faults} {S : Set Place} {t t' : Tree}
    (h : FileTree.Swept f.refuses S t t') : Stuck f t' ↔ Stuck f t := by
  have hsame (p : Place) := stuckAt_of_swept h p
  simp only [StuckAt] at hsame
  simp only [Stuck, hsame]

/-- It ends without an exception unless something is in the way. -/
theorem raised_cleanUp (f : Faults) (t : Tree) :
    (cleanUp f t).raised = none ↔ ¬ Blocked f t ∧ ¬ Stuck f t := by
  obtain ⟨hwithin, hraised⟩ := beforeSddm_spec f t
  show ((beforeSddm f t).andThen _).raised = none ↔ _
  rw [Attempt.raised_andThen, hraised, (removeSavedSessions_spec f _).2, stuck_stripSddm]
  apply and_congr_right
  intro hfree
  rw [stuck_of_swept (hwithin.done (hraised.mpr hfree))]

/-- What is left when nothing was in the way before the login manager. -/
theorem cleaned_cleanUp {f : Faults} {t : Tree} (h : ¬ Blocked f t) :
    ((cleanUp f t).raised = none → CleanedUp f (leftover t) t (cleanUp f t).state) ∧
      ∃ S ⊆ savedSessions, CleanedUp f (installerParts t ∪ S) t (cleanUp f t).state := by
  obtain ⟨hwithin, hraised⟩ := beforeSddm_spec f t
  have hnone := hraised.mpr h
  have hfirst := hwithin.done hnone
  obtain ⟨hdone, S, hsub, hpart⟩ :=
    (removeSavedSessions_spec f (stripSddm f (beforeSddm f t).state)).1
  have hrun : cleanUp f t = removeSavedSessions f (stripSddm f (beforeSddm f t).state) := by
    show (beforeSddm f t).andThen _ = _
    rw [Attempt.andThen, hnone]
  rw [hrun]
  exact ⟨fun hend => cleaned_of_swept hfirst (hdone hend),
    S, hsub, cleaned_of_swept hfirst hpart⟩

/-- What is left when something was. -/
theorem swept_cleanUp {f : Faults} {t : Tree} (h : Blocked f t) :
    ∃ S ⊆ installerParts t, FileTree.Swept f.refuses S t (cleanUp f t).state := by
  obtain ⟨hwithin, hraised⟩ := beforeSddm_spec f t
  have hrun : cleanUp f t = beforeSddm f t := by
    show (beforeSddm f t).andThen _ = _
    cases hend : (beforeSddm f t).raised with
    | none => exact absurd h (hraised.mp hend)
    | some p => rw [Attempt.andThen, hend]
  rw [hrun]
  exact hwithin.part

/-- The clean-up, whatever fails: it raises exactly if an entry named after the installer cannot
be removed or a saved session is a file that cannot.  If it does not raise, everything it looks
for is gone, but for what refuses and the directories above that, the configuration of the login
manager is cleaned, and every other place is as it was.  If an entry of the installer is in the
way, the configuration of the login manager and the saved sessions are as they were. -/
theorem run_meaning (dpkg : Dpkg) (f : Faults) (t : Tree) :
    let before := removeCalamaresPackages dpkg t
    let after := run dpkg f t
    (after.raised = none ↔ ¬ Blocked f before ∧ ¬ Stuck f before) ∧
      (after.raised = none → CleanedUp f (leftover before) before after.state) ∧
      (Blocked f before →
        ∃ S ⊆ installerParts before, FileTree.Swept f.refuses S before after.state) ∧
      (¬ Blocked f before →
        ∃ S ⊆ savedSessions, CleanedUp f (installerParts before ∪ S) before after.state) := by
  intro before after
  refine ⟨raised_cleanUp f before, ?_, swept_cleanUp, fun h => (cleaned_cleanUp h).2⟩
  intro hend
  have hfree := (raised_cleanUp f before).mp hend
  exact (cleaned_cleanUp hfree.1).1 hend

/-! ## Cleaning up twice -/

section Again

variable {f : Faults} {t t' : Tree}

theorem CleanedUp.node_of_ne_none {S : Set Place} (h : CleanedUp f S t t') {p : Place}
    (hp : t'.node p ≠ none) : t'.node p = (t.node p).map (cleanNode f p) := by
  by_cases hmem : p ∈ S
  · by_cases hheld : t.Held f.refuses p
    · exact h.stays p (Or.inr hheld)
    · exact absurd (h.gone p hmem hheld) hp
  · exact h.stays p (Or.inl hmem)

theorem CleanedUp.ne_none {S : Set Place} (h : CleanedUp f S t t') {p : Place}
    (hp : t'.node p ≠ none) : t.node p ≠ none := by
  have heq := h.node_of_ne_none hp
  intro hnone
  rw [heq, hnone] at hp
  exact hp rfl

theorem CleanedUp.held_iff {S : Set Place} (h : CleanedUp f S t t') (p : Place) :
    t'.Held f.refuses p ↔ t.Held f.refuses p := by
  apply FileTree.held_congr
  intro q hrefuses
  refine ⟨h.ne_none, fun hq => ?_⟩
  rw [h.stays q (Or.inr (FileTree.held_of_refuses hq hrefuses)), ne_eq, Option.map_eq_none_iff]
  exact hq

theorem CleanedUp.isdir {S : Set Place} (h : CleanedUp f S t t') {p : Place}
    (hp : t'.isdir p = true) : t.isdir p = true := by
  have hnode := FileTree.isdir_iff.mp hp
  have heq := h.node_of_ne_none (hnode ▸ Option.some_ne_none _)
  rw [hnode, eq_comm, Option.map_eq_some_iff] at heq
  obtain ⟨n, hn, hclean⟩ := heq
  cases n with
  | file c => cases hclean
  | dir => exact FileTree.isdir_iff.mpr hn

/-- There is less to take away afterwards. -/
theorem CleanedUp.leftover_subset {S : Set Place} (h : CleanedUp f S t t') :
    leftover t' ⊆ leftover t := by
  apply Set.union_subset_union_left
  apply Set.union_subset_union_left
  apply Set.union_subset_union_left
  rintro p ⟨base, hbase, hdir, hpre⟩
  exact ⟨base, hbase, h.isdir hdir, hpre⟩

/-- Nothing is in the way that was not. -/
theorem CleanedUp.not_blocked (h : CleanedUp f (leftover t) t t') (hfree : ¬ Blocked f t) :
    ¬ Blocked f t' := by
  rintro ⟨p, hp, hnode, hcannot⟩
  have hbefore := h.ne_none hnode
  have hcan : Removable f t p := by
    by_contra hcannot
    exact hfree ⟨p, hp, hbefore, hcannot⟩
  have hmem : p ∈ leftover t := by
    rcases hp with hp | hp
    · exact Or.inl (Or.inl (Or.inr hp))
    · exact Or.inl (Or.inr hp)
  exact hnode (h.gone p hmem hcan.not_held)

theorem CleanedUp.not_stuck {S : Set Place} (h : CleanedUp f S t t') (hfree : ¬ Stuck f t) :
    ¬ Stuck f t' := by
  rintro ⟨user, artifact, hartifact, hfile, hrefuses⟩
  obtain ⟨c, hc⟩ := FileTree.isfile_iff.mp hfile
  have heq := h.node_of_ne_none (hc ▸ Option.some_ne_none _)
  exact hfree ⟨user, artifact, hartifact, isfile_of_cleaned heq ▸ hfile, hrefuses⟩

/-- A second clean-up finds everything as it leaves it. -/
theorem CleanedUp.again {t'' : Tree} (h : CleanedUp f (leftover t) t t')
    (h' : CleanedUp f (leftover t') t' t'') (p : Place) : t''.node p = t'.node p := by
  by_cases hnode : t'.node p = none
  · by_contra hne
    exact h'.ne_none (fun hnone => hne (hnone.trans hnode.symm)) hnode
  · have hstays : p ∉ leftover t' ∨ t'.Held f.refuses p := by
      by_cases hheld : t'.Held f.refuses p
      · exact Or.inr hheld
      · left
        intro hmem
        exact hnode (h.gone p (h.leftover_subset hmem) (mt (h.held_iff p).mpr hheld))
    rw [h'.stays p hstays, h.node_of_ne_none hnode, Option.map_map]
    have htwice : cleanNode f p ∘ cleanNode f p = cleanNode f p :=
      funext (cleanNode_cleanNode f p)
    rw [htwice]

end Again

/-- A clean-up that ran to its end leaves nothing for the next one, also where something refused
or was not written: run again, it ends as well and changes nothing.  If `dpkg` still has the package
of the installer, removing it has failed, and changes nothing when it fails again. -/
theorem run_again (dpkg : Dpkg) (f : Faults) (t : Tree) (h : (run dpkg f t).raised = none)
    (hfails : dpkg.installed (run dpkg f t).state = true →
      dpkg.remove (run dpkg f t).state = (run dpkg f t).state) :
    (run dpkg f (run dpkg f t).state).raised = none ∧
      ∀ p, (run dpkg f (run dpkg f t).state).state.node p = (run dpkg f t).state.node p := by
  have hsecond : run dpkg f (run dpkg f t).state = cleanUp f (run dpkg f t).state := by
    rw [run, removeCalamaresPackages]
    by_cases hinstalled : dpkg.installed (run dpkg f t).state = true
    · rw [if_pos hinstalled, hfails hinstalled]
    · rw [if_neg hinstalled]
  rw [hsecond]
  have hfirst := (raised_cleanUp f _).mp h
  have hcleaned := (cleaned_cleanUp hfirst.1).1 h
  have hfree := And.intro (hcleaned.not_blocked hfirst.1) (hcleaned.not_stuck hfirst.2)
  have hend := (raised_cleanUp f _).mpr hfree
  exact ⟨hend, hcleaned.again ((cleaned_cleanUp hfree.1).1 hend)⟩

/-- A system with a launcher of the installer, and with its data, one file of which refuses. -/
def liveCopy : Tree :=
  (((((((((FileTree.empty.mkdir ["etc"]).mkdir ["etc", "calamares"]).put
    ["etc", "calamares", "settings.conf"] "oem-setup: false\n".toList).put
    ["etc", "calamares", "branding"] []).put
    ["etc", "sddm.conf"] "[Autologin]\nUser=user\n[Theme]\n".toList).mkdir
    ["usr"]).mkdir ["usr", "share"]).mkdir ["usr", "share", "applications"]).put
    ["usr", "share", "applications", "calamares.desktop"] "[Desktop Entry]\n".toList)

def brandingRefuses : Faults where
  refuses p := p = ["etc", "calamares", "branding"]
  unreadable _ := false
  writes _ := .cut 4

/-- A package manager that cannot remove the package. -/
def stuckDpkg : Dpkg := ⟨fun _ => true, id⟩

/-- The run ends, and what refuses is all that is left of the installer. -/
theorem run_again_liveCopy :
    let after := run stuckDpkg brandingRefuses liveCopy
    after.state.listdir ["etc", "calamares"] = ["branding"] ∧
      after.state.listdir ["usr", "share", "applications"] = [] ∧
      after.state.content ["etc", "sddm.conf"] = some "[The".toList ∧
      (run stuckDpkg brandingRefuses after.state).raised = none ∧
      ∀ p, (run stuckDpkg brandingRefuses after.state).state.node p = after.state.node p :=
  ⟨by decide +kernel, by decide +kernel, by decide +kernel,
    run_again stuckDpkg brandingRefuses liveCopy (by decide +kernel) fun _ => rfl⟩

end MissionOs.Installer
