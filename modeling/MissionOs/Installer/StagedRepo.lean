import MissionOs.Installer.MissionRepo

/-!
# The staged repository as a whole

What the step that stages the repository leaves, whatever fails on the way.  The list of the source
is a commit point: it changes only when the whole repository has been copied
(`source_after_copy`).  And the step can be tried again: after any attempts that failed, one that
would have gone through at once goes through and leaves what it would have left
(`staged_after_attempts`).
-/

namespace MissionOs.Installer.Repo

open MissionOs.Lib MissionOs.Rust

variable {f : Faults} {t t₀ t₁ : Tree} {q : Place}

/-! ## The plan by entries -/

/-- The plan for one entry of a directory. -/
def itemCopies (t : Tree) (l : Listing Bytes) (q : Place) (name : String) :
    Plan Duty (FileNode Bytes) :=
  match l.item name with
  | none => Plan.nothing
  | some (.file c) => fileCopy t (q ++ [name]) c
  | some (.dir entries) => directoryCopy (q ++ [name]) (copies t entries (q ++ [name]))

theorem under_itemCopies (t : Tree) (l : Listing Bytes) (q : Place) (name : String) :
    Under (q ++ [name]) (itemCopies t l q name) := by
  rw [itemCopies]
  split
  · exact fun _ _ h => h.elim
  · exact under_fileCopy t _ _
  · exact under_directoryCopy t _ _

theorem mem_names_of_itemCopies {l : Listing Bytes} {name : String} {d : Duty}
    {n : FileNode Bytes} (h : itemCopies t l q name d n) : name ∈ l.names := by
  rw [itemCopies] at h
  cases hitem : l.item name with
  | none =>
      rw [hitem] at h
      exact h.elim
  | some item => exact Listing.mem_names_of_item hitem

theorem itemCopies_congr {l l' : Listing Bytes} {name : String} (h : l.item name = l'.item name) :
    itemCopies t l q name = itemCopies t l' q name := by
  rw [itemCopies, itemCopies, h]

/-- The entries are the first one and those of the rest. -/
theorem exists_itemCopies {l rest : Listing Bytes} {key : String} (hkey : key ∉ rest.names)
    (hitem : ∀ name, name ≠ key → l.item name = rest.item name) {d : Duty} {n : FileNode Bytes} :
    (∃ name, itemCopies t l q name d n) ↔
      itemCopies t l q key d n ∨ ∃ name, itemCopies t rest q name d n := by
  constructor
  · rintro ⟨name, hname⟩
    by_cases heq : name = key
    · exact Or.inl (heq ▸ hname)
    · rw [itemCopies_congr (hitem name heq)] at hname
      exact Or.inr ⟨name, hname⟩
  · rintro (hname | ⟨name, hname⟩)
    · exact ⟨key, hname⟩
    · have hne : name ≠ key := fun heq => hkey (heq ▸ mem_names_of_itemCopies hname)
      rw [← itemCopies_congr (hitem name hne)] at hname
      exact ⟨name, hname⟩

/-- The plan for a directory is that for its entries. -/
theorem copies_iff {l : Listing Bytes} (h : l.Distinct) {d : Duty} {n : FileNode Bytes} :
    copies t l q d n ↔ ∃ name, itemCopies t l q name d n := by
  induction l with
  | nil => simp [copies, itemCopies, Listing.item, Plan.nothing]
  | file key c rest ih =>
      have hfirst : itemCopies t (.file key c rest) q key = fileCopy t (q ++ [key]) c := by
        rw [itemCopies, Listing.item, if_pos rfl]
      rw [exists_itemCopies (l := .file key c rest) h.1 fun name hne => if_neg hne, hfirst]
      exact or_congr_right (ih h.2)
  | dir key entries rest _ ih =>
      have hfirst : itemCopies t (.dir key entries rest) q key =
          directoryCopy (q ++ [key]) (copies t entries (q ++ [key])) := by
        rw [itemCopies, Listing.item, if_pos rfl]
      rw [exists_itemCopies (l := .dir key entries rest) h.1 fun name hne => if_neg hne, hfirst]
      exact or_congr_right (ih h.2.2)

/-! ## The plan by places -/

/-- Where something lands that is copied to a place. -/
def placeOf (t : Tree) (q : Place) : FileNode Bytes → Place
  | .file _ => landing t q
  | .dir => q

/-- What stands in the directory is planned for its place. -/
theorem copies_of_node {l : Listing Bytes} (h : l.Distinct) {p : Place} {n : FileNode Bytes}
    (hp : l.node p = some n) : copies t l q (.node (placeOf t (q ++ p) n)) n := by
  induction l generalizing p q with
  | nil => cases hp
  | file name c rest ih =>
      rw [Listing.node] at hp
      split_ifs at hp with hname
      · obtain rfl := Option.some_inj.mp hp
        rw [hname]
        exact Or.inl (Or.inl ⟨rfl, rfl⟩)
      · exact Or.inr (ih h.2 hp)
  | dir name entries rest ihin ih =>
      cases p with
      | nil => cases hp
      | cons key p =>
          rw [Listing.node] at hp
          split_ifs at hp with hname hempty
          · obtain rfl := Option.some_inj.mp hp
            rw [hname, hempty]
            exact Or.inl (Or.inr (Or.inl ⟨rfl, rfl⟩))
          · rw [hname]
            have hinner := ihin h.2.1 hp (q := q ++ [name])
            rw [List.append_assoc] at hinner
            exact Or.inl (Or.inr (Or.inr (Or.inl hinner)))
          · exact Or.inr (ih h.2.2 hp)

/-- What is planned for a place stands in the directory. -/
theorem node_of_copies {l : Listing Bytes} (h : l.Distinct) {r : Place} {n : FileNode Bytes}
    (hr : copies t l q (.node r) n) : ∃ p, l.node p = some n ∧ r = placeOf t (q ++ p) n := by
  induction l generalizing q with
  | nil => exact hr.elim
  | file name c rest ih =>
      rcases hr with (⟨hplace, rfl⟩ | ⟨hplace, -⟩) | hr
      · exact ⟨[name], if_pos rfl, Duty.node.inj hplace⟩
      · cases hplace
      · obtain ⟨p, hp, hplace⟩ := ih h.2 hr
        exact ⟨p, Listing.node_file_of_rest h.1 hp, hplace⟩
  | dir name entries rest ihin ih =>
      rcases hr with (⟨hplace, -⟩ | ⟨hplace, rfl⟩ | hr | ⟨hplace, -⟩) | hr
      · cases hplace
      · refine ⟨[name], ?_, Duty.node.inj hplace⟩
        rw [Listing.node, if_pos rfl, if_pos rfl]
      · obtain ⟨p, hp, hplace⟩ := ihin h.2.1 hr
        refine ⟨name :: p, ?_, ?_⟩
        · rw [Listing.node, if_pos rfl, if_neg _, hp]
          rintro rfl
          rw [Listing.node_nil] at hp
          cases hp
        · rw [hplace, List.append_assoc]
          rfl
      · cases hplace
      · obtain ⟨p, hp, hplace⟩ := ih h.2.2 hr
        exact ⟨p, Listing.node_dir_of_rest h.1 hp, hplace⟩

/-- Where a file is to be copied, the plan has the file or nothing, and nothing if there is a
directory. -/
theorem copies_at_file {l : Listing Bytes} (h : l.Distinct) {p : Place} {c : Bytes}
    {n : FileNode Bytes} (hp : l.node p = some (.file c)) (hd : copies t l q (.node (q ++ p)) n) :
    t.isdir (q ++ p) = false ∧ n = .file c := by
  obtain ⟨p', hp', hplace⟩ := node_of_copies h hd
  cases n with
  | dir =>
      have heq : p = p' := List.append_cancel_left hplace
      rw [heq, hp'] at hp
      cases hp
  | file c' =>
      rw [placeOf, landing] at hplace
      split_ifs at hplace with hdir
      · -- below a file there is nothing
        rw [List.append_assoc, List.append_cancel_left_eq] at hplace
        rw [hplace] at hp
        have hnil := Listing.eq_nil_of_file h hp' hp
        cases hnil
      · have heq : p = p' := List.append_cancel_left hplace
        rw [heq] at hp ⊢
        rw [hp', Option.some_inj, FileNode.file.injEq] at hp
        exact ⟨by simpa using hdir, by rw [hp]⟩

/-! ## Where the plan agrees with itself -/

theorem agrees_fileCopy (t : Tree) (q : Place) (c : Bytes) :
    (fileCopy t q c).Agrees (fileCopy t q c) := by
  refine (Plan.agrees_just _ _).both (Plan.agrees_just _ _) ?_
  apply Plan.agrees_of_apart
  rintro d n n' ⟨rfl, -⟩ ⟨h, -⟩
  cases h

/-- No place is planned in two ways. -/
theorem agrees_copies_self {l : Listing Bytes} (h : l.Distinct) (t : Tree) (q : Place) :
    (copies t l q).Agrees (copies t l q) := by
  induction l generalizing q with
  | nil => exact fun _ _ _ hd => hd.elim
  | file name c rest ih =>
      exact (agrees_fileCopy t _ c).both (ih h.2 q)
        (agrees_copies (under_fileCopy t _ c) h.1)
  | dir name entries rest ihin ih =>
      have hinner := (ihin h.2.1 (q ++ [name])).both (Plan.agrees_just (.stamp (q ++ [name])) .dir)
        (agrees_copies_stamp t entries _)
      have hnode := (Plan.agrees_just (.node (q ++ [name])) .dir).both hinner
        (agrees_node_copies t entries _)
      have hlisting := (Plan.agrees_just (.listing (q ++ [name])) .dir).both hnode
        (agrees_listing_rest t entries _)
      exact hlisting.both (ih h.2.2 q) (agrees_copies (under_directoryCopy t entries _) h.1)

/-- A directory on the way to `q` and what is copied below `q`. -/
theorem agrees_parents_copies (l : Listing Bytes) (t : Tree) (q : Place) :
    (parents q).Agrees (copies t l q) := by
  apply Plan.agrees_of_apart
  rintro d n n' ⟨-, p, rfl, hp⟩ hd
  obtain ⟨name, -, hpre⟩ := exists_of_copies hd
  have hlength := (hpre.trans hp).length_le
  rw [List.length_append, List.length_singleton] at hlength
  omega

/-- What is planned for the repository. -/
def repoPlan (repo : Folder Bytes) (t : Tree) : Plan Duty (FileNode Bytes) :=
  (parents targetRepoDir).both
    ((Plan.just (.listing targetRepoDir) .dir).both (copies t repo.entries targetRepoDir))

/-- What is planned for the list of the source. -/
def sourcePlan : Plan Duty (FileNode Bytes) :=
  (parents aptSourceFile.dropLast).both
    (Plan.just (.node aptSourceFile) (.file (utf8 aptSourceLine)))

/-- What is planned. -/
def planned (repo : Folder Bytes) (t : Tree) : Plan Duty (FileNode Bytes) :=
  (repoPlan repo t).both sourcePlan

theorem agrees_listing_copies (l : Listing Bytes) (t : Tree) (q : Place) :
    (Plan.just (.listing q) .dir).Agrees (copies t l q) := by
  apply Plan.agrees_of_apart
  rintro d n n' ⟨rfl, -⟩ hd
  exact ne_of_copies hd rfl

theorem agrees_parents_rest (l : Listing Bytes) (t : Tree) (q : Place) :
    (parents q).Agrees ((Plan.just (.listing q) .dir).both (copies t l q)) := by
  refine Plan.Agrees.both_right ?_ (agrees_parents_copies l t q)
  rintro d n n' ⟨rfl, -⟩ ⟨-, rfl⟩
  rfl

theorem agrees_repoPlan (repo : Folder Bytes) (t : Tree) :
    (repoPlan repo t).Agrees (repoPlan repo t) :=
  (agrees_parents _ _).both
    ((Plan.agrees_just _ _).both (agrees_copies_self repo.distinct t _)
      (agrees_listing_copies repo.entries t _))
    (agrees_parents_rest repo.entries t _)

/-- The list of the source is not on the way to the directory of the repository. -/
theorem agrees_parents_source :
    (parents aptSourceFile.dropLast).Agrees
      (Plan.just (.node aptSourceFile) (.file (utf8 aptSourceLine))) := by
  apply Plan.agrees_of_apart
  rintro d n n' ⟨-, p, rfl, hp⟩ ⟨heq, -⟩
  rw [Duty.node.inj heq] at hp
  exact absurd hp (by decide)

theorem agrees_sourcePlan : sourcePlan.Agrees sourcePlan :=
  (agrees_parents _ _).both (Plan.agrees_just _ _) agrees_parents_source

/-- Nothing is copied to a place on the way to the list of the source. -/
theorem not_copies_of_isPrefix {l : Listing Bytes} {r : Place} {n : FileNode Bytes}
    (hr : r <+: aptSourceFile) : ¬ copies t l targetRepoDir (.node r) n := by
  intro hd
  obtain ⟨name, -, hpre⟩ := exists_of_copies hd
  have hwhole := ((List.prefix_append targetRepoDir [name]).trans hpre).trans hr
  exact absurd hwhole (by decide)

theorem spans_repoPlan (repo : Folder Bytes) (t : Tree) :
    Spans targetRepoDir targetRepoDir (repoPlan repo t) := by
  have hlisting : Under targetRepoDir (Plan.just (.listing targetRepoDir) .dir) := by
    rintro d n ⟨rfl, -⟩
    exact List.prefix_rfl
  exact (spans_parents _ _).both
    ((hlisting.spans _).both ((under_copies t repo.entries targetRepoDir).spans _))

theorem spans_sourcePlan : Spans aptSourceFile.dropLast aptSourceFile sourcePlan := by
  have hfile : Under aptSourceFile
      (Plan.just (.node aptSourceFile) (.file (utf8 aptSourceLine))) := by
    rintro d n ⟨rfl, -⟩
    exact List.prefix_rfl
  exact (spans_parents _ _).both (hfile.spans _)

theorem agrees_repoPlan_sourcePlan (repo : Folder Bytes) (t : Tree) :
    (repoPlan repo t).Agrees sourcePlan :=
  (spans_repoPlan repo t).agrees spans_sourcePlan (by decide) (by decide) (by decide) (by decide)

/-- No place is planned in two ways. -/
theorem agrees_planned (repo : Folder Bytes) (t : Tree) :
    (planned repo t).Agrees (planned repo t) :=
  (agrees_repoPlan repo t).both agrees_sourcePlan (agrees_repoPlan_sourcePlan repo t)

/-! ## The step takes care of the plan -/

/-- Where files are to be copied, what was begun changes nothing that matters. -/
theorem SameAtFiles.toward {plan : Plan Duty (FileNode Bytes)} {l : Listing Bytes} {t' : Tree}
    (hsame : SameAtFiles t₀ t l q) (h : l.Distinct) (htoward : (writing f).Toward plan t t')
    (hplan : ∀ p c n, l.node p = some (.file c) → plan (.node (q ++ p)) n →
      copies t₀ l q (.node (q ++ p)) n) : SameAtFiles t₀ t' l q := by
  intro p c hp
  rcases htoward (.node (q ++ p)) with hlook | ⟨n, n', hn, hkind, hlook⟩
  · exact (FileTree.isdir_congr hlook).trans (hsame p c hp)
  · obtain ⟨hfree, rfl⟩ := copies_at_file h hp (hplan p c n hp hn)
    rw [hfree]
    exact isdir_of_begun_file hkind hlook

theorem takes_copyEntry {l : Listing Bytes} (h : l.Distinct) (hdir : t.isdir targetRepoDir = true)
    (hsame : SameAtFiles t₀ t l targetRepoDir) (name : String) :
    (writing f).Takes (itemCopies t₀ l targetRepoDir name) t (copyEntry f l t name) := by
  rw [itemCopies, copyEntry]
  have hnode (p : Place) := Listing.node_cons h name p
  cases hitem : l.item name with
  | none => exact Writing.takes_nothing (writing f) t
  | some item =>
      rw [hitem] at hnode
      cases item with
      | file c => exact takes_copy2 hdir (hsame [name] c (hnode []))
      | dir entries =>
          have hentries := Listing.distinct_of_item h hitem
          apply takes_copyDirectory hdir
          · intro p c hp
            rw [List.append_assoc]
            apply hsame (name :: p) c
            rw [hnode p, Option.bind_some, Item.node, if_neg _, hp]
            rintro rfl
            rw [Listing.node_nil] at hp
            cases hp
          · exact fun t' hdir' hsame' => takes_copyEntries hentries hdir' hsame'

/-- Nothing is copied to the directory itself. -/
theorem not_copies_self {l : Listing Bytes} {n : FileNode Bytes} :
    ¬ copies t l q (.node q) n := fun hd => ne_of_copies hd rfl

/-- The loop over the entries. -/
theorem takes_copyEach {l : Listing Bytes} (h : l.Distinct) (hdir : t.isdir targetRepoDir = true)
    (hsame : SameAtFiles t₀ t l targetRepoDir) :
    (writing f).Takes (copies t₀ l targetRepoDir) t
      (Attempt.forEach (copyEntry f l) t (sorted l.names)) := by
  have hnodup : (sorted l.names).Nodup :=
    (List.perm_insertionSort _ l.names).nodup_iff.mpr (Listing.nodup_names h)
  have hloop : (writing f).Takes
      (fun d n => ∃ name ∈ sorted l.names, itemCopies t₀ l targetRepoDir name d n) t
      (Attempt.forEach (copyEntry f l) t (sorted l.names)) := by
    refine Writing.takes_forEach ?_ ?_ (Writing.Toward.refl _ _ t)
    · exact hnodup.imp fun hne =>
        agrees_of_under (under_itemCopies t₀ l _ _) (under_itemCopies t₀ l _ _) hne
    · intro name _ s hs
      have hcopies := hs.mono fun d n => (copies_iff h).mpr
      apply takes_copyEntry h
      · rw [isdir_of_toward hcopies fun n => not_copies_self]
        exact hdir
      · exact hsame.toward h hcopies fun p c n _ hn => hn
  refine hloop.congr fun d n => ?_
  rw [copies_iff h]
  constructor
  · rintro ⟨name, -, hname⟩
    exact ⟨name, hname⟩
  · rintro ⟨name, hname⟩
    exact ⟨name, (List.mem_insertionSort _).mpr (mem_names_of_itemCopies hname), hname⟩

theorem takes_copyRepo {repo : Folder Bytes}
    (hsame : SameAtFiles t₀ t repo.entries targetRepoDir) :
    (writing f).Takes (repoPlan repo t₀) t (copyRepo f repo t) := by
  have hmade : (writing f).Takes (parents targetRepoDir) t (makedirs f t targetRepoDir) :=
    takes_makedirs
  refine hmade.andThen (fun hend => ?_) (agrees_parents_rest repo.entries t₀ _)
  refine takes_listDirectory.andThen (fun _ => ?_) (agrees_listing_copies repo.entries t₀ _)
  apply takes_copyEach repo.distinct
  · exact isdir_of_makedirs hend
  · refine hsame.toward repo.distinct hmade.toward ?_
    exact fun p c n hp hn => absurd hn (not_parents_of_file hp)

theorem takes_writeSource : (writing f).Takes sourcePlan t (writeSource f t) := by
  have hmade : (writing f).Takes (parents aptSourceFile.dropLast) t
      (makedirs f t aptSourceFile.dropLast) := takes_makedirs
  exact hmade.andThen (fun hend => takes_writeFile (isdir_of_makedirs hend)) agrees_parents_source

theorem takes_stageRepo {repo : Folder Bytes}
    (hsame : SameAtFiles t₀ t repo.entries targetRepoDir) :
    (writing f).Takes (planned repo t₀) t (stageRepo f repo t) :=
  (takes_copyRepo hsame).andThen (fun _ => takes_writeSource) (agrees_repoPlan_sourcePlan repo t₀)

/-! ## The results -/

/-- The repository that `run` stages: the first one on the medium, if it has an index. -/
def repoToStage (medium : Medium) : Option (Folder Bytes) :=
  (findRepo medium).filter fun repo => repo.entries.isfile "Packages"

/-- The whole repository stands in the target. -/
def Copied (repo : Folder Bytes) (t s : Tree) : Prop :=
  ∀ p n, repo.entries.node p = some n → s.node (placeOf t (targetRepoDir ++ p) n) = some n

theorem run_eq (medium : Medium) (f : Faults) (aptGetUpdate : Tree → Tree) (t : Tree) :
    run medium f aptGetUpdate t =
      match repoToStage medium with
      | none => ⟨t, none⟩
      | some repo => (stageRepo f repo t).andThen fun t => ⟨aptGetUpdate t, none⟩ := by
  rw [run, repoToStage]
  cases findRepo medium with
  | none => rfl
  | some repo =>
      rw [Option.filter]
      by_cases hindex : repo.entries.isfile "Packages" = true
      · rw [if_pos hindex]
        simp only [hindex, if_true]
      · rw [if_neg hindex]
        simp only [hindex, Bool.false_eq_true, if_false]

theorem isPrefix_of_sourcePlan {r : Place} {n : FileNode Bytes} (h : sourcePlan (.node r) n) :
    r <+: aptSourceFile := by
  rcases h with h | ⟨hr, -⟩
  · exact (isPrefix_of_parents h).trans (List.dropLast_prefix _)
  · rw [Duty.node.inj hr]

/-- The list of the source is not part of the repository. -/
theorem not_repoPlan_source {repo : Folder Bytes} {n : FileNode Bytes} :
    ¬ repoPlan repo t (.node aptSourceFile) n :=
  (spans_repoPlan repo t).not_node (by decide) (by decide) (by decide) List.prefix_rfl

/-- The list of the source is touched only after the whole repository has been copied. -/
theorem copied_of_source_ne {repo : Folder Bytes}
    (h : (stageRepo f repo t).state.node aptSourceFile ≠ t.node aptSourceFile) :
    Copied repo t (stageRepo f repo t).state := by
  intro p n hp
  have hcopy : (writing f).Takes (repoPlan repo t) t (copyRepo f repo t) :=
    takes_copyRepo fun _ _ _ => rfl
  have hplace := copies_of_node repo.distinct hp (t := t) (q := targetRepoDir)
  refine hcopy.done_of_begun (fun _ => takes_writeSource) (fun _ => not_repoPlan_source) h
    (Or.inr (Or.inr hplace)) fun n' hn' => ?_
  exact not_copies_of_isPrefix (isPrefix_of_sourcePlan hn') hplace

/-- Staging the repository, whatever fails: it raises exactly if a duty of the plan is stopped, and
then the list of the source is as it was unless the whole repository has been copied.  If it does
not raise, the repository is copied and the list of the source names it.  Every other place is as
it was. -/
theorem source_after_copy (medium : Medium) (f : Faults) (aptGetUpdate : Tree → Tree) (t : Tree) :
    (repoToStage medium = none → run medium f aptGetUpdate t = ⟨t, none⟩) ∧
      ∀ repo, repoToStage medium = some repo →
        let s := stageRepo f repo t
        run medium f aptGetUpdate t = s.andThen (fun t => ⟨aptGetUpdate t, none⟩) ∧
        (s.raised = none ↔ ∀ d n, planned repo t d n → Goes f (seen t d) d n) ∧
        (s.raised = none → s.state.content aptSourceFile = some (utf8 aptSourceLine)) ∧
        (s.raised = none ∨ s.state.node aptSourceFile ≠ t.node aptSourceFile →
          Copied repo t s.state) ∧
        ∀ q, ¬ q <+: targetRepoDir → ¬ q <+: aptSourceFile →
          (∀ p n, repo.entries.node p = some n → q ≠ placeOf t (targetRepoDir ++ p) n) →
          s.state.node q = t.node q := by
  refine ⟨fun hnone => by rw [run_eq, hnone], fun repo hrepo => ?_⟩
  have hstage : (writing f).Takes (planned repo t) t (stageRepo f repo t) :=
    takes_stageRepo fun _ _ _ => rfl
  refine ⟨by rw [run_eq, hrepo], hstage.raised, ?_, ?_, ?_⟩
  · intro hend
    exact FileTree.content_eq_some_iff.mpr
      (hstage.done hend (.node aptSourceFile) _ (Or.inr (Or.inr ⟨rfl, rfl⟩)))
  · rintro (hend | hchanged)
    · intro p n hp
      exact hstage.done hend _ _ (Or.inl (Or.inr (Or.inr (copies_of_node repo.distinct hp))))
    · exact copied_of_source_ne hchanged
  · intro q hrepodir hsource hcopied
    refine hstage.toward.look_eq (q := .node q) fun n hn => ?_
    rcases hn with (hq | ⟨hq, -⟩ | hq) | hq
    · exact hrepodir (isPrefix_of_parents hq)
    · cases hq
    · obtain ⟨p, hp, hplace⟩ := node_of_copies repo.distinct hq
      exact hcopied p n hp hplace
    · exact hsource (isPrefix_of_sourcePlan hq)

/-- The plan at a place where a file of the repository is to be copied. -/
theorem copies_of_planned {repo : Folder Bytes} {p : Place} {c : Bytes} {n : FileNode Bytes}
    (hp : repo.entries.node p = some (.file c))
    (hn : planned repo t (.node (targetRepoDir ++ p)) n) :
    copies t repo.entries targetRepoDir (.node (targetRepoDir ++ p)) n := by
  rcases hn with (hn | ⟨hr, -⟩ | hn) | hn
  · exact absurd hn (not_parents_of_file hp)
  · cases hr
  · exact hn
  · have hwhole := (List.prefix_append targetRepoDir p).trans (isPrefix_of_sourcePlan hn)
    exact absurd hwhole (by decide)

/-- After attempts with any faults, one that would have gone through at once goes through, and
leaves what it would have left. -/
theorem staged_after_attempts (repo : Folder Bytes) (attempts : List Faults) (f : Faults) (t : Tree)
    (h : (stageRepo f repo t).raised = none) :
    let t' := attempts.foldl (fun t f => (stageRepo f repo t).state) t
    (stageRepo f repo t').raised = none ∧
      ∀ q, (stageRepo f repo t').state.node q = (stageRepo f repo t).state.node q := by
  intro t'
  have hsame {s : Tree} (hs : (writing f).Toward (planned repo t) t s) :
      SameAtFiles t s repo.entries targetRepoDir :=
    SameAtFiles.toward (fun _ _ _ => rfl) repo.distinct hs fun _ _ _ => copies_of_planned
  have ht' : (writing f).Toward (planned repo t) t t' := by
    apply Writing.toward_foldl
    intro f' s hs
    exact (takes_stageRepo (f := f') (hsame hs)).toward
  have hfirst : (writing f).Takes (planned repo t) t (stageRepo f repo t) :=
    takes_stageRepo fun _ _ _ => rfl
  obtain ⟨hend, hlook⟩ :=
    hfirst.resume (agrees_planned repo t) h ht' (takes_stageRepo (hsame ht'))
  exact ⟨hend, fun q => hlook (.node q)⟩

/-- A repository with an index and a package. -/
def smallRepo : Folder Bytes where
  entries := .dir "pool" (.file "mission-core.deb" [0x21, 0x3c] .nil) (.file "Packages" [0x50] .nil)
  distinct := by simp [Listing.Distinct, Listing.names]

def freshTarget : Tree := (FileTree.empty.mkdir ["etc"]).mkdir ["var"]

def noFaults : Faults := ⟨fun _ => false, fun _ => false, fun _ => .done, fun _ => false⟩

/-- A disk on which there is room for one byte of each file. -/
def fullDisk : Faults := { noFaults with writes := fun _ => .cut 1 }

/-- An attempt on a full disk, and one for which no directory could be made, do no harm. -/
theorem staged_after_fullDisk :
    let t' := [fullDisk, { noFaults with refuses := fun _ => true }].foldl
      (fun t f => (stageRepo f smallRepo t).state) freshTarget
    (stageRepo noFaults smallRepo t').raised = none ∧
      ∀ q, (stageRepo noFaults smallRepo t').state.node q =
        (stageRepo noFaults smallRepo freshTarget).state.node q :=
  staged_after_attempts smallRepo _ noFaults freshTarget (by decide +kernel)

end MissionOs.Installer.Repo
