import MissionOs.Installer.StagedRepo

/-!
# Configuring the installed system

`run` of the installer's step `mission-os`: it enables the services, writes the name and the version
of the system, copies the settings of the kernel and makes the directory in which the first boot is
marked.  An exception ends the step but is only printed, so that the installation goes on.

The phases after the services are a plan like that of the repository, and what a phase has begun
tells that the ones before it are done (`configured_in_order`).  The step that stages the
repository runs later, and the two do not stand in each other's way (`staged_after_configured`).
-/

namespace MissionOs.Installer.PostInstall

open MissionOs.Lib MissionOs.Rust Repo

/-! ## The function -/

/-- `systemctl enable` of a unit in the target: what it does to the tree.  Its exit code is only
printed. -/
abbrev Systemctl := String → Repo.Tree → Repo.Tree

/-- `service_file`. -/
def serviceFile (svc : String) : Place := ["usr", "lib", "systemd", "system", svc ++ ".service"]

/-- `_enable_services`. -/
def enableServices (systemctl : Systemctl) (t : Repo.Tree) : Repo.Tree :=
  ["mission-securityd", "mission-driverd"].foldl
    (fun t svc => if t.isfile (serviceFile svc) then systemctl (svc ++ ".service") t else t) t

/-- `branding`. -/
def branding : List (Place × String) :=
  [(["etc", "hostname"], "mission-os\n"), (["etc", "mission", "VERSION"], "0.1.0-nightly\n")]

/-- What is done with one file of `branding`. -/
def writeBranding (f : Repo.Faults) (t : Repo.Tree) (file : Place × String) : Repo.Outcome :=
  (makedirs f t file.1.dropLast).andThen (writeFile f (utf8 file.2) file.1)

/-- `_apply_branding`. -/
def applyBranding (f : Repo.Faults) (t : Repo.Tree) : Repo.Outcome :=
  Attempt.forEach (writeBranding f) t branding

/-- `sysctl_src` on the live system, if it is a file. -/
def sysctlSrc (live : Medium) : Option Bytes :=
  (live "/usr/share/mission/defaults").bind fun defaults =>
    match defaults.entries.node ["sysctl", "99-mission-os.conf"] with
    | some (.file c) => some c
    | _ => none

/-- `sysctl_dst`. -/
def sysctlDst : Place := ["etc", "sysctl.d", "99-mission-os.conf"]

/-- `_apply_defaults`. -/
def applyDefaults (f : Repo.Faults) (live : Medium) (t : Repo.Tree) : Repo.Outcome :=
  match sysctlSrc live with
  | none => ⟨t, none⟩
  | some c =>
      (makedirs f t sysctlDst.dropLast).andThen (copy2 f c "99-mission-os.conf" sysctlDst)

/-- `state_dir`. -/
def stateDir : Place := ["var", "lib", "mission"]

/-- `_mark_first_boot_pending`. -/
def markFirstBootPending (f : Repo.Faults) (t : Repo.Tree) : Repo.Outcome := makedirs f t stateDir

/-- What `run` does after the services. -/
def configure (f : Repo.Faults) (live : Medium) (t : Repo.Tree) : Repo.Outcome :=
  (applyBranding f t).andThen fun t =>
    (applyDefaults f live t).andThen (markFirstBootPending f)

/-- `run`, which catches every exception. -/
def run (systemctl : Systemctl) (f : Repo.Faults) (live : Medium) (t : Repo.Tree) :
    Repo.Outcome :=
  ⟨(configure f live (enableServices systemctl t)).state, none⟩

/-! ## Phases -/

/-- What is configured, one after the other. -/
inductive Phase where
  | name
  | version
  | defaults
  | firstBoot
deriving DecidableEq, Repr

/-- The phases in their order. -/
def phases : List Phase := [.name, .version, .defaults, .firstBoot]

namespace Phase

variable {phase phase' : Phase} {f : Repo.Faults} {t t₀ : Repo.Tree} {live : Medium}

def act (f : Repo.Faults) (live : Medium) (t : Repo.Tree) : Phase → Repo.Outcome
  | name => writeBranding f t (["etc", "hostname"], "mission-os\n")
  | version => writeBranding f t (["etc", "mission", "VERSION"], "0.1.0-nightly\n")
  | defaults => applyDefaults f live t
  | firstBoot => markFirstBootPending f t

/-- The place that a phase is about. -/
def root : Phase → Place
  | name => ["etc", "hostname"]
  | version => ["etc", "mission", "VERSION"]
  | defaults => sysctlDst
  | firstBoot => stateDir

/-- The directory that it makes for that. -/
def dir : Phase → Place
  | firstBoot => stateDir
  | phase => phase.root.dropLast

/-- Where it puts something.  A file lands in a directory that has its place. -/
def place (t : Repo.Tree) : Phase → Place
  | defaults => landing t sysctlDst
  | phase => phase.root

/-- What is planned for it. -/
def plan (live : Medium) (t : Repo.Tree) : Phase → Plan Duty (FileNode Bytes)
  | name => (parents ["etc"]).both (Plan.just (.node ["etc", "hostname"])
      (.file (utf8 "mission-os\n")))
  | version => (parents ["etc", "mission"]).both (Plan.just (.node ["etc", "mission", "VERSION"])
      (.file (utf8 "0.1.0-nightly\n")))
  | defaults =>
      match sysctlSrc live with
      | none => Plan.nothing
      | some c => (parents sysctlDst.dropLast).both (fileCopy t sysctlDst c)
  | firstBoot => parents stateDir

/-- What is to be seen in the end, where the step began with `before`. -/
def Done (live : Medium) (before t : Repo.Tree) : Phase → Prop
  | name => t.content ["etc", "hostname"] = some (utf8 "mission-os\n")
  | version => t.content ["etc", "mission", "VERSION"] = some (utf8 "0.1.0-nightly\n")
  | defaults => ∀ c, sysctlSrc live = some c → t.content (landing before sysctlDst) = some c
  | firstBoot => t.isdir stateDir = true

/-! ## The plans of different phases -/

theorem spans_plan (live : Medium) (t : Repo.Tree) (phase : Phase) :
    Spans phase.dir phase.root (phase.plan live t) := by
  have hfile (dir q : Place) (c : Bytes) :
      Spans dir q ((parents dir).both (Plan.just (.node q) (.file c))) := by
    have hunder : Under q (Plan.just (.node q) (.file c)) := by
      rintro d n ⟨rfl, -⟩
      exact List.prefix_rfl
    exact (spans_parents dir q).both (hunder.spans dir)
  cases phase with
  | name => exact hfile _ _ _
  | version => exact hfile _ _ _
  | firstBoot => exact spans_parents _ _
  | defaults =>
      rw [plan]
      cases sysctlSrc live with
      | none => exact fun _ _ h => h.elim
      | some c => exact (spans_parents _ _).both ((under_fileCopy t sysctlDst c).spans _)

/-- The places of different phases are apart. -/
theorem apart (h : phase ≠ phase') :
    ¬ phase.root <+: phase'.dir ∧ ¬ phase.root <+: phase'.root := by
  cases phase <;> cases phase' <;> first | exact absurd rfl h | decide

theorem agrees_plan (h : phase ≠ phase') :
    (phase.plan live t).Agrees (phase'.plan live t) :=
  (spans_plan live t phase).agrees (spans_plan live t phase') (apart h).1 (apart h.symm).1
    (apart h).2 (apart h.symm).2

theorem root_isPrefix_place (t : Repo.Tree) (phase : Phase) : phase.root <+: phase.place t := by
  cases phase with
  | defaults => exact isPrefix_landing t sysctlDst
  | name => exact List.prefix_rfl
  | version => exact List.prefix_rfl
  | firstBoot => exact List.prefix_rfl

/-- No phase touches what another one is about. -/
theorem not_plan_of_isPrefix (h : phase ≠ phase') {q : Place} {n : FileNode Bytes}
    (hq : phase'.root <+: q) : ¬ phase.plan live t (.node q) n :=
  (spans_plan live t phase).not_node (apart h.symm).1 (apart h).2 (apart h.symm).2 hq

/-! ## The phases take care of their plans -/

theorem takes_writeBranding {q : Place} {text : String} {name : String} :
    (writing f).Takes ((parents q).both (Plan.just (.node (q ++ [name])) (.file (utf8 text)))) t
      (writeBranding f t (q ++ [name], text)) := by
  have hmade : (writing f).Takes (parents q) t (makedirs f t q) := takes_makedirs
  rw [writeBranding, List.dropLast_concat]
  refine hmade.andThen (fun hend => takes_writeFile ?_) ?_
  · rw [List.dropLast_concat]
    exact isdir_of_makedirs hend
  · apply Plan.agrees_of_apart
    rintro d n n' ⟨-, p, rfl, hp⟩ ⟨heq, -⟩
    have hlength := (Duty.node.inj heq ▸ hp).length_le
    rw [List.length_append, List.length_singleton] at hlength
    omega

theorem takes_applyDefaults (hsame : t.isdir sysctlDst = t₀.isdir sysctlDst) :
    (writing f).Takes (defaults.plan live t₀) t (applyDefaults f live t) := by
  rw [plan, applyDefaults]
  cases sysctlSrc live with
  | none => exact Writing.takes_nothing (writing f) t
  | some c =>
      have hmade : (writing f).Takes (parents sysctlDst.dropLast) t
          (makedirs f t sysctlDst.dropLast) := takes_makedirs
      have hagrees : (parents sysctlDst.dropLast).Agrees (fileCopy t₀ sysctlDst c) := by
        apply Plan.agrees_of_apart
        rintro d n n' ⟨-, p, rfl, hp⟩ hd
        exact absurd ((under_fileCopy t₀ sysctlDst c _ n' hd).trans hp) (by decide)
      refine hmade.andThen (fun hend => ?_) hagrees
      refine takes_copy2 (q := sysctlDst.dropLast) ?_ ?_
      · exact isdir_of_makedirs hend
      · refine (isdir_of_toward hmade.toward ?_).trans hsame
        exact fun n hn => absurd (isPrefix_of_parents hn) (by decide)

theorem takes_act (hsame : t.isdir sysctlDst = t₀.isdir sysctlDst) (phase : Phase) :
    (writing f).Takes (phase.plan live t₀) t (phase.act f live t) := by
  cases phase with
  | name => exact takes_writeBranding (q := ["etc"])
  | version => exact takes_writeBranding (q := ["etc", "mission"])
  | defaults => exact takes_applyDefaults hsame
  | firstBoot => exact takes_makedirs

/-- Where the settings are to be copied there is a directory or none as before. -/
theorem isdir_sysctlDst (h : (writing f).Toward (fun d n => ∃ phase, plan live t₀ phase d n) t₀ t) :
    t.isdir sysctlDst = t₀.isdir sysctlDst := by
  rcases h (.node sysctlDst) with hlook | ⟨n, n', ⟨phase, hn⟩, hkind, hlook⟩
  · exact FileTree.isdir_congr hlook
  · have hdefaults : phase = defaults := by
      by_contra hne
      have hroot : defaults.root <+: sysctlDst := List.prefix_rfl
      exact not_plan_of_isPrefix hne hroot hn
    rw [hdefaults, plan] at hn
    cases hsrc : sysctlSrc live with
    | none =>
        rw [hsrc] at hn
        exact hn.elim
    | some c =>
        rw [hsrc] at hn
        rcases hn with hn | hn
        · exact absurd (isPrefix_of_parents hn) (by decide)
        · obtain ⟨hfree, rfl⟩ := fileCopy_self hn
          rw [hfree]
          exact isdir_of_begun_file hkind hlook

/-- Phases one after the other. -/
theorem takes_forEach_act {xs : List Phase} (hnodup : xs.Nodup)
    (hs : (writing f).Toward (fun d n => ∃ phase, plan live t₀ phase d n) t₀ t) :
    (writing f).Takes (fun d n => ∃ phase ∈ xs, phase.plan live t₀ d n) t
      (Attempt.forEach (act f live) t xs) :=
  Writing.takes_forEach (hnodup.imp agrees_plan)
    (fun phase _ _ hs => takes_act (isdir_sysctlDst hs) phase) hs

/-- What is planned for the place of a phase stands in the end. -/
theorem done_of_planned
    (h : ∀ q n, phase.root <+: q → phase.plan live t₀ (.node q) n → t.node q = some n) :
    phase.Done live t₀ t := by
  cases phase with
  | name => exact FileTree.content_eq_some_iff.mpr (h _ _ List.prefix_rfl (Or.inr ⟨rfl, rfl⟩))
  | version => exact FileTree.content_eq_some_iff.mpr (h _ _ List.prefix_rfl (Or.inr ⟨rfl, rfl⟩))
  | firstBoot =>
      exact FileTree.isdir_iff.mpr (h _ .dir List.prefix_rfl (parents_self _))
  | defaults =>
      intro c hc
      rw [plan, hc] at h
      exact FileTree.content_eq_some_iff.mpr
        (h _ _ (isPrefix_landing t₀ _) (Or.inr (Or.inl ⟨rfl, rfl⟩)))

/-- A phase puts things on the way to its place and there. -/
theorem isPrefix_or_eq_place {q : Place} {n : FileNode Bytes}
    (h : phase.plan live t (.node q) n) : q <+: phase.dir ∨ q = phase.place t := by
  cases phase with
  | name =>
      rcases h with h | ⟨hq, -⟩
      · exact Or.inl (isPrefix_of_parents h)
      · exact Or.inr (Duty.node.inj hq)
  | version =>
      rcases h with h | ⟨hq, -⟩
      · exact Or.inl (isPrefix_of_parents h)
      · exact Or.inr (Duty.node.inj hq)
  | firstBoot => exact Or.inl (isPrefix_of_parents h)
  | defaults =>
      rw [plan] at h
      cases hsrc : sysctlSrc live with
      | none =>
          rw [hsrc] at h
          exact h.elim
      | some c =>
          rw [hsrc] at h
          rcases h with h | ⟨hq, -⟩ | ⟨hq, -⟩
          · exact Or.inl (isPrefix_of_parents h)
          · exact Or.inr (Duty.node.inj hq)
          · cases hq

end Phase

/-! ## The phases in their order -/

variable {f : Repo.Faults} {t : Repo.Tree} {live : Medium}

theorem configure_eq (f : Repo.Faults) (live : Medium) (t : Repo.Tree) :
    configure f live t = Attempt.forEach (Phase.act f live) t phases := by
  have hbranding (t : Repo.Tree) :
      applyBranding f t = Attempt.forEach (Phase.act f live) t [.name, .version] := rfl
  have hrest (t : Repo.Tree) : (applyDefaults f live t).andThen (markFirstBootPending f) =
      Attempt.forEach (Phase.act f live) t [.defaults, .firstBoot] := by
    rw [Attempt.forEach]
    congr 1
    funext t
    exact (Attempt.forEach_singleton (Phase.act f live) t .firstBoot).symm
  rw [configure, hbranding]
  simp only [hrest]
  exact (Attempt.forEach_append (Phase.act f live) t [.name, .version] [.defaults, .firstBoot]).symm

/-- What is planned. -/
def plannedPhases (live : Medium) (t : Repo.Tree) : Plan Duty (FileNode Bytes) :=
  fun d n => ∃ phase ∈ phases, phase.plan live t d n

theorem takes_configure (f : Repo.Faults) (live : Medium) (t : Repo.Tree) :
    (writing f).Takes (plannedPhases live t) t (configure f live t) := by
  rw [configure_eq]
  exact Phase.takes_forEach_act (by decide) (Writing.Toward.refl _ _ _)

/-- What a phase has begun tells that the ones before it are done. -/
theorem done_before {before after : List Phase} {phase p : Phase}
    (hphases : phases = before ++ phase :: after) (hp : p ∈ before)
    (hbegun : (configure f live t).state.node (phase.place t) ≠ t.node (phase.place t)) :
    p.Done live t (configure f live t).state := by
  have hnodup : (before ++ phase :: after).Nodup := hphases ▸ (by decide : phases.Nodup)
  obtain ⟨hbefore, hafter, hne⟩ := List.nodup_append.mp hnodup
  rw [configure_eq, hphases, Attempt.forEach_append] at hbegun ⊢
  have hfirst : (writing f).Takes (fun d n => ∃ p ∈ before, p.plan live t d n) t
      (Attempt.forEach (Phase.act f live) t before) :=
    Phase.takes_forEach_act hbefore (Writing.Toward.refl _ _ _)
  have hlater := hfirst.toward.mono fun d n hd => (hd.imp fun p hp => hp.2 : ∃ p : Phase, _)
  apply Phase.done_of_planned
  intro q n hroot hq
  -- nothing that comes before a phase touches its place
  have hplace : ∀ n', ¬ ∃ p' ∈ before, p'.plan live t (.node (phase.place t)) n' := by
    rintro n' ⟨p', hp', hn'⟩
    exact Phase.not_plan_of_isPrefix (hne p' hp' phase List.mem_cons_self)
      (Phase.root_isPrefix_place t phase) hn'
  -- and what comes after one leaves alone what it has done
  have hkept : ∀ n', ¬ ∃ p' ∈ phase :: after, p'.plan live t (.node q) n' := by
    rintro n' ⟨p', hp', hn'⟩
    exact Phase.not_plan_of_isPrefix (hne p hp p' hp').symm hroot hn'
  exact hfirst.done_of_begun (fun _ => Phase.takes_forEach_act hafter hlater) hplace hbegun
    ⟨p, hp, hq⟩ hkept

/-- Configuring the installed system, whatever fails: the step never raises, and its phases go
through exactly if no duty of their plans is stopped.  If they do, all of them are done.  Where
something of a phase has been begun, the phases before it are done.  Every other place is as the
services left it. -/
theorem configured_in_order (systemctl : Systemctl) (f : Repo.Faults) (live : Medium)
    (t : Repo.Tree) :
    let t' := enableServices systemctl t
    let s := configure f live t'
    run systemctl f live t = ⟨s.state, none⟩ ∧
      (s.raised = none ↔
        ∀ phase ∈ phases, ∀ d n, phase.plan live t' d n → Goes f (seen t' d) d n) ∧
      (s.raised = none → ∀ phase ∈ phases, phase.Done live t' s.state) ∧
      (∀ before phase after, phases = before ++ phase :: after →
        s.state.node (phase.place t') ≠ t'.node (phase.place t') →
          ∀ p ∈ before, p.Done live t' s.state) ∧
      ∀ q, (∀ phase ∈ phases, ¬ q <+: phase.dir ∧ q ≠ phase.place t') →
        s.state.node q = t'.node q := by
  intro t' s
  have h := takes_configure f live t'
  refine ⟨rfl, ?_, ?_, ?_, ?_⟩
  · rw [h.raised]
    constructor
    · exact fun hall phase hphase d n hd => hall d n ⟨phase, hphase, hd⟩
    · rintro hall d n ⟨phase, hphase, hd⟩
      exact hall phase hphase d n hd
  · intro hend phase hphase
    exact Phase.done_of_planned fun q n _ hq => h.done hend (.node q) n ⟨phase, hphase, hq⟩
  · exact fun before phase after hphases hbegun p hp => done_before hphases hp hbegun
  · intro q hq
    refine h.toward.look_eq (q := .node q) ?_
    rintro n ⟨phase, hphase, hn⟩
    rcases Phase.isPrefix_or_eq_place hn with hpre | heq
    · exact (hq phase hphase).1 hpre
    · exact (hq phase hphase).2 heq

/-! ## The step that stages the repository -/

/-- The repository and the list of its source are planned apart from every phase. -/
theorem agrees_plannedPhases (live : Medium) (repo : Folder Bytes) (t : Repo.Tree) :
    (plannedPhases live t).Agrees (Repo.planned repo t) := by
  have hphase (phase : Phase) : (phase.plan live t).Agrees (Repo.planned repo t) := by
    have hspans := Phase.spans_plan live t phase
    refine Plan.Agrees.both_right ?_ ?_
    · apply hspans.agrees (spans_repoPlan repo t) <;> cases phase <;> decide
    · apply hspans.agrees spans_sourcePlan <;> cases phase <;> decide
  rintro d n n' ⟨phase, -, hd⟩ hd'
  exact hphase phase d n n' hd hd'

/-- Staging the repository does not touch what a phase is about. -/
theorem not_planned_place {repo : Folder Bytes} {phase : Phase} {q : Place} {n : FileNode Bytes}
    (hq : phase.root <+: q) : ¬ Repo.planned repo t (.node q) n := by
  rintro (h | h)
  · refine (spans_repoPlan repo t).not_node ?_ ?_ ?_ hq h <;> cases phase <;> decide
  · refine spans_sourcePlan.not_node ?_ ?_ ?_ hq h <;> cases phase <;> decide

/-- No phase touches the directory of the repository or anything below it. -/
theorem not_plannedPhases_below {q : Place} {n : FileNode Bytes} (hq : targetRepoDir <+: q) :
    ¬ plannedPhases live t (.node q) n := by
  rintro ⟨phase, -, h⟩
  refine (Phase.spans_plan live t phase).not_node ?_ ?_ ?_ hq h <;> cases phase <;> decide

/-- Where the repository and the list of its source are to stand, two trees are the same. -/
def SameForRepo (t t' : Repo.Tree) : Prop :=
  ∀ q, targetRepoDir <+: q ∨ q <+: targetRepoDir ∨ q <+: aptSourceFile → t'.node q = t.node q

theorem SameForRepo.look_eq {t' s : Repo.Tree} (h : SameForRepo t t') {repo : Folder Bytes}
    {d : Duty} {n : FileNode Bytes} (hd : Repo.planned repo s d n) : seen t' d = seen t d := by
  cases d with
  | listing q => rfl
  | stamp q => rfl
  | node q =>
      apply h
      rcases hd with hd | hd
      · rcases spans_repoPlan repo s _ n hd with hparents | hbelow
        · exact Or.inr (Or.inl (isPrefix_of_parents hparents))
        · exact Or.inl hbelow
      · exact Or.inr (Or.inr (isPrefix_of_sourcePlan hd))

/-- The repository is staged after the phases and after steps that leave its places alone.  If
staging it would have gone through without the phases, it goes through, whatever failed in them; it
puts the same things to the same places, and leaves alone what the phases put to theirs. -/
theorem staged_after_configured (systemctl : Systemctl) (live : Medium) (repo : Folder Bytes)
    (f f' : Repo.Faults) (between : Repo.Tree → Repo.Tree) (t : Repo.Tree)
    (hbetween : SameForRepo (run systemctl f live t).state
      (between (run systemctl f live t).state))
    (h : (stageRepo f' repo (enableServices systemctl t)).raised = none) :
    let t' := enableServices systemctl t
    let s := between (run systemctl f live t).state
    (stageRepo f' repo s).raised = none ∧
      (∀ q n, Repo.planned repo t' (.node q) n →
        (stageRepo f' repo s).state.node q = (stageRepo f' repo t').state.node q) ∧
      ∀ phase : Phase, ∀ q, phase.root <+: q → (stageRepo f' repo s).state.node q = s.node q := by
  intro t' s
  have hphases := (takes_configure f live t').toward
  have hsame : SameAtFiles t' s repo.entries targetRepoDir := by
    intro p c _
    have hbelow := List.prefix_append targetRepoDir p
    apply FileTree.isdir_congr
    exact (hbetween _ (Or.inl hbelow)).trans
      (hphases.look_eq (q := .node (targetRepoDir ++ p)) fun _ => not_plannedPhases_below hbelow)
  have hfirst : (writing f').Takes (Repo.planned repo t') t' (stageRepo f' repo t') :=
    takes_stageRepo fun _ _ _ => rfl
  have hsecond : (writing f').Takes (Repo.planned repo t') s (stageRepo f' repo s) :=
    takes_stageRepo hsame
  have hend := hfirst.ends_after h hphases (agrees_plannedPhases live repo t')
    (fun d n hd => hbetween.look_eq hd) hsecond
  refine ⟨hend, ?_, ?_⟩
  · intro q n hq
    exact (hsecond.done hend (.node q) n hq).trans (hfirst.done h (.node q) n hq).symm
  · intro phase q hq
    exact hsecond.toward.look_eq (q := .node q) fun _ => not_planned_place hq

/-- The phases on a disk that is full. -/
def fullDiskConfigured : Repo.Tree :=
  (run (fun _ t => t) fullDisk (fun _ => none) freshTarget).state

/-- The disk was full for the phases, and the boot loader has made a directory since. -/
theorem staged_after_fullDiskConfigured :
    let s := fullDiskConfigured.mkdir ["boot"]
    s.content ["etc", "hostname"] = some [0x6d] ∧
      (stageRepo noFaults smallRepo s).raised = none ∧
      (stageRepo noFaults smallRepo s).state.node ["etc", "hostname"] =
        s.node ["etc", "hostname"] := by
  have hbetween : SameForRepo fullDiskConfigured (fullDiskConfigured.mkdir ["boot"]) := by
    intro q hq
    refine (FileTree.node_insert (by decide +kernel) (by decide +kernel) _ q).trans (if_neg ?_)
    rintro rfl
    revert hq
    decide
  obtain ⟨hend, -, hkept⟩ := staged_after_configured (fun _ t => t) (fun _ => none) smallRepo
    fullDisk noFaults (fun t => t.mkdir ["boot"]) freshTarget hbetween (by decide +kernel)
  exact ⟨by decide +kernel, hend, hkept .name _ List.prefix_rfl⟩

end MissionOs.Installer.PostInstall
