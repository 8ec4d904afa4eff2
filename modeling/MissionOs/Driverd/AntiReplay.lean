import MissionOs.Driverd.ManifestBinding
import MissionOs.Lib.Runs

/-!
# Replayed manifests

A run of verifications is a run over the record of the manifests accepted so far.  The
record is a matter of the specification: `verify_manifest` keeps nothing, so what it accepts
is decided by each call alone, and a genuine manifest is accepted at any place in a run.
-/

namespace MissionOs.Driverd

open MissionOs.Rust MissionOs.Lib

namespace VerifyCall

variable (env : Env) (manager : RepositoryManager)

/-- Some trusted key makes the manifest of a call genuine. -/
def IsGenuine (call : VerifyCall) : Prop := ∃ keyHex, call.Genuine env manager keyHex

/-- The manifests accepted so far, after one more call. -/
def record (call : VerifyCall) (accepted : List RepositoryManifest) : List RepositoryManifest :=
  match call.outcome env manager with
  | .ok (.ok m, _) => accepted ++ [m]
  | _ => accepted

/-- A call does not go back behind the manifests that were accepted before it: what it adds
to them is issued no earlier than those of the same repository. -/
def NoReplay (before after : List RepositoryManifest) : Prop :=
  ∀ m, after = before ++ [m] →
    ∀ earlier ∈ before, earlier.repositoryId = m.repositoryId → earlier.issuedAt ≤ m.issuedAt

/-- The manifest of the second call is one of the same repository that is not older. -/
def Follows (call later : VerifyCall) : Prop :=
  call.manifest.repositoryId = later.manifest.repositoryId →
    call.manifest.issuedAt ≤ later.manifest.issuedAt

variable {env manager}

/-- A genuine manifest is recorded, with its repository and its time. -/
theorem record_of_isGenuine {call : VerifyCall} (h : call.IsGenuine env manager)
    (accepted : List RepositoryManifest) :
    ∃ verification, call.record env manager accepted =
      accepted ++ [{ call.manifest with verification := verification }] := by
  obtain ⟨keyHex, hgenuine⟩ := h
  obtain ⟨events, houtcome⟩ := accepts_iff.mpr ⟨keyHex, hgenuine, rfl⟩
  exact ⟨.verified keyHex, by rw [record, houtcome]⟩

/-- What is not genuine is not recorded. -/
theorem record_of_not_isGenuine {call : VerifyCall} (h : ¬call.IsGenuine env manager)
    (accepted : List RepositoryManifest) : call.record env manager accepted = accepted := by
  rw [record]
  split
  · rename_i m events houtcome
    obtain ⟨keyHex, hgenuine, -⟩ := accepts_iff.mp ⟨events, houtcome⟩
    exact absurd ⟨keyHex, hgenuine⟩ h
  · rfl

/-- A call goes back behind nothing exactly if its manifest is not genuine, or not older
than what was accepted. -/
theorem noReplay_record_iff {call : VerifyCall} {accepted : List RepositoryManifest} :
    NoReplay accepted (call.record env manager accepted) ↔
      (call.IsGenuine env manager → ∀ m ∈ accepted,
        m.repositoryId = call.manifest.repositoryId → m.issuedAt ≤ call.manifest.issuedAt) := by
  by_cases hgenuine : call.IsGenuine env manager
  · obtain ⟨verification, hrecord⟩ := record_of_isGenuine hgenuine accepted
    rw [hrecord]
    constructor
    · intro h _
      exact h { call.manifest with verification := verification } rfl
    · intro h m hm
      rw [List.append_cancel_left_eq, List.cons.injEq] at hm
      rw [← hm.1]
      exact h hgenuine
  · simp [NoReplay, record_of_not_isGenuine hgenuine, hgenuine]

/-- The step to a whole run: behind what was accepted before it, and behind what the run
itself accepts, no call goes back. -/
theorem noReplay_run_iff {calls : List VerifyCall} {accepted : List RepositoryManifest} :
    (∀ t ∈ transitions (record env manager) accepted calls, NoReplay t.before t.after) ↔
      (∀ call ∈ calls, call.IsGenuine env manager → ∀ m ∈ accepted,
        m.repositoryId = call.manifest.repositoryId → m.issuedAt ≤ call.manifest.issuedAt) ∧
      calls.Pairwise fun call later =>
        call.IsGenuine env manager → later.IsGenuine env manager → call.Follows later := by
  induction calls generalizing accepted with
  | nil => simp
  | cons call calls ih =>
      rw [transitions_cons, List.forall_mem_cons, ih, noReplay_record_iff, List.forall_mem_cons,
        List.pairwise_cons]
      by_cases hgenuine : call.IsGenuine env manager
      · obtain ⟨verification, hrecord⟩ := record_of_isGenuine hgenuine accepted
        -- What the later calls are measured by is what was accepted before, and this one.
        have hsplit : ∀ later : VerifyCall,
            (∀ m ∈ call.record env manager accepted,
                m.repositoryId = later.manifest.repositoryId →
                  m.issuedAt ≤ later.manifest.issuedAt) ↔
              (∀ m ∈ accepted, m.repositoryId = later.manifest.repositoryId →
                m.issuedAt ≤ later.manifest.issuedAt) ∧ call.Follows later := by
          intro later
          rw [hrecord, List.forall_mem_append, List.forall_mem_singleton]
          rfl
        simp only [hsplit, hgenuine, forall_const, imp_and, forall_and]
        constructor
        · intro h
          obtain ⟨hcall, ⟨hbefore, hfollows⟩, hcalls⟩ := h
          exact ⟨⟨hcall, hbefore⟩, hfollows, hcalls⟩
        · intro h
          obtain ⟨⟨hcall, hbefore⟩, hfollows, hcalls⟩ := h
          exact ⟨hcall, ⟨hbefore, hfollows⟩, hcalls⟩
      · simp [record_of_not_isGenuine hgenuine, hgenuine]

/-- In a run of verifications no manifest is accepted behind one that was issued later,
exactly if the genuine ones among them come in the order in which they were issued. -/
theorem noReplay_iff (env : Env) (manager : RepositoryManager) (calls : List VerifyCall) :
    (∀ t ∈ transitions (record env manager) [] calls, NoReplay t.before t.after) ↔
      calls.Pairwise fun call later =>
        call.IsGenuine env manager → later.IsGenuine env manager → call.Follows later := by
  rw [noReplay_run_iff]
  simp

end VerifyCall

/-- The manifest of the time 1000 is accepted at that time, and the one of the time 900 a
second later. -/
theorem older_manifest_accepted :
    ¬∀ t ∈ transitions (VerifyCall.record officialEnv ⟨.default⟩) []
        [officialCall 1000 (officialJson "1000" "2000") (officialManifest 1000 2000),
          officialCall 1001 (officialJson "900" "2000") (officialManifest 900 2000)],
      VerifyCall.NoReplay t.before t.after := by
  rw [VerifyCall.noReplay_run_iff, List.pairwise_cons]
  intro h
  obtain ⟨-, hfollows, -⟩ := h
  have hnewer : VerifyCall.IsGenuine officialEnv ⟨.default⟩
      (officialCall 1000 (officialJson "1000" "2000") (officialManifest 1000 2000)) :=
    ⟨_, by decide, by decide, officialCall_signed _ _ (by decide +kernel)⟩
  have holder : VerifyCall.IsGenuine officialEnv ⟨.default⟩
      (officialCall 1001 (officialJson "900" "2000") (officialManifest 900 2000)) :=
    ⟨_, by decide, by decide, officialCall_signed _ _ (by decide +kernel)⟩
  exact absurd (hfollows _ List.mem_cons_self hnewer holder rfl) (by decide)

end MissionOs.Driverd
