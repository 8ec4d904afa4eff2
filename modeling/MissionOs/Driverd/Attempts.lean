import MissionOs.Driverd.Download

/-!
# The attempts of a download

The rule for the retry loop of `DownloadManager::download`.  An invariant holds whenever
an attempt begins; `attempts_ensures` asks what one attempt does from there, and concludes
what the whole loop does.  `attemptStarts` lists the sessions in which the attempts of a
loop begin, so that a condition on every attempt of a call can be stated.

Between two attempts there is only an audit event (`Audited`).
-/

namespace MissionOs.Driverd

open MissionOs.Rust MissionOs.Lib

/-- The trackers are of one download: only its progress differs. -/
structure DownloadTracker.Same (t t' : DownloadTracker) : Prop where
  url : t'.url = t.url
  destination : t'.destination = t.destination
  digest : t'.digest = t.digest
  expectedSize : t'.expectedSize = t.expectedSize

theorem DownloadTracker.Same.refl (t : DownloadTracker) : t.Same t := ⟨rfl, rfl, rfl, rfl⟩

theorem DownloadTracker.Same.after {t t' : DownloadTracker} (h : t.Same t')
    (e : ServiceError) (state : DownloadState) : t.Same (t'.after e state) :=
  ⟨h.url, h.destination, h.digest, h.expectedSize⟩

/-- From `s` to `s'` the clock is read and one event is audited. -/
def Audited (s s' : Session) : Prop :=
  s'.fs = s.fs ∧ ∃ e, s'.trace = s.trace ++ [.now, .audit e]

theorem Audited.length {s s' : Session} (h : Audited s s') :
    s'.trace.length = s.trace.length + 2 := by
  obtain ⟨-, e, htrace⟩ := h
  simp [htrace]

/-- The calls of an audit satisfy `P`. -/
def AllowsAudit (P : FetchCall → Session → Prop) : Prop :=
  ∀ s, P .now s ∧ ∀ e, P (.audit e) s

theorem allowsAudit_any : AllowsAudit fun _ _ => True := fun _ => ⟨trivial, fun _ => trivial⟩

namespace DownloadManager

variable (manager : DownloadManager) (env : FetchEnv)

/-- An audit event is one reading of the clock and one record, and cannot fail. -/
theorem auditDownload_ensures {P : FetchCall → Session → Prop} (hP : AllowsAudit P)
    (tracker : DownloadTracker) (sourceId subject action : String)
    (severity : EventSeverity) (s : Session) :
    Fallible.Ensures env.handler P
      (auditDownload env tracker sourceId subject action severity)
      (fun _ s' => Audited s s') (fun _ _ => False) s := by
  unfold auditDownload
  refine Fallible.ensures_bind.mpr (Fallible.ensures_perform.mpr ⟨(hP s).1, ?_⟩)
  refine Fallible.ensures_perform.mpr ⟨(hP _).2 _, rfl, ?_⟩
  exact ⟨_, List.append_assoc s.trace [.now] [_]⟩

/-- The run of an audit event ends well. -/
theorem run_auditDownload (tracker : DownloadTracker) (sourceId subject action : String)
    (severity : EventSeverity) (s : Session) :
    ∃ s', (auditDownload env tracker sourceId subject action severity).run.run env.handler s =
      (.ok (), s') ∧ Audited s s' := by
  have haudit := auditDownload_ensures env allowsAudit_any tracker sourceId subject action
    severity s
  rcases hrun : CallProg.run env.handler
    (auditDownload env tracker sourceId subject action severity).run s with ⟨e | u, s'⟩
  · exact (haudit.of_error hrun).elim
  · exact ⟨s', rfl, haudit.of_ok hrun⟩

/-- A tracker of the same download leads to the same attempt. -/
theorem performDownloadWithResume_congr {t t' : DownloadTracker} (h : t.Same t')
    (partialPath : Path) (resumeOffset : Option Nat) :
    manager.performDownloadWithResume env t' partialPath resumeOffset =
      manager.performDownloadWithResume env t partialPath resumeOffset := by
  unfold performDownloadWithResume
  rw [h.url, h.destination, h.expectedSize]

/-- The sessions in which the attempts of the loop begin. -/
def attemptStarts (partialPath : Path) (existingSize : Option Nat)
    (sourceId subject : String) : Nat → DownloadTracker → Session → List Session
  | 0, _, s => [s]
  | left + 1, tracker, s =>
    s :: match (manager.performDownloadWithResume env tracker partialPath
        existingSize).run.run env.handler s with
      | (.ok _, _) => []
      | (.error e, s') =>
        if manager.retryPolicy.shouldRetry e then
          attemptStarts partialPath existingSize sourceId subject left
            (tracker.after e .downloadRetry)
            ((auditDownload env (tracker.after e .downloadRetry) sourceId subject
              "download_retry" .warning).run.run env.handler s').2
        else []

/-! ## How the loop runs -/

section Run

variable {manager env}
variable {partialPath : Path} {existingSize : Option Nat} {sourceId subject : String}
  {again : Option (DownloadTracker → Fetch Path)} {tracker tracker₀ : DownloadTracker}
  {s s₁ s₂ : Session} {e : ServiceError} {result : DownloadResult}

/-- After an attempt that delivers a file the file is looked at. -/
theorem run_attemptDownload_ok
    (hrun : (manager.performDownloadWithResume env tracker partialPath existingSize).run.run
      env.handler s = (.ok result, s₁)) :
    (manager.attemptDownload env partialPath existingSize sourceId subject again
        tracker).run.run env.handler s =
      (manager.acceptDownload env tracker result sourceId subject).run.run env.handler s₁ := by
  unfold attemptDownload
  rw [Fallible.run_bind, Fallible.run_attempt, hrun]
  rfl

/-- After a transient error the rest of the loop follows. -/
theorem run_attemptDownload_retry {rest : DownloadTracker → Fetch Path}
    (hrun : (manager.performDownloadWithResume env tracker partialPath existingSize).run.run
      env.handler s = (.error e, s₁))
    (hretry : manager.retryPolicy.shouldRetry e = true) :
    (manager.attemptDownload env partialPath existingSize sourceId subject (some rest)
        tracker).run.run env.handler s =
      (rest (tracker.after e .downloadRetry)).run.run env.handler
        ((auditDownload env (tracker.after e .downloadRetry) sourceId subject
          "download_retry" .warning).run.run env.handler s₁).2 := by
  obtain ⟨s₂, haudit, -⟩ := run_auditDownload env (tracker.after e .downloadRetry) sourceId
    subject "download_retry" .warning s₁
  unfold attemptDownload
  rw [Fallible.run_bind, Fallible.run_attempt, hrun]
  simp only [ExceptT.bindCont, hretry]
  refine (Fallible.run_bind _ _ _ _).trans ?_
  rw [haudit]
  rfl

variable (sourceId subject) in
/-- After an error that is not followed by another attempt the download fails with it. -/
theorem run_attemptDownload_error
    (hrun : (manager.performDownloadWithResume env tracker partialPath existingSize).run.run
      env.handler s = (.error e, s₁))
    (hlast : again = none ∨ manager.retryPolicy.shouldRetry e = false) :
    ∃ s₂, (manager.attemptDownload env partialPath existingSize sourceId subject again
        tracker).run.run env.handler s = (.error e, s₂) ∧ Audited s₁ s₂ := by
  obtain ⟨s₂, haudit, hs₂⟩ := run_auditDownload env (tracker.after e .failed) sourceId
    subject "download_failed" .error s₁
  refine ⟨s₂, ?_, hs₂⟩
  unfold attemptDownload
  rw [Fallible.run_bind, Fallible.run_attempt, hrun]
  simp only [ExceptT.bindCont]
  split
  · rename_i hretry
    rcases hlast with h | h
    · cases h
    · rw [h] at hretry
      cases hretry
  · refine (Fallible.run_bind _ _ _ _).trans ?_
    rw [haudit]
    rfl

/-- The first attempt of a loop begins where the loop does. -/
theorem mem_attemptStarts_self (left : Nat) :
    s ∈ manager.attemptStarts env partialPath existingSize sourceId subject left tracker s := by
  cases left <;> exact List.mem_cons_self

/-- The sessions in which the attempts after a failed one begin. -/
theorem attemptStarts_retry {left : Nat}
    (hrun : (manager.performDownloadWithResume env tracker partialPath existingSize).run.run
      env.handler s = (.error e, s₁))
    (hretry : manager.retryPolicy.shouldRetry e = true) :
    manager.attemptStarts env partialPath existingSize sourceId subject (left + 1) tracker s =
      s :: manager.attemptStarts env partialPath existingSize sourceId subject left
        (tracker.after e .downloadRetry)
        ((auditDownload env (tracker.after e .downloadRetry) sourceId subject
          "download_retry" .warning).run.run env.handler s₁).2 := by
  rw [attemptStarts, hrun]
  simp only [hretry, if_true]

/-- No attempt follows one that is the last allowed, that delivers a file, or that fails for
good. -/
theorem attemptStarts_last {left : Nat}
    (hlast : ∀ e s₁, (manager.performDownloadWithResume env tracker partialPath
      existingSize).run.run env.handler s = (.error e, s₁) →
        left = 0 ∨ manager.retryPolicy.shouldRetry e = false) :
    manager.attemptStarts env partialPath existingSize sourceId subject left tracker s = [s] := by
  cases left with
  | zero => rfl
  | succ left =>
      rw [attemptStarts]
      rcases hrun : CallProg.run env.handler (manager.performDownloadWithResume env tracker
        partialPath existingSize).run s with ⟨e | result, s₁⟩
      · rcases hlast e s₁ hrun with h | h
        · cases h
        · simp only [h, Bool.false_eq_true, if_false]
      · rfl

/-- What the failed attempts of a loop keep holds whenever one of them begins. -/
theorem attemptStarts_keep {I : Session → Prop} (left : Nat) (hsame : tracker₀.Same tracker)
    (hI : I s)
    (hstep : ∀ s₁ ∈ manager.attemptStarts env partialPath existingSize sourceId subject left
      tracker s, ∀ e s₂ s₃, I s₁ → (manager.performDownloadWithResume env tracker₀ partialPath
        existingSize).run.run env.handler s₁ = (.error e, s₂) → Audited s₂ s₃ → I s₃) :
    ∀ s₁ ∈ manager.attemptStarts env partialPath existingSize sourceId subject left tracker s,
      I s₁ := by
  induction left generalizing tracker s with
  | zero =>
      intro s₁ hs₁
      rw [List.mem_singleton.mp hs₁]
      exact hI
  | succ left ih =>
      intro s₁ hs₁
      by_cases hagain : ∃ e s', (manager.performDownloadWithResume env tracker partialPath
          existingSize).run.run env.handler s = (.error e, s') ∧
            manager.retryPolicy.shouldRetry e = true
      · obtain ⟨e, s', hrun, hretry⟩ := hagain
        obtain ⟨s'', haudit, haudited⟩ := run_auditDownload env
          (tracker.after e .downloadRetry) sourceId subject "download_retry" .warning s'
        rw [attemptStarts_retry hrun hretry, haudit] at hs₁ hstep
        rw [manager.performDownloadWithResume_congr env hsame] at hrun
        rcases List.mem_cons.mp hs₁ with rfl | hrest
        · exact hI
        · exact ih (hsame.after e .downloadRetry)
            (hstep s List.mem_cons_self _ _ _ hI hrun haudited)
            (fun s₁ hmem => hstep s₁ (List.mem_cons_of_mem _ hmem)) s₁ hrest
      · rw [attemptStarts_last] at hs₁
        · rw [List.mem_singleton.mp hs₁]
          exact hI
        · intro e s' hrun
          refine Or.inr ?_
          by_contra hretry
          exact hagain ⟨e, s', hrun, by simpa using hretry⟩

/-- If an attempt delivers a file, the loop ends with the look at it. -/
theorem run_attempts_of_completed (left : Nat) (hsame : tracker₀.Same tracker)
    (hmem : s₁ ∈ manager.attemptStarts env partialPath existingSize sourceId subject left
      tracker s)
    (hrun : (manager.performDownloadWithResume env tracker₀ partialPath existingSize).run.run
      env.handler s₁ = (.ok result, s₂)) :
    ∃ t, tracker₀.Same t ∧
      (manager.attempts env partialPath existingSize sourceId subject left tracker).run.run
          env.handler s =
        (manager.acceptDownload env t result sourceId subject).run.run env.handler s₂ := by
  induction left generalizing tracker s with
  | zero =>
      rw [← List.mem_singleton.mp hmem]
      rw [← manager.performDownloadWithResume_congr env hsame] at hrun
      exact ⟨tracker, hsame, run_attemptDownload_ok hrun⟩
  | succ left ih =>
      by_cases hagain : ∃ e s', (manager.performDownloadWithResume env tracker partialPath
          existingSize).run.run env.handler s = (.error e, s') ∧
            manager.retryPolicy.shouldRetry e = true
      · obtain ⟨e, s', hfailed, hretry⟩ := hagain
        rw [attemptStarts_retry hfailed hretry] at hmem
        rcases List.mem_cons.mp hmem with rfl | hrest
        · rw [← manager.performDownloadWithResume_congr env hsame, hfailed] at hrun
          cases hrun
        · obtain ⟨t, ht, hloop⟩ := ih (hsame.after e .downloadRetry) hrest
          exact ⟨t, ht, (run_attemptDownload_retry hfailed hretry).trans hloop⟩
      · have hlast : manager.attemptStarts env partialPath existingSize sourceId subject
            (left + 1) tracker s = [s] := by
          refine attemptStarts_last fun e s' hfailed => Or.inr ?_
          by_contra hretry
          exact hagain ⟨e, s', hfailed, by simpa using hretry⟩
        rw [hlast] at hmem
        rw [← List.mem_singleton.mp hmem]
        rw [← manager.performDownloadWithResume_congr env hsame] at hrun
        exact ⟨tracker, hsame, run_attemptDownload_ok hrun⟩

/-- If no attempt delivers a file, the loop ends with the error of its last attempt. -/
theorem run_attempts_of_failed (left : Nat) (hsame : tracker₀.Same tracker)
    (hfailed : ∀ s₁ ∈ manager.attemptStarts env partialPath existingSize sourceId subject left
      tracker s, ∃ e s₂, (manager.performDownloadWithResume env tracker₀ partialPath
        existingSize).run.run env.handler s₁ = (.error e, s₂)) :
    ∃ s₁ ∈ manager.attemptStarts env partialPath existingSize sourceId subject left tracker s,
      ∃ e s₂ s₃, (manager.performDownloadWithResume env tracker₀ partialPath
          existingSize).run.run env.handler s₁ = (.error e, s₂) ∧ Audited s₂ s₃ ∧
        (manager.attempts env partialPath existingSize sourceId subject left tracker).run.run
          env.handler s = (.error e, s₃) := by
  induction left generalizing tracker s with
  | zero =>
      obtain ⟨e, s₂, hrun⟩ := hfailed s (mem_attemptStarts_self 0)
      have hrun' := hrun
      rw [← manager.performDownloadWithResume_congr env hsame] at hrun'
      obtain ⟨s₃, hloop, haudited⟩ := run_attemptDownload_error sourceId subject
        hrun' (Or.inl rfl)
      exact ⟨s, mem_attemptStarts_self 0, e, s₂, s₃, hrun, haudited, hloop⟩
  | succ left ih =>
      obtain ⟨e, s₂, hrun⟩ := hfailed s (mem_attemptStarts_self _)
      have hrun' := hrun
      rw [← manager.performDownloadWithResume_congr env hsame] at hrun'
      cases hretry : manager.retryPolicy.shouldRetry e with
      | true =>
          rw [attemptStarts_retry hrun' hretry] at hfailed ⊢
          obtain ⟨s₁, hmem, e', s₂', s₃, hrun₁, haudited, hloop⟩ :=
            ih (hsame.after e .downloadRetry) fun s₁ hs₁ =>
              hfailed s₁ (List.mem_cons_of_mem _ hs₁)
          exact ⟨s₁, List.mem_cons_of_mem _ hmem, e', s₂', s₃, hrun₁, haudited,
            (run_attemptDownload_retry hrun' hretry).trans hloop⟩
      | false =>
          obtain ⟨s₃, hloop, haudited⟩ := run_attemptDownload_error sourceId subject
            hrun' (Or.inr hretry)
          exact ⟨s, mem_attemptStarts_self _, e, s₂, s₃, hrun, haudited, hloop⟩

end Run

section Rule

variable {manager env}
variable {P : FetchCall → Session → Prop} {D : DownloadResult → Session → Prop}
  {F : ServiceError → Session → Prop} {Q : Path → Session → Prop}
  {E : ServiceError → Session → Prop}

/-- One pass of the loop: what an attempt delivers is looked at, and after an error the rest
of the loop follows, or the end. -/
theorem attemptDownload_ensures (hP : AllowsAudit P) {partialPath : Path}
    {existingSize : Option Nat} {sourceId subject : String}
    {again : Option (DownloadTracker → Fetch Path)} {tracker : DownloadTracker} {s : Session}
    (hattempt : Fallible.Ensures env.handler P
      (manager.performDownloadWithResume env tracker partialPath existingSize) D F s)
    (haccept : ∀ result s', D result s' → Fallible.Ensures env.handler P
      (manager.acceptDownload env tracker result sourceId subject) Q E s')
    (hagain : ∀ rest, again = some rest → ∀ e s' s'', F e s' →
      (manager.performDownloadWithResume env tracker partialPath existingSize).run.run
        env.handler s = (.error e, s') →
      manager.retryPolicy.shouldRetry e = true → Audited s' s'' →
      s'' = ((auditDownload env (tracker.after e .downloadRetry) sourceId subject
        "download_retry" .warning).run.run env.handler s').2 →
      Fallible.Ensures env.handler P (rest (tracker.after e .downloadRetry)) Q E s'')
    (hfail : ∀ e s' s'', F e s' → Audited s' s'' → E e s'') :
    Fallible.Ensures env.handler P
      (manager.attemptDownload env partialPath existingSize sourceId subject again tracker)
      Q E s := by
  have hrunning : Fallible.Ensures env.handler P
      (manager.performDownloadWithResume env tracker partialPath existingSize)
      (fun result s' => D result s')
      (fun e s' => F e s' ∧ (manager.performDownloadWithResume env tracker partialPath
        existingSize).run.run env.handler s = (.error e, s')) s := by
    refine ⟨hattempt.1, ?_⟩
    have hend := hattempt.2
    rcases hrun : CallProg.run env.handler (manager.performDownloadWithResume env tracker
      partialPath existingSize).run s with ⟨e | result, s'⟩
    · rw [hrun] at hend
      exact ⟨hend, rfl⟩
    · rw [hrun] at hend
      exact hend
  unfold attemptDownload
  refine Fallible.ensures_bind.mpr (Fallible.ensures_attempt.mpr
    (Fallible.ensures_mono hrunning (fun result s' hD => haccept result s' hD) ?_))
  intro e s' hF
  dsimp only
  split
  · rename_i rest hretry
    have haudit := auditDownload_ensures env hP (tracker.after e .downloadRetry) sourceId
      subject "download_retry" .warning s'
    have hsame : Fallible.Ensures env.handler P (auditDownload env
        (tracker.after e .downloadRetry) sourceId subject "download_retry" .warning)
        (fun _ s'' => Audited s' s'' ∧ s'' = ((auditDownload env
          (tracker.after e .downloadRetry) sourceId subject "download_retry"
          .warning).run.run env.handler s').2) (fun _ _ => False) s' := ⟨haudit.1, haudit.2, rfl⟩
    refine Fallible.ensures_bind.mpr (Fallible.ensures_mono hsame ?_ fun _ _ h => h.elim)
    intro _ s'' hs
    exact hagain rest rfl e s' s'' hF.1 hF.2 hretry hs.1 hs.2
  · refine Fallible.ensures_bind.mpr (Fallible.ensures_mono
      (auditDownload_ensures env hP _ sourceId subject _ _ s') ?_ fun _ _ h => h.elim)
    intro _ s'' hs
    exact Fallible.ensures_throw.mpr (hfail e s' s'' hF.1 hs)

/-- The rule for the loop.  `I` holds whenever an attempt begins, `C` is a condition that
each of these sessions meets, and `D` and `F` say how an attempt ends. -/
theorem attempts_ensures (hP : AllowsAudit P) {I C : Session → Prop} {partialPath : Path}
    {existingSize : Option Nat} {sourceId subject : String} {tracker₀ : DownloadTracker}
    (hattempt : ∀ s, I s → C s → Fallible.Ensures env.handler P
      (manager.performDownloadWithResume env tracker₀ partialPath existingSize) D F s)
    (haccept : ∀ tracker result s, tracker₀.Same tracker → D result s →
      Fallible.Ensures env.handler P
        (manager.acceptDownload env tracker result sourceId subject) Q E s)
    (hretry : ∀ e s s', F e s → manager.retryPolicy.shouldRetry e = true → Audited s s' → I s')
    (hfail : ∀ e s s', F e s → Audited s s' → E e s')
    (left : Nat) (tracker : DownloadTracker) (s : Session) (hsame : tracker₀.Same tracker)
    (hI : I s)
    (hC : ∀ s' ∈ manager.attemptStarts env partialPath existingSize sourceId subject left
      tracker s, C s') :
    Fallible.Ensures env.handler P
      (manager.attempts env partialPath existingSize sourceId subject left tracker) Q E s := by
  have hfirst : C s → Fallible.Ensures env.handler P
      (manager.performDownloadWithResume env tracker partialPath existingSize) D F s := by
    intro hs
    rw [manager.performDownloadWithResume_congr env hsame]
    exact hattempt s hI hs
  induction left generalizing tracker s with
  | zero =>
      refine attemptDownload_ensures hP (hfirst (hC s List.mem_cons_self))
        (fun result s' hD => haccept tracker result s' hsame hD) ?_ hfail
      intro rest hrest
      cases hrest
  | succ left ih =>
      refine attemptDownload_ensures hP (hfirst (hC s List.mem_cons_self))
        (fun result s' hD => haccept tracker result s' hsame hD) ?_ hfail
      intro rest hrest e s' s'' hF hrun hshould haudited heq
      subst heq
      cases hrest
      have hI' := hretry e s' _ hF hshould haudited
      have hsame' := hsame.after e .downloadRetry
      refine ih _ _ hsame' hI' ?_ fun hs => ?_
      · intro s₁ hs₁
        refine hC s₁ (List.mem_cons_of_mem _ ?_)
        rw [hrun]
        simpa only [hshould, if_true] using hs₁
      · rw [manager.performDownloadWithResume_congr env hsame']
        exact hattempt _ hI' hs

end Rule

end DownloadManager

end MissionOs.Driverd
