import Mathlib.Data.ENat.Lattice
import MissionOs.Driverd.DownloadCall
import MissionOs.Rust.Duration

/-!
# How often a download tries

The loop of `DownloadManager::download` with its retry policy.  `attemptStarts_length` counts
the attempts: the loop goes on to the first outcome that ends it (`IsFinal`), and no further
than the policy allows.  Between two attempts there is one `download_retry` event, and no
other part of a download records one.

Before it sleeps, the loop computes the delay as a `Duration`, and not every number is one.
`countsAttempts_iff` says for which policies the call ends after the attempts that it counts.
-/

namespace MissionOs.Driverd

open MissionOs.Rust MissionOs.Lib

/-! ## The backoff -/

/-- What is to be waited for between two attempts: the fields of `RetryPolicy` that its model
leaves out. -/
structure Backoff where
  initialBackoff : Duration
  maxBackoff : Duration
  backoffFactor : F64
deriving DecidableEq, Repr

/-- The backoff of `RetryPolicy::default`. -/
def Backoff.default : Backoff := ⟨.fromSecs 1, .fromSecs 30, .number 2⟩

namespace RetryPolicy

variable (policy : RetryPolicy) (backoff : Backoff)

/-- `RetryPolicy::validate`. -/
def validate : ServiceResult Unit :=
  if 10 < policy.maxRetries then
    .error (.invalidArgument "max_retries must not exceed 10")
  else if backoff.backoffFactor.below 1 then
    .error (.invalidArgument "backoff_factor must be >= 1.0")
  else
    .ok ()

/-- The delay before it is bounded.  The precision of `f64::powi` is left open by `std`, so
`powi` is a parameter. -/
def scaledBackoff (powi : F64 → Nat → F64) (attempt : Nat) : F64 :=
  (F64.number backoff.initialBackoff.asSecsF64).mul (powi backoff.backoffFactor attempt)

/-- `RetryPolicy::delay_for_attempt`; `none` is a panic. -/
def delayForAttempt (powi : F64 → Nat → F64) (attempt : Nat) : Option Duration :=
  if policy.maxRetries.toNat ≤ attempt then
    some (Duration.fromSecs 0)
  else
    let delaySecs := scaledBackoff backoff powi attempt
    let delaySecs := delaySecs.minWith backoff.maxBackoff.asSecsF64
    Duration.fromSecsF64 delaySecs

end RetryPolicy

/-- The delay is no `Duration`: it and its bound are `2 ^ 64` seconds or more, or it is
negative, which no power of a factor from one on is. -/
def Backoff.Overflows (backoff : Backoff) (powi : F64 → Nat → F64) (attempt : Nat) : Prop :=
  (RetryPolicy.scaledBackoff backoff powi attempt).isNegative = true ∨
    (RetryPolicy.scaledBackoff backoff powi attempt).below (2 ^ 64) = false ∧
      2 ^ 64 ≤ backoff.maxBackoff.asSecsF64

theorem RetryPolicy.delayForAttempt_eq_none_iff {policy : RetryPolicy} {backoff : Backoff}
    {powi : F64 → Nat → F64} {attempt : Nat} (h : attempt < policy.maxRetries.toNat) :
    policy.delayForAttempt backoff powi attempt = none ↔ backoff.Overflows powi attempt := by
  rw [delayForAttempt, if_neg (Nat.not_le.mpr h)]
  exact Duration.fromSecsF64_minWith_eq_none_iff _ _

/-- An accepted policy allows its number of retries: `max_attempts` does not wrap. -/
theorem DownloadManager.retriesLeft_of_validate {manager : DownloadManager} {backoff : Backoff}
    (h : manager.retryPolicy.validate backoff = .ok ()) :
    manager.retriesLeft = manager.retryPolicy.maxRetries.toNat := by
  unfold RetryPolicy.validate at h
  split_ifs at h with hmax
  have hle : manager.retryPolicy.maxRetries.toNat ≤ 10 :=
    UInt32.le_iff_toNat_le.mp (UInt32.not_lt.mp hmax)
  rw [retriesLeft, UInt32.toNat_add, Nat.mod_eq_of_lt]
  · rfl
  · show manager.retryPolicy.maxRetries.toNat + 1 < 2 ^ 32
    omega

/-! ## The outcomes of attempts -/

/-- The errors that a policy retries. -/
def ServiceError.IsTransient : ServiceError → Prop
  | .downloadFailed _ | .backendUnavailable _ => True
  | _ => False

/-- An attempt that another one is not to follow: it delivers a file, or fails for good. -/
def IsFinal : Except ServiceError DownloadResult → Prop
  | .ok _ => True
  | .error e => ¬ e.IsTransient

theorem RetryPolicy.shouldRetry_iff {policy : RetryPolicy} {e : ServiceError} :
    policy.shouldRetry e = true ↔ policy.maxRetries ≠ 0 ∧ e.IsTransient := by
  unfold shouldRetry
  split_ifs with h
  · exact iff_of_false (fun h => nomatch h) fun hand => hand.1 h
  · cases e <;> simp [h, ServiceError.IsTransient]

/-- The position of the first outcome that ends the loop, counted from one; `⊤` if there is
none. -/
noncomputable def finalPosition (outcomes : Nat → Except ServiceError DownloadResult) : ℕ∞ :=
  ⨅ (i : ℕ) (_ : IsFinal (outcomes i)), ((i + 1 : ℕ) : ℕ∞)

theorem le_finalPosition_iff {outcomes : Nat → Except ServiceError DownloadResult} {n : ℕ∞} :
    n ≤ finalPosition outcomes ↔ ∀ i, IsFinal (outcomes i) → n ≤ ((i + 1 : ℕ) : ℕ∞) :=
  le_iInf₂_iff

/-- A loop that goes on only after outcomes that do not end it, and that stops at one that
does or at its bound. -/
theorem length_eq_min_finalPosition {outcomes : Nat → Except ServiceError DownloadResult}
    {length retries : Nat} (hpos : 0 < length) (hle : length ≤ retries + 1)
    (hbefore : ∀ i, i + 1 < length → ¬ IsFinal (outcomes i))
    (hlast : length = retries + 1 ∨ IsFinal (outcomes (length - 1))) :
    (length : ℕ∞) = min (finalPosition outcomes) (retries + 1 : ℕ) := by
  apply le_antisymm
  · refine le_min (le_finalPosition_iff.mpr fun i hi => ?_) (Nat.cast_le.mpr hle)
    have hnot : ¬ i + 1 < length := fun hlt => hbefore i hlt hi
    exact Nat.cast_le.mpr (Nat.not_lt.mp hnot)
  · rcases hlast with hbound | hfinal
    · exact min_le_of_right_le (Nat.cast_le.mpr hbound.ge)
    · refine min_le_of_left_le ((le_finalPosition_iff.mp le_rfl _ hfinal).trans ?_)
      exact Nat.cast_le.mpr (by omega)

/-! ## The events of a retry -/

/-- The record of a `download_retry` event. -/
def FetchCall.isRetryAudit : FetchCall → Bool
  | .audit event => event.action == "download_retry"
  | _ => false

/-- How many `download_retry` events have been recorded. -/
def retryAudits (s : Session) : Nat := s.trace.countP FetchCall.isRetryAudit

/-- No `download_retry` event is recorded. -/
def KeepsRetryAudits (s s' : Session) : Prop := retryAudits s' = retryAudits s

instance : Std.Refl KeepsRetryAudits := ⟨fun _ => rfl⟩

instance : IsTrans Session KeepsRetryAudits := ⟨fun _ _ _ h h' => h'.trans h⟩

/-- The calls other than the record of a retry. -/
abbrev NoRetryAudit (c : FetchCall) : Prop := c.isRetryAudit = false

theorem retryAudits_of_makes {env : FetchEnv} {α : Type} {prog : Fetch α} {Q : α → Prop}
    (h : Fallible.Makes NoRetryAudit prog Q) (s : Session) :
    retryAudits (prog.run.run env.handler s).2 = retryAudits s := by
  refine (Fallible.Keeps.of_makes (R := KeepsRetryAudits) h fun c s hc => ?_).run s
  show (s.trace ++ [c]).countP FetchCall.isRetryAudit = s.trace.countP FetchCall.isRetryAudit
  rw [List.countP_append, List.countP_singleton, hc]
  rfl

section Programs

theorem StreamingHasher.hashFile_noRetryAudit (hash : HashFunctions) (algorithm : String)
    (path : Path) :
    Fallible.Makes NoRetryAudit (hashFile hash algorithm path) fun _ => True := by
  refine Fallible.makes_mono (hashFile_reads hash algorithm path) (fun c hc => ?_) fun _ h => h
  rcases hc with rfl | rfl <;> rfl

theorem streamBody_noRetryAudit {limit : Nat} {atLimit : Fetch Unit} {path : Path}
    (hlimit : Fallible.Makes (FetchCall.Streams path) atLimit fun _ => True)
    (body : List (Except FileError Bytes)) (total : Nat) :
    Fallible.Makes NoRetryAudit (streamBody limit atLimit path body total) fun _ => True := by
  refine Fallible.makes_mono (streamBody_streams hlimit body total) (fun c hc => ?_)
    fun _ h => h
  cases c with
  | audit event => exact hc.elim
  | _ => rfl

namespace PackageFetcher

variable (fetcher : PackageFetcher)

theorem ensureParent_noRetryAudit (text : String) (p : Path) :
    Fallible.Makes NoRetryAudit (ensureParent text p) fun _ => True := by
  unfold ensureParent
  cases p.parent with
  | none => exact Fallible.makes_pure trivial
  | some dir =>
      exact Fallible.makes_checked (call_makes (c := .createDirAll dir) rfl)

theorem downloadToFile_noRetryAudit (url : String) (tmpPath : Path)
    (expectedSize : Option Nat) :
    Fallible.Makes NoRetryAudit (fetcher.downloadToFile url tmpPath expectedSize)
      fun _ => True := by
  unfold downloadToFile
  refine Fallible.makes_seq (Fallible.makes_checked (call_makes (c := .request _) rfl))
    fun response => ?_
  refine Fallible.makes_seq (orFail_makes _ _) fun _ => ?_
  refine Fallible.makes_seq (Fallible.makes_checked (call_makes (c := .createFile _) rfl))
    fun _ => ?_
  refine Fallible.makes_seq (streamBody_noRetryAudit (discardRemove_streams tmpPath) _ _)
    fun total => ?_
  exact Fallible.makes_seq (Fallible.makes_checked (call_makes (c := .flush _) rfl)) fun _ =>
    Fallible.makes_pure trivial

theorem verifyExpected_noRetryAudit (hash : HashFunctions) (path : Path)
    (expected : Option PackageDigest) :
    Fallible.Makes NoRetryAudit (verifyExpected hash path expected) fun _ => True := by
  cases expected with
  | none => exact Fallible.makes_pure trivial
  | some digest =>
      refine Fallible.makes_seq (StreamingHasher.hashFile_noRetryAudit hash _ _) fun _ => ?_
      exact Fallible.makes_ite (Fallible.makes_throw _) (Fallible.makes_pure trivial)

theorem download_noRetryAudit (hash : HashFunctions) (url : String) (destination : Path)
    (expectedSize : Option Nat) (expectedDigest : Option PackageDigest) :
    Fallible.Makes NoRetryAudit
      (fetcher.download hash url destination expectedSize expectedDigest) fun _ => True := by
  unfold download
  refine Fallible.makes_seq (orFail_makes _ _) fun _ => ?_
  refine Fallible.makes_seq (ensureParent_noRetryAudit _ _) fun _ => ?_
  refine Fallible.makes_seq (fetcher.downloadToFile_noRetryAudit _ _ _) fun result => ?_
  refine Fallible.makes_seq (verifyExpected_noRetryAudit hash _ _) fun _ => ?_
  exact Fallible.makes_seq (Fallible.makes_checked (call_makes (c := .rename _ _) rfl)) fun _ =>
    Fallible.makes_pure trivial

end PackageFetcher

namespace DownloadManager

variable (manager : DownloadManager) (env : FetchEnv)

theorem performDownloadWithResume_noRetryAudit (tracker : DownloadTracker) (partialPath : Path)
    (resumeOffset : Option Nat) :
    Fallible.Makes NoRetryAudit
      (manager.performDownloadWithResume env tracker partialPath resumeOffset)
      fun _ => True := by
  unfold performDownloadWithResume
  split
  · unfold resumeDownload
    refine Fallible.makes_seq (Fallible.makes_checked (call_makes (c := .request _) rfl))
      fun response => ?_
    refine Fallible.makes_ite ?_ (Fallible.makes_ite ?_ (Fallible.makes_throw _))
    · refine Fallible.makes_seq (orFail_makes _ _) fun _ => ?_
      refine Fallible.makes_seq (orFail_makes _ _) fun _ => ?_
      refine Fallible.makes_seq (Fallible.makes_checked (call_makes (c := .openAppend _) rfl))
        fun _ => ?_
      refine Fallible.makes_seq (streamBody_noRetryAudit (Fallible.makes_pure trivial) _ _)
        fun total => ?_
      refine Fallible.makes_seq (Fallible.makes_checked (call_makes (c := .flush _) rfl))
        fun _ => ?_
      exact Fallible.makes_seq (Fallible.makes_checked (call_makes (c := .rename _ _) rfl)) fun _ =>
        Fallible.makes_pure trivial
    · refine Fallible.makes_seq (Fallible.makes_discard (call_makes (c := .removeFile _) rfl))
        fun _ => ?_
      exact manager.fetcher.download_noRetryAudit env.hash _ _ none none
  · exact manager.fetcher.download_noRetryAudit env.hash _ _ _ none

/-- An event of another kind is no retry. -/
theorem auditDownload_noRetryAudit (tracker : DownloadTracker)
    (sourceId subject action : String) (severity : EventSeverity)
    (h : action ≠ "download_retry") :
    Fallible.Makes NoRetryAudit
      (auditDownload env tracker sourceId subject action severity) fun _ => True := by
  unfold auditDownload
  refine Fallible.makes_seq (call_makes (c := .now) rfl) fun now => ?_
  exact call_makes (c := .audit _) (beq_eq_false_iff_ne.mpr h)

theorem removePartial_noRetryAudit (digest : PackageDigest) :
    Fallible.Makes NoRetryAudit (manager.resumeManager.removePartial digest)
      fun _ => True := by
  unfold ResumeManager.removePartial
  refine Fallible.makes_seq (call_makes (c := .pathExists _) rfl) fun found => ?_
  refine Fallible.makes_ite ?_ (Fallible.makes_pure trivial)
  exact Fallible.makes_checked (call_makes (c := .removeFile _) rfl)

theorem acceptDownload_noRetryAudit (tracker : DownloadTracker) (result : DownloadResult)
    (sourceId subject : String) :
    Fallible.Makes NoRetryAudit
      (manager.acceptDownload env tracker result sourceId subject) fun _ => True := by
  unfold acceptDownload
  refine Fallible.makes_seq (call_makes (c := .pathExists _) rfl) fun found => ?_
  refine Fallible.makes_seq (StreamingHasher.hashFile_noRetryAudit env.hash _ _) fun actual => ?_
  refine Fallible.makes_ite ?_ (Fallible.makes_ite ?_ ?_)
  · refine Fallible.makes_seq (auditDownload_noRetryAudit env _ _ _ _ _ (by decide))
      fun _ => ?_
    refine Fallible.makes_seq (Fallible.makes_discard (call_makes (c := .removeFile _) rfl))
      fun _ => ?_
    refine Fallible.makes_seq (Fallible.makes_discard (Fallible.makes_attempt
      (manager.removePartial_noRetryAudit _))) fun _ => ?_
    exact Fallible.makes_throw _
  · refine Fallible.makes_seq (auditDownload_noRetryAudit env _ _ _ _ _ (by decide))
      fun _ => ?_
    refine Fallible.makes_seq (Fallible.makes_discard (call_makes (c := .removeFile _) rfl))
      fun _ => ?_
    exact Fallible.makes_throw _
  · refine Fallible.makes_seq ?_ fun _ => ?_
    · unfold moveVerified
      refine Fallible.makes_ite ?_ (Fallible.makes_pure trivial)
      exact Fallible.makes_checked (call_makes (c := .rename _ _) rfl)
    refine Fallible.makes_seq (Fallible.makes_discard (Fallible.makes_attempt
      (manager.removePartial_noRetryAudit _))) fun _ => ?_
    exact Fallible.makes_seq (auditDownload_noRetryAudit env _ _ _ _ _ (by decide))
      fun _ => Fallible.makes_pure trivial

theorem prepare_noRetryAudit (url : String) (destination : Path) (digest : PackageDigest)
    (expectedSize : Option Nat) (sourceId subject : String) :
    Fallible.Makes NoRetryAudit
      (manager.prepare env url destination digest expectedSize sourceId subject)
      fun _ => True := by
  unfold prepare
  refine Fallible.makes_seq (auditDownload_noRetryAudit env _ _ _ _ _ (by decide)) fun _ => ?_
  refine Fallible.makes_seq ?_ fun found => ?_
  · unfold findPartial
    refine Fallible.makes_seq (call_makes (c := .pathExists _) rfl) fun found => ?_
    refine Fallible.makes_ite ?_ (Fallible.makes_pure trivial)
    refine Fallible.makes_seq (call_makes (c := .metadata _) rfl) fun size => ?_
    cases size with
    | ok n => exact Fallible.makes_pure trivial
    | error e => exact Fallible.makes_pure trivial
  exact Fallible.makes_seq (PackageFetcher.ensureParent_noRetryAudit _ _) fun _ =>
    Fallible.makes_pure trivial

/-- What is left of the loop when no attempt follows the next one. -/
theorem attemptDownload_noRetryAudit (tracker : DownloadTracker) (partialPath : Path)
    (existingSize : Option Nat) (sourceId subject : String) :
    Fallible.Makes NoRetryAudit (manager.attemptDownload env partialPath existingSize sourceId
      subject none tracker) fun _ => True := by
  unfold attemptDownload
  refine Fallible.makes_seq (Fallible.makes_mono (Fallible.makes_attempt
    (manager.performDownloadWithResume_noRetryAudit env tracker partialPath existingSize))
    (fun _ h => h) fun _ _ => trivial) fun r => ?_
  cases r with
  | ok result => exact manager.acceptDownload_noRetryAudit env tracker result sourceId subject
  | error e =>
      exact Fallible.makes_seq (auditDownload_noRetryAudit env _ _ _ _ _ (by decide)) fun _ =>
        Fallible.makes_throw _

/-! ## The loop -/

section Loop

variable {manager env}
variable {partialPath : Path} {existingSize : Option Nat} {sourceId subject : String}
  {tracker tracker₀ : DownloadTracker} {s : Session}

/-- The event between two attempts. -/
theorem retryAudits_auditDownload (tracker : DownloadTracker) (sourceId subject : String)
    (s : Session) :
    retryAudits ((auditDownload env tracker sourceId subject "download_retry"
      .warning).run.run env.handler s).2 = retryAudits s + 1 := by
  have htrace : ∃ event : AuditEvent, event.action = "download_retry" ∧
      ((auditDownload env tracker sourceId subject "download_retry" .warning).run.run
        env.handler s).2.trace = s.trace ++ [.now] ++ [.audit event] := ⟨_, rfl, rfl⟩
  obtain ⟨event, hevent, htrace⟩ := htrace
  unfold retryAudits
  rw [htrace]
  simp [FetchCall.isRetryAudit, hevent]

/-- An attempt fails and is to be tried again, or no attempt follows it. -/
theorem retried_or_last (manager : DownloadManager) (env : FetchEnv) (tracker : DownloadTracker)
    (partialPath : Path) (existingSize : Option Nat) (s : Session) :
    (∃ e s₁, (manager.performDownloadWithResume env tracker partialPath existingSize).run.run
        env.handler s = (.error e, s₁) ∧ manager.retryPolicy.shouldRetry e = true) ∨
      ∀ e s₁, (manager.performDownloadWithResume env tracker partialPath existingSize).run.run
        env.handler s = (.error e, s₁) → manager.retryPolicy.shouldRetry e = false := by
  by_cases hretried : ∃ e s₁, (manager.performDownloadWithResume env tracker partialPath
      existingSize).run.run env.handler s = (.error e, s₁) ∧
        manager.retryPolicy.shouldRetry e = true
  · exact Or.inl hretried
  · refine Or.inr fun e s₁ hrun => ?_
    by_contra hretry
    exact hretried ⟨e, s₁, hrun, by simpa using hretry⟩

/-- The next attempt begins where the event of a failed one ends. -/
def Follows (manager : DownloadManager) (env : FetchEnv) (tracker : DownloadTracker)
    (partialPath : Path) (existingSize : Option Nat) (sourceId subject : String)
    (s s' : Session) : Prop :=
  ∃ e s₁ t, (manager.performDownloadWithResume env tracker partialPath existingSize).run.run
      env.handler s = (.error e, s₁) ∧ manager.retryPolicy.shouldRetry e = true ∧
    s' = ((auditDownload env t sourceId subject "download_retry" .warning).run.run env.handler
      s₁).2

/-- Nothing else is done between two attempts. -/
theorem attemptStarts_isChain (left : Nat) (hsame : tracker₀.Same tracker) :
    List.IsChain (Follows manager env tracker₀ partialPath existingSize sourceId subject)
      (manager.attemptStarts env partialPath existingSize sourceId subject left tracker s) := by
  induction left generalizing tracker s with
  | zero => exact .singleton s
  | succ left ih =>
      rcases retried_or_last manager env tracker partialPath existingSize s with
        ⟨e, s₁, hrun, hretry⟩ | hlast
      · rw [attemptStarts_retry hrun hretry]
        refine (ih (hsame.after e .downloadRetry)).cons fun s₂ hs₂ => ?_
        rw [manager.performDownloadWithResume_congr env hsame] at hrun
        refine ⟨e, s₁, tracker.after e .downloadRetry, hrun, hretry, ?_⟩
        cases left <;> exact (Option.some.inj hs₂).symm
      · rw [attemptStarts_last fun e s₁ hrun => Or.inr (hlast e s₁ hrun)]
        exact .singleton s

theorem attemptStarts_length_le (left : Nat) :
    (manager.attemptStarts env partialPath existingSize sourceId subject left tracker s).length ≤
      left + 1 := by
  induction left generalizing tracker s with
  | zero => exact le_refl 1
  | succ left ih =>
      rcases retried_or_last manager env tracker partialPath existingSize s with
        ⟨e, s₁, hrun, hretry⟩ | hlast
      · rw [attemptStarts_retry hrun hretry]
        exact Nat.succ_le_succ ih
      · rw [attemptStarts_last fun e s₁ hrun => Or.inr (hlast e s₁ hrun)]
        exact Nat.succ_le_succ (Nat.zero_le _)

/-- The loop stops at its bound, or where no attempt is to follow. -/
theorem attemptStarts_stops (left : Nat) (hsame : tracker₀.Same tracker) :
    (manager.attemptStarts env partialPath existingSize sourceId subject left tracker s).length =
        left + 1 ∨
      ∃ s₁ ∈ (manager.attemptStarts env partialPath existingSize sourceId subject left tracker
        s).getLast?, ∀ e s₂, (manager.performDownloadWithResume env tracker₀ partialPath
          existingSize).run.run env.handler s₁ = (.error e, s₂) →
            manager.retryPolicy.shouldRetry e = false := by
  induction left generalizing tracker s with
  | zero => exact Or.inl rfl
  | succ left ih =>
      rcases retried_or_last manager env tracker partialPath existingSize s with
        ⟨e, s₁, hrun, hretry⟩ | hlast
      · rw [attemptStarts_retry hrun hretry]
        rcases ih (s := _) (hsame.after e .downloadRetry) with hlength | ⟨s₂, hs₂, hstops⟩
        · exact Or.inl (congrArg (· + 1) hlength)
        · refine Or.inr ⟨s₂, ?_, hstops⟩
          rw [List.getLast?_cons, hs₂]
          rfl
      · rw [attemptStarts_last fun e s₁ hrun => Or.inr (hlast e s₁ hrun)]
        rw [manager.performDownloadWithResume_congr env hsame] at hlast
        exact Or.inr ⟨s, rfl, hlast⟩

/-- If no attempt follows the next one, it does not matter how many more are allowed. -/
theorem run_attempts_of_last (left : Nat)
    (hlast : ∀ e s₁, (manager.performDownloadWithResume env tracker partialPath
      existingSize).run.run env.handler s = (.error e, s₁) →
        manager.retryPolicy.shouldRetry e = false) :
    (manager.attempts env partialPath existingSize sourceId subject left tracker).run.run
        env.handler s =
      (manager.attemptDownload env partialPath existingSize sourceId subject none
        tracker).run.run env.handler s := by
  cases left with
  | zero => rfl
  | succ left =>
      show (manager.attemptDownload env partialPath existingSize sourceId subject (some _)
        tracker).run.run env.handler s = _
      rcases hrun : CallProg.run env.handler (manager.performDownloadWithResume env tracker
        partialPath existingSize).run s with ⟨e | result, s₁⟩
      · have hretry := hlast e s₁ hrun
        unfold attemptDownload
        rw [Fallible.run_bind, Fallible.run_bind, Fallible.run_attempt, hrun]
        simp only [ExceptT.bindCont, hretry]
      · rw [run_attemptDownload_ok hrun, run_attemptDownload_ok hrun]

/-- An attempt records no retry itself. -/
theorem retryAudits_attempt {r : Except ServiceError DownloadResult} {s₁ : Session}
    (hrun : (manager.performDownloadWithResume env tracker partialPath existingSize).run.run
      env.handler s = (r, s₁)) : retryAudits s₁ = retryAudits s := by
  have hkeeps := @retryAudits_of_makes env _ _ _
    (manager.performDownloadWithResume_noRetryAudit env tracker partialPath existingSize) s
  rwa [hrun] at hkeeps

theorem Follows.retryAudits_eq {s' : Session}
    (h : Follows manager env tracker partialPath existingSize sourceId subject s s') :
    retryAudits s' = retryAudits s + 1 := by
  obtain ⟨e, s₁, t, hrun, -, rfl⟩ := h
  rw [retryAudits_auditDownload, retryAudits_attempt hrun]

/-- One `download_retry` event is recorded for each attempt after the first. -/
theorem retryAudits_attempts (left : Nat) :
    retryAudits ((manager.attempts env partialPath existingSize sourceId subject left
        tracker).run.run env.handler s).2 + 1 =
      retryAudits s + (manager.attemptStarts env partialPath existingSize sourceId subject left
        tracker s).length := by
  induction left generalizing tracker s with
  | zero =>
      exact congrArg (· + 1) (retryAudits_of_makes
        (manager.attemptDownload_noRetryAudit env tracker partialPath existingSize sourceId
          subject) s)
  | succ left ih =>
      rcases retried_or_last manager env tracker partialPath existingSize s with
        ⟨e, s₁, hrun, hretry⟩ | hlast
      · have hloop : (manager.attempts env partialPath existingSize sourceId subject (left + 1)
            tracker).run.run env.handler s = _ := run_attemptDownload_retry hrun hretry
        rw [hloop, ih, attemptStarts_retry hrun hretry, retryAudits_auditDownload,
          retryAudits_attempt hrun, List.length_cons]
        omega
      · rw [run_attempts_of_last (left + 1) hlast,
          attemptStarts_last fun e s₁ hrun => Or.inr (hlast e s₁ hrun)]
        exact congrArg (· + 1) (retryAudits_of_makes
          (manager.attemptDownload_noRetryAudit env tracker partialPath existingSize sourceId
            subject) s)

/-- The loop of `download` with the delays that it computes; `none` is a panic.  `attempt` is
the number of attempts that have failed. -/
def pacedAttempts (manager : DownloadManager) (env : FetchEnv) (backoff : Backoff)
    (powi : F64 → Nat → F64) (partialPath : Path) (existingSize : Option Nat)
    (sourceId subject : String) : Nat → Nat → DownloadTracker → Session →
      Option (Except ServiceError Path × Session)
  | 0, _, tracker, s =>
    some ((manager.attempts env partialPath existingSize sourceId subject 0 tracker).run.run
      env.handler s)
  | left + 1, attempt, tracker, s =>
    match (manager.performDownloadWithResume env tracker partialPath existingSize).run.run
        env.handler s with
    | (.ok _, _) =>
      some ((manager.attempts env partialPath existingSize sourceId subject (left + 1)
        tracker).run.run env.handler s)
    | (.error e, s₁) =>
      if manager.retryPolicy.shouldRetry e then
        let tracker := tracker.after e .downloadRetry
        let s₂ := ((auditDownload env tracker sourceId subject "download_retry"
          .warning).run.run env.handler s₁).2
        -- The delay is slept, which changes nothing here.
        (manager.retryPolicy.delayForAttempt backoff powi attempt).bind fun _ =>
          pacedAttempts manager env backoff powi partialPath existingSize sourceId subject left
            (attempt + 1) tracker s₂
      else
        some ((manager.attempts env partialPath existingSize sourceId subject (left + 1)
          tracker).run.run env.handler s)

/-- The loop panics if a delay between two of its attempts does, and otherwise the delays do
not matter. -/
theorem pacedAttempts_eq_some_iff {backoff : Backoff} {powi : F64 → Nat → F64} (left : Nat)
    {attempt : Nat} {r : Except ServiceError Path × Session} :
    manager.pacedAttempts env backoff powi partialPath existingSize sourceId subject left attempt
        tracker s = some r ↔
      (∀ i, i + 1 < (manager.attemptStarts env partialPath existingSize sourceId subject left
          tracker s).length →
        manager.retryPolicy.delayForAttempt backoff powi (attempt + i) ≠ none) ∧
      (manager.attempts env partialPath existingSize sourceId subject left tracker).run.run
        env.handler s = r := by
  induction left generalizing attempt tracker s with
  | zero =>
      rw [pacedAttempts, Option.some.injEq]
      exact iff_and_self.mpr fun _ i hi => absurd hi (Nat.not_lt.mpr (Nat.le_add_left 1 i))
  | succ left ih =>
      rcases retried_or_last manager env tracker partialPath existingSize s with
        ⟨e, s₁, hrun, hretry⟩ | hlast
      · have hloop : (manager.attempts env partialPath existingSize sourceId subject (left + 1)
            tracker).run.run env.handler s = _ := run_attemptDownload_retry hrun hretry
        rw [hloop, attemptStarts_retry hrun hretry, List.length_cons, pacedAttempts, hrun]
        simp only [hretry, if_true, Option.bind_eq_some_iff, ih]
        constructor
        · rintro ⟨delay, hdelay, hrest, hr⟩
          refine ⟨fun i hi => ?_, hr⟩
          cases i with
          | zero =>
              rw [Nat.add_zero, hdelay]
              exact Option.some_ne_none delay
          | succ i =>
              rw [← Nat.add_assoc, Nat.add_right_comm]
              exact hrest i (by omega)
        · rintro ⟨hall, hr⟩
          have hpos : 0 < (manager.attemptStarts env partialPath existingSize sourceId subject left
              (tracker.after e .downloadRetry) ((auditDownload env
                (tracker.after e .downloadRetry) sourceId subject "download_retry"
                .warning).run.run env.handler s₁).2).length :=
            List.length_pos_of_mem (mem_attemptStarts_self left)
          obtain ⟨delay, hdelay⟩ := Option.ne_none_iff_exists'.mp (hall 0 (by omega))
          refine ⟨delay, hdelay, fun i hi => ?_, hr⟩
          rw [Nat.add_right_comm, Nat.add_assoc]
          exact hall (i + 1) (by omega)
      · have hstops : manager.pacedAttempts env backoff powi partialPath existingSize sourceId
            subject (left + 1) attempt tracker s =
              some ((manager.attempts env partialPath existingSize sourceId subject (left + 1)
                tracker).run.run env.handler s) := by
          rw [pacedAttempts]
          rcases hrun : CallProg.run env.handler (manager.performDownloadWithResume env tracker
            partialPath existingSize).run s with ⟨e | result, s₁⟩
          · simp only [hlast e s₁ hrun, Bool.false_eq_true, if_false]
          · rfl
        rw [hstops, attemptStarts_last fun e s₁ hrun => Or.inr (hlast e s₁ hrun),
          Option.some.injEq]
        exact iff_and_self.mpr fun _ i hi => absurd hi (Nat.not_lt.mpr (Nat.le_add_left 1 i))

end Loop

end DownloadManager

end Programs

/-! ## Calls -/

/-- The entries of a list up to the first one after which a panic comes. -/
def untilPanic {α : Type} (panics : Nat → Bool) : Nat → List α → List α
  | _, [] => []
  | i, a :: l => a :: if panics i then [] else untilPanic panics (i + 1) l

theorem getElem?_untilPanic {α : Type} {panics : Nat → Bool} {l : List α} {a : α} {i k : Nat} :
    (untilPanic panics k l)[i]? = some a ↔
      l[i]? = some a ∧ ∀ j < i, panics (k + j) = false := by
  induction l generalizing i k with
  | nil => simp [untilPanic]
  | cons b l ih =>
      cases i with
      | zero => simp [untilPanic]
      | succ i =>
          have hall : (∀ j < i + 1, panics (k + j) = false) ↔
              panics k = false ∧ ∀ j < i, panics (k + 1 + j) = false := by
            rw [Nat.forall_lt_succ_left']
            simp only [Nat.add_zero, Nat.add_right_comm k 1, Nat.add_assoc]
          rw [untilPanic, List.getElem?_cons_succ, List.getElem?_cons_succ, hall]
          cases hpanic : panics k with
          | true => simp
          | false => simp [ih]

theorem untilPanic_eq_self {α : Type} {panics : Nat → Bool} {l : List α} {k : Nat}
    (h : ∀ i, i + 1 < l.length → panics (k + i) = false) : untilPanic panics k l = l := by
  apply List.ext_getElem?
  intro i
  ext a
  rw [getElem?_untilPanic]
  refine and_iff_left_of_imp fun ha j hj => h j ?_
  have hi := (List.getElem?_eq_some_iff.mp ha).1
  omega

/-- One call of `DownloadManager::download`, with the backoff of its policy. -/
structure PacedCall where
  call : DownloadCall
  backoff : Backoff
  powi : F64 → Nat → F64

namespace PacedCall

variable (c : PacedCall)

/-- The retries that the policy allows. -/
def maxRetries : Nat := c.call.manager.retryPolicy.maxRetries.toNat

/-- `delay_for_attempt`. -/
def delay (attempt : Nat) : Option Duration :=
  c.call.manager.retryPolicy.delayForAttempt c.backoff c.powi attempt

/-- What the call returns, and what it leaves behind; `none` if it panics. -/
def run (s : Session) : Option (Except ServiceError Path × Session) :=
  match c.call.prepared s with
  | (.error e, s₁) => some (.error e, s₁)
  | (.ok (tracker, existing), s₁) =>
    c.call.manager.pacedAttempts c.call.env c.backoff c.powi c.call.partialPath existing
      c.call.sourceId c.call.subject c.call.manager.retriesLeft 0 tracker s₁

/-- The sessions in which its attempts begin. -/
def starts (s : Session) : List (Option Nat × Session) :=
  untilPanic (fun i => (c.delay i).isNone) 0 (c.call.starts s)

/-- What an attempt that begins there ends with. -/
def outcome (start : Option Nat × Session) : Except ServiceError DownloadResult :=
  (c.call.attemptRun start.1 start.2).1

/-- The call returns, after as many attempts as the outcomes and the policy say.  The first
that delivers a file is the last, whatever is in the file.  One `download_retry` event is
recorded between two attempts, and none otherwise. -/
structure CountsAttempts (outcomes : Nat → Except ServiceError DownloadResult) (s : Session) :
    Prop where
  returns : c.run s = some (c.call.run s)
  count : ((c.starts s).length : ℕ∞) = min (finalPosition outcomes) (c.maxRetries + 1 : ℕ)
  delivered_last : ∀ i start result, (c.starts s)[i]? = some start →
    c.outcome start = .ok result → (c.starts s).length = i + 1
  audited_once : ∀ i start next, (c.starts s)[i]? = some start →
    (c.starts s)[i + 1]? = some next → retryAudits next.2 = retryAudits start.2 + 1
  audited : retryAudits (c.call.run s).2 + 1 = retryAudits s + (c.starts s).length

variable {c : PacedCall} {s s₁ : Session} {tracker : DownloadTracker} {existing : Option Nat}

/-- Every attempt that another one follows fails with an error that is retried, and between
the two there is one event. -/
theorem follows (hprepared : c.call.prepared s = (.ok (tracker, existing), s₁)) {i : Nat}
    {start next : Option Nat × Session} (hstart : (c.call.starts s)[i]? = some start)
    (hnext : (c.call.starts s)[i + 1]? = some next) :
    (∃ e, c.outcome start = .error e ∧ c.call.manager.retryPolicy.shouldRetry e = true) ∧
      retryAudits next.2 = retryAudits start.2 + 1 := by
  rw [DownloadCall.starts_of_prepared hprepared, List.getElem?_map,
    Option.map_eq_some_iff] at hstart hnext
  obtain ⟨s₂, hs₂, rfl⟩ := hstart
  obtain ⟨s₃, hs₃, rfl⟩ := hnext
  obtain ⟨hi₂, rfl⟩ := List.getElem?_eq_some_iff.mp hs₂
  obtain ⟨hi₃, rfl⟩ := List.getElem?_eq_some_iff.mp hs₃
  have hfollows := List.isChain_iff_getElem.mp (DownloadManager.attemptStarts_isChain
    c.call.manager.retriesLeft (DownloadCall.prepared_same hprepared)) i hi₃
  refine ⟨?_, hfollows.retryAudits_eq⟩
  obtain ⟨e, s₄, t, hrun, hretry, -⟩ := hfollows
  exact ⟨e, congrArg Prod.fst hrun, hretry⟩

/-- How many attempts the call makes if no delay panics. -/
theorem length_starts (hvalid : c.call.manager.retryPolicy.validate c.backoff = .ok ())
    (hprepared : c.call.prepared s = (.ok (tracker, existing), s₁)) :
    0 < (c.call.starts s).length ∧ (c.call.starts s).length ≤ c.maxRetries + 1 ∧
      ((c.call.starts s).length = c.maxRetries + 1 ∨
        ∃ start ∈ (c.call.starts s).getLast?, IsFinal (c.outcome start)) := by
  have hleft : c.call.manager.retriesLeft = c.maxRetries :=
    DownloadManager.retriesLeft_of_validate hvalid
  rw [DownloadCall.starts_of_prepared hprepared, List.length_map, List.getLast?_map, hleft]
  refine ⟨?_, DownloadManager.attemptStarts_length_le _, ?_⟩
  · exact List.length_pos_of_mem (DownloadManager.mem_attemptStarts_self _)
  · by_cases hzero : c.maxRetries = 0
    · left
      rw [hzero]
      rfl
    · refine (DownloadManager.attemptStarts_stops c.maxRetries
        (DownloadCall.prepared_same hprepared)).imp_right fun hstops => ?_
      obtain ⟨s₂, hs₂, hstops⟩ := hstops
      refine ⟨(existing, s₂), ?_, ?_⟩
      · rw [hs₂]
        rfl
      · rcases hrun : c.call.attemptRun existing s₂ with ⟨e | result, s₃⟩
        · have hretry := hstops e s₃ hrun
          rw [outcome, hrun]
          intro htransient
          have hne : c.call.manager.retryPolicy.maxRetries ≠ 0 := by
            intro h
            exact hzero (by rw [maxRetries, h]; rfl)
          rw [RetryPolicy.shouldRetry_iff.mpr ⟨hne, htransient⟩] at hretry
          cases hretry
        · rw [outcome, hrun]
          trivial

/-- A call whose delays are all durations runs as if there were none. -/
theorem run_eq_some_iff (hprepared : c.call.prepared s = (.ok (tracker, existing), s₁)) :
    c.run s = some (c.call.run s) ↔
      ∀ i, i + 1 < (c.call.starts s).length → c.delay i ≠ none := by
  rw [run, hprepared]
  refine (DownloadManager.pacedAttempts_eq_some_iff _).trans ?_
  rw [DownloadCall.starts_of_prepared hprepared, List.length_map,
    and_iff_left (DownloadCall.run_of_prepared hprepared).symm]
  simp only [Nat.zero_add]
  rfl

/-- A call records one retry for each attempt after the first. -/
theorem retryAudits_run (hprepared : c.call.prepared s = (.ok (tracker, existing), s₁)) :
    retryAudits (c.call.run s).2 + 1 = retryAudits s + (c.call.starts s).length := by
  have hbegin := @retryAudits_of_makes c.call.env _ _ _ (c.call.manager.prepare_noRetryAudit
    c.call.env c.call.url c.call.destination c.call.digest c.call.expectedSize c.call.sourceId
    c.call.subject) s
  have hprepare : retryAudits (c.call.prepared s).2 = retryAudits s := hbegin
  rw [hprepared] at hprepare
  rw [DownloadCall.run_of_prepared hprepared, DownloadCall.starts_of_prepared hprepared,
    List.length_map, DownloadManager.retryAudits_attempts, hprepare]

theorem delay_eq_none_iff {i : Nat} (h : i < c.maxRetries) :
    c.delay i = none ↔ c.backoff.Overflows c.powi i :=
  RetryPolicy.delayForAttempt_eq_none_iff h

/-- Up to the first delay that panics all attempts are made. -/
theorem getElem?_starts {i : Nat} {start : Option Nat × Session}
    (hdelays : ∀ j < i, c.delay j ≠ none) (h : (c.call.starts s)[i]? = some start) :
    (c.starts s)[i]? = some start := by
  refine getElem?_untilPanic.mpr ⟨h, fun j hj => ?_⟩
  rw [Nat.zero_add, Option.isNone_eq_false_iff, Option.isSome_iff_ne_none]
  exact hdelays j hj

theorem starts_eq (h : ∀ i, i + 1 < (c.call.starts s).length → c.delay i ≠ none) :
    c.starts s = c.call.starts s := by
  refine untilPanic_eq_self fun i hi => ?_
  rw [Nat.zero_add, Option.isNone_eq_false_iff, Option.isSome_iff_ne_none]
  exact h i hi

/-- For every accepted policy and all outcomes: the call ends after the attempts that are
counted, if and only if each delay that it then has to compute is a duration. -/
theorem countsAttempts_iff (c : PacedCall) {s s₁ : Session} {tracker : DownloadTracker}
    {existing : Option Nat} {outcomes : Nat → Except ServiceError DownloadResult}
    (hvalid : c.call.manager.retryPolicy.validate c.backoff = .ok ())
    (hprepared : c.call.prepared s = (.ok (tracker, existing), s₁))
    (houtcomes : ∀ i start, (c.starts s)[i]? = some start → c.outcome start = outcomes i) :
    c.CountsAttempts outcomes s ↔
      ∀ i : ℕ, ((i + 2 : ℕ) : ℕ∞) ≤ min (finalPosition outcomes) (c.maxRetries + 1 : ℕ) →
        ¬ c.backoff.Overflows c.powi i := by
  obtain ⟨hpos, hle, hstops⟩ := length_starts hvalid hprepared
  by_cases hdelays : ∀ i, i + 1 < (c.call.starts s).length → c.delay i ≠ none
  · have hstarts := starts_eq hdelays
    rw [hstarts] at houtcomes
    have hcount : ((c.call.starts s).length : ℕ∞) =
        min (finalPosition outcomes) (c.maxRetries + 1 : ℕ) := by
      refine length_eq_min_finalPosition hpos hle (fun i hi => ?_) (hstops.imp_right ?_)
      · obtain ⟨⟨e, he, hretry⟩, -⟩ := follows hprepared
          (List.getElem?_eq_getElem (Nat.lt_of_succ_lt hi)) (List.getElem?_eq_getElem hi)
        rw [← houtcomes i _ (List.getElem?_eq_getElem (Nat.lt_of_succ_lt hi)), he]
        exact not_not.mpr (RetryPolicy.shouldRetry_iff.mp hretry).2
      · rintro ⟨start, hstart, hfinal⟩
        rw [List.getLast?_eq_getElem?] at hstart
        rwa [← houtcomes _ _ hstart]
    refine iff_of_true ⟨(run_eq_some_iff hprepared).mpr hdelays, ?_, ?_, ?_, ?_⟩ ?_
    · rw [hstarts, hcount]
    · intro i start result hstart hresult
      rw [hstarts] at hstart ⊢
      have hi := (List.getElem?_eq_some_iff.mp hstart).1
      by_contra hmore
      obtain ⟨⟨e, he, -⟩, -⟩ := follows hprepared hstart
        (List.getElem?_eq_getElem (by omega : i + 1 < (c.call.starts s).length))
      rw [he] at hresult
      cases hresult
    · intro i start next hstart hnext
      rw [hstarts] at hstart hnext
      exact (follows hprepared hstart hnext).2
    · rw [hstarts]
      exact retryAudits_run hprepared
    · intro i hi hover
      rw [← hcount, Nat.cast_le] at hi
      exact hdelays i (by omega) ((delay_eq_none_iff (by omega)).mpr hover)
  · -- The first delay that panics comes after an attempt that is to be followed.
    refine iff_of_false (fun h => hdelays ((run_eq_some_iff hprepared).mp h.returns)) fun h => ?_
    push Not at hdelays
    have hfirst := Nat.find_spec hdelays
    have hbefore : ∀ j < Nat.find hdelays, c.delay j ≠ none := by
      intro j hj hnone
      exact Nat.find_min hdelays hj ⟨by omega, hnone⟩
    generalize Nat.find hdelays = i at hfirst hbefore
    obtain ⟨hi, hnone⟩ := hfirst
    refine h i (le_min (le_finalPosition_iff.mpr fun j hfinal => ?_) ?_)
      ((delay_eq_none_iff (by omega)).mp hnone)
    · by_contra hlt
      have hj : j ≤ i := by
        have hlt := Nat.cast_lt.mp (not_le.mp hlt)
        omega
      have hstart := List.getElem?_eq_getElem (by omega : j < (c.call.starts s).length)
      obtain ⟨⟨e, he, hretry⟩, -⟩ := follows hprepared hstart
        (List.getElem?_eq_getElem (by omega : j + 1 < (c.call.starts s).length))
      rw [← houtcomes j _ (getElem?_starts (fun k hk => hbefore k (by omega)) hstart), he]
        at hfinal
      exact hfinal (RetryPolicy.shouldRetry_iff.mp hretry).2
    · exact Nat.cast_le.mpr (by omega)

/-- The outcomes of the attempts that are made, and after them those of any others. -/
def outcomes (c : PacedCall) (s : Session) (later : Except ServiceError DownloadResult)
    (i : Nat) : Except ServiceError DownloadResult :=
  ((c.starts s)[i]?.map c.outcome).getD later

theorem outcomes_of_getElem? (later : Except ServiceError DownloadResult) {i : Nat}
    {start : Option Nat × Session} (h : (c.starts s)[i]? = some start) :
    c.outcome start = c.outcomes s later i := by
  rw [outcomes, h]
  rfl

end PacedCall

/-! ## Two calls -/

/-- A power, rounded once. -/
def roundedPower : F64 → Nat → F64
  | .number x, n => .ofRat (x ^ n)
  | x, _ => x

example : (RetryPolicy.default.delayForAttempt .default roundedPower 1,
    RetryPolicy.default.delayForAttempt .default roundedPower 3) =
      (some (Duration.fromSecs 2), some (Duration.fromSecs 0)) := by decide +kernel

/-- The download of `abc` from a busy server, with the backoff `backoff`. -/
def busyCall (backoff : Backoff) : PacedCall := ⟨abcCall busyServer, backoff, roundedPower⟩

/-- It comes to its loop. -/
theorem busyCall_prepared (backoff : Backoff) :
    ∃ tracker existing s₁, (busyCall backoff).call.prepared ⟨abcFiles (utf8 "a"), []⟩ =
      (.ok (tracker, existing), s₁) := by
  have hok : ((abcCall busyServer).prepared ⟨abcFiles (utf8 "a"), []⟩).1.isOk = true := by
    decide +kernel
  rcases hrun : (abcCall busyServer).prepared ⟨abcFiles (utf8 "a"), []⟩ with
    ⟨e | ⟨tracker, existing⟩, s₁⟩
  · rw [hrun] at hok
    cases hok
  · exact ⟨tracker, existing, s₁, hrun⟩

/-- With the default policy the attempts are made as counted. -/
theorem countsAttempts_default :
    (busyCall .default).CountsAttempts ((busyCall .default).outcomes ⟨abcFiles (utf8 "a"), []⟩
      (.error (.downloadFailed "HTTP 503"))) ⟨abcFiles (utf8 "a"), []⟩ := by
  obtain ⟨tracker, existing, s₁, hprepared⟩ := busyCall_prepared .default
  refine (PacedCall.countsAttempts_iff (busyCall .default) (by decide +kernel) hprepared
    fun i start hstart => PacedCall.outcomes_of_getElem? _ hstart).mpr fun i hi => ?_
  have hdelays : ∀ i < 3, (busyCall .default).delay i ≠ none := by decide +kernel
  have hi : i < 3 := by
    have hle := Nat.cast_le.mp (hi.trans (min_le_right _ _))
    have hthree : (busyCall .default).maxRetries = 3 := rfl
    omega
  exact mt (PacedCall.delay_eq_none_iff hi).mpr (hdelays i hi)

/-- A policy without a bound on its delays. -/
def boundless : Backoff := ⟨.max, .max, .number 1⟩

/-- That policy is accepted, and the first delay panics. -/
theorem not_countsAttempts_boundless :
    (busyCall boundless).call.manager.retryPolicy.validate boundless = .ok () ∧
      (∃ tracker existing s₁, (busyCall boundless).call.prepared
        ⟨abcFiles (utf8 "a"), []⟩ = (.ok (tracker, existing), s₁)) ∧
      (busyCall boundless).run ⟨abcFiles (utf8 "a"), []⟩ = none ∧
      ∀ outcomes, ¬ (busyCall boundless).CountsAttempts outcomes ⟨abcFiles (utf8 "a"), []⟩ := by
  have hpanics : (busyCall boundless).run ⟨abcFiles (utf8 "a"), []⟩ = none := by
    rw [← Option.isNone_iff_eq_none]
    decide +kernel
  refine ⟨by decide +kernel, busyCall_prepared boundless, hpanics, fun outcomes h => ?_⟩
  have hreturns := h.returns
  rw [hpanics] at hreturns
  cases hreturns

end MissionOs.Driverd
