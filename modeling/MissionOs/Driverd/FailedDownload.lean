import MissionOs.Driverd.DownloadCall

/-!
# Failed downloads

What is at the destination after a download that failed.  An attempt that fails leaves the
destination alone; one that delivers a file replaces it, before the file is checked.  So a
failed download restores the destination exactly if no delivered file is refused, or if the
refusal happens to leave what was there before (`error_keeps_destination_iff`).
-/

namespace MissionOs.Driverd

open MissionOs.Rust MissionOs.Lib

/-! ## Hashing a file that is there -/

/-- The hash that `hash_file` finds for the bytes `data`, if its calls begin with number
`n`. -/
def FetchEnv.hashOf (env : FetchEnv) (algorithm : String) (data : Bytes) (n : Nat) :
    Option Bytes :=
  match HashAlgorithm.ofName algorithm with
  | none => none
  | some inner =>
    if (env.fault n).isSome || (env.fault (n + 1)).isSome then none
    else some (env.hash.digest inner data)

/-- A file that is there is hashed, unless the algorithm is unknown or a read fails. -/
theorem StreamingHasher.hashFile_of_get? (env : FetchEnv) (algorithm : String) {path : Path}
    {data : Bytes} {s : Session} (hdata : s.fs.get? path = some data) :
    Fallible.Ensures env.handler Fallible.AnyCall (hashFile env.hash algorithm path)
      (fun digest s' => env.hashOf algorithm data s.trace.length = some digest ∧
        s'.fs = s.fs ∧ s'.trace.length = s.trace.length + 2)
      (fun _ s' => env.hashOf algorithm data s.trace.length = none ∧ s'.fs = s.fs) s := by
  have hopen := FetchEnv.outcome_openRead env s.trace.length
    (FileSystem.pathExists_of_get? hdata)
  have hread := FetchEnv.outcome_readChunks env (s.trace.length + 1) hdata
  unfold hashFile
  refine Fallible.ensures_bind.mpr (Fallible.ensures_orFail.mpr
    ⟨fun hasher hnew => ?_, fun e hnew => ?_⟩)
  · obtain ⟨inner, hinner, rfl⟩ := StreamingHasher.eq_of_new hnew
    refine Fallible.ensures_bind.mpr (Fallible.ensures_bind.mpr (Fallible.ensures_perform.mpr
      ⟨trivial, ?_⟩))
    simp only [FetchEnv.handler, hopen]
    cases hfirst : env.fault s.trace.length with
    | some e =>
        refine Fallible.ensures_throw.mpr ⟨?_, rfl⟩
        simp [FetchEnv.hashOf, hinner, hfirst]
    | none =>
        refine Fallible.ensures_pure.mpr ?_
        refine Fallible.ensures_bind.mpr (Fallible.ensures_bind.mpr
          (Fallible.ensures_perform.mpr ⟨trivial, ?_⟩))
        simp only [FetchEnv.handler, List.length_append, List.length_singleton, hread]
        cases hsecond : env.fault (s.trace.length + 1) with
        | some e =>
            refine Fallible.ensures_throw.mpr ⟨?_, rfl⟩
            simp [FetchEnv.hashOf, hinner, hsecond]
        | none =>
            refine Fallible.ensures_pure.mpr (Fallible.ensures_pure.mpr ⟨?_, rfl, ?_⟩)
            · have hflat := FetchEnv.flatten_toChunks 65536 data
              rw [StreamingHasher.foldl_update, hflat]
              simp [FetchEnv.hashOf, hinner, hfirst, hsecond, StreamingHasher.update,
                StreamingHasher.finalize]
            · simp
  · refine ⟨?_, rfl⟩
    simp [FetchEnv.hashOf, StreamingHasher.ofName_of_new_error hnew]

/-! ## One attempt -/

/-- A temporary file that was written is no directory. -/
theorem PackageFetcher.downloadToFile_isDir (fetcher : PackageFetcher) (env : FetchEnv)
    (url : String) (tmpPath : Path) (expectedSize : Option Nat) (s : Session) :
    Fallible.Ensures env.handler Fallible.AnyCall
      (fetcher.downloadToFile url tmpPath expectedSize)
      (fun _ s' => s'.fs.isDir tmpPath = false) (fun _ _ => True) s := by
  unfold downloadToFile
  refine Fallible.ensures_seq (fun response s₁ => ?_) fun _ _ => trivial
  refine Fallible.ensures_seq (fun _ s₂ => ?_) fun _ _ => trivial
  refine Fallible.ensures_bind.mpr (Fallible.ensures_bind.mpr (Fallible.ensures_perform.mpr
    ⟨trivial, Fallible.ensures_orFail.mpr ⟨fun _ hcreated => ?_, fun _ _ => trivial⟩⟩))
  have hfile : (env.handler (.createFile tmpPath) s₂).2.fs.isDir tmpPath = false := by
    rcases FetchEnv.createFile_cases env s₂.trace.length s₂.fs tmpPath with
      ⟨e, he⟩ | ⟨hdir, -, hok⟩
    · simp only [FetchEnv.handler, he] at hcreated
      cases hcreated
    · simp only [FetchEnv.handler, hok]
      exact hdir
  -- The rest of the code makes no directory.
  have hwithin : ∀ c : FetchCall, c.Streams tmpPath →
      c.Within (HttpRequest.IsTo url) [tmpPath] none :=
    fun c hc => hc.within (List.mem_singleton_self _)
  have hrest := Fallible.makes_mono (fetcher.body_streams tmpPath response) hwithin
    fun _ h => h
  have hdirs : ∀ {s'}, KeepsDirs (env.handler (.createFile tmpPath) s₂).2 s' →
      s'.fs.isDir tmpPath = false := by
    intro s' hs'
    rw [FileSystem.isDir, hs']
    exact hfile
  exact Fallible.ensures_mono ((KeepsDirs.of_within hrest).ensures _)
    (fun _ _ h => hdirs h) fun _ _ _ => trivial

namespace DownloadCall

variable {c : DownloadCall} {s s₁ s₂ : Session} {existing : Option Nat}

/-- A file is at the destination, and it is the one that is looked at next. -/
structure Delivered (c : DownloadCall) (result : DownloadResult) (s : Session) : Prop where
  data : ∃ data, s.fs.get? c.destination = some data
  path : result.path = c.destination ∨ s.fs.pathExists result.path = false

/-- A fresh download keeps the destination until it renames the temporary file. -/
theorem fetch_ensures (hsep : c.Separate) (expectedSize : Option Nat) (s : Session) :
    Fallible.Ensures c.env.handler Fallible.AnyCall
      (c.manager.fetcher.download c.env.hash c.url c.destination expectedSize none)
      (fun result s' => c.Delivered result s')
      (fun _ s' => KeepsFile c.destination s s') s := by
  have htmp : ∀ q ∈ [c.tmpPath], c.destination.resolve ≠ q.resolve := by
    simpa using hsep.tmp_ne
  have hparent : MakesWithin (HttpRequest.IsTo c.url) [c.tmpPath] c.destination.parent
      (PackageFetcher.ensureParent "cannot create download directory: " c.destination)
      fun _ => True := PackageFetcher.ensureParent_within _ rfl
  have hfile : MakesWithin (HttpRequest.IsTo c.url) [c.tmpPath] none
      (c.manager.fetcher.downloadToFile c.url c.tmpPath expectedSize)
      fun r => r.path = c.tmpPath :=
    c.manager.fetcher.downloadToFile_within expectedSize (fun _ => rfl) (List.mem_singleton_self _)
  unfold PackageFetcher.download
  refine Fallible.ensures_bind.mpr (Fallible.ensures_orFail.mpr
    ⟨fun _ _ => ?_, fun _ _ => rfl⟩)
  refine (KeepsFile.of_within hparent htmp).ensures_bind (fun _ s₁ h₁ => ?_) fun _ s₁ h₁ => h₁
  have hwritten := Fallible.ensures_and ((KeepsFile.of_within hfile htmp).ensures s₁)
    (Fallible.ensures_and (hfile.ensures c.env.handler (fun _ _ _ => trivial) s₁)
      (c.manager.fetcher.downloadToFile_isDir c.env c.url c.tmpPath expectedSize s₁))
  refine Fallible.ensures_bind.mpr (Fallible.ensures_mono hwritten (fun result s₂ h₂ => ?_)
    fun _ s₂ h₂ => h₁.trans' h₂.1)
  obtain ⟨hkeeps, hpath, hdir⟩ := h₂
  have hkeeps' : KeepsFile c.destination s s₂ := h₁.trans' hkeeps
  refine Fallible.ensures_bind.mpr (Fallible.ensures_pure.mpr ?_)
  refine Fallible.ensures_bind.mpr (Fallible.ensures_bind.mpr (Fallible.ensures_perform.mpr
    ⟨trivial, ?_⟩))
  rcases FetchEnv.rename_cases c.env s₂.trace.length s₂.fs c.tmpPath c.destination with
    ⟨e, he⟩ | ⟨data, hdata, hok⟩
  · refine Fallible.ensures_orFail.mpr ⟨fun _ hmoved => ?_, fun _ _ => ?_⟩
    · simp only [FetchEnv.handler] at hmoved
      rw [← tmpPath, he] at hmoved
      cases hmoved
    · simp only [FetchEnv.handler]
      rw [← tmpPath, he]
      exact hkeeps'
  · refine Fallible.ensures_orFail.mpr ⟨fun _ _ => ?_, fun _ hmoved => ?_⟩
    · simp only [FetchEnv.handler]
      rw [← tmpPath, hok]
      have hne : c.tmpPath.resolve ≠ c.destination.resolve := hsep.tmp_ne.symm
      refine Fallible.ensures_pure.mpr ⟨⟨data, ?_⟩, Or.inr ?_⟩
      · simp only [if_neg hne]
        exact FileSystem.get?_write_self _ _ _
      · have hgone : ((s₂.fs.remove c.tmpPath).write c.destination data).get? c.tmpPath =
            none := by
          rw [FileSystem.get?_write_of_ne _ _ hne, FileSystem.get?_remove_self]
        have hnodir : ((s₂.fs.remove c.tmpPath).write c.destination data).isDir c.tmpPath =
            false := hdir
        simp only [if_neg hne, hpath]
        rw [FileSystem.pathExists, hgone, hnodir]
        rfl
    · simp only [FetchEnv.handler] at hmoved
      rw [← tmpPath, hok] at hmoved
      cases hmoved

/-- A resumed download keeps the destination until it renames the partial file, or until the
fresh download that it falls back to replaces it. -/
theorem resume_ensures (hsep : c.Separate) (offset : Nat) (s : Session) :
    Fallible.Ensures c.env.handler Fallible.AnyCall
      (c.manager.resumeDownload c.env c.url c.partialPath offset c.destination)
      (fun result s' => c.Delivered result s')
      (fun _ s' => KeepsFile c.destination s s') s := by
  have hpart : ∀ q ∈ [c.partialPath], c.destination.resolve ≠ q.resolve := by
    simpa using hsep.part_ne
  have hrequest : ∀ r, KeepsFile c.destination s (c.env.handler (.request r) s).2 :=
    fun r => rfl
  unfold DownloadManager.resumeDownload
  refine Fallible.ensures_bind.mpr (Fallible.ensures_bind.mpr (Fallible.ensures_perform.mpr
    ⟨trivial, Fallible.ensures_orFail.mpr ⟨fun response _ => ?_, fun _ _ => hrequest _⟩⟩))
  generalize hs₁ : (c.env.handler (.request ⟨c.url, some ("bytes=" ++ toString offset ++ "-"),
    0⟩) s).2 = s₁
  have h₁ : KeepsFile c.destination s s₁ := by
    rw [← hs₁]
    exact hrequest _
  refine Fallible.ensures_ite.mpr ⟨fun _ => ?_, fun _ => Fallible.ensures_ite.mpr
    ⟨fun _ => ?_, fun _ => Fallible.ensures_throw.mpr h₁⟩⟩
  · -- The bytes are appended to the partial file, which is then renamed.
    refine Fallible.ensures_bind.mpr (Fallible.ensures_orFail.mpr
      ⟨fun _ _ => ?_, fun _ _ => h₁⟩)
    refine Fallible.ensures_bind.mpr (Fallible.ensures_orFail.mpr
      ⟨fun _ _ => ?_, fun _ _ => h₁⟩)
    have happend : MakesWithin (HttpRequest.IsTo c.url) [c.partialPath] none
        (call (.openAppend c.partialPath) >>= Fallible.orFail fun e =>
          ServiceError.internal ("cannot open partial file for append: " ++ e)) fun _ => True :=
      Fallible.makes_checked (call_makes (List.mem_singleton_self _))
    refine (KeepsFile.of_within happend hpart).ensures_bind (fun _ s₂ h₂ => ?_)
      fun _ s₂ h₂ => h₁.trans' h₂
    have hbody : MakesWithin (HttpRequest.IsTo c.url) [c.partialPath] none
        (streamBody c.manager.fetcher.config.maxResponseSize (pure ()) c.partialPath
          response.body offset) fun _ => True :=
      streamBody_within (List.mem_singleton_self _) (Fallible.makes_pure trivial) _ _
    refine (KeepsFile.of_within hbody hpart).ensures_bind (fun total s₃ h₃ => ?_)
      fun _ s₃ h₃ => (h₁.trans' h₂).trans' h₃
    have hflush : MakesWithin (HttpRequest.IsTo c.url) [c.partialPath] none
        (call (.flush c.partialPath) >>= Fallible.orFail fun e =>
          ServiceError.internal ("file flush error: " ++ e)) fun _ => True :=
      Fallible.makes_checked (call_makes (List.mem_singleton_self _))
    refine (KeepsFile.of_within hflush hpart).ensures_bind (fun _ s₄ h₄ => ?_)
      fun _ s₄ h₄ => ((h₁.trans' h₂).trans' h₃).trans' h₄
    refine Fallible.ensures_bind.mpr (Fallible.ensures_bind.mpr (Fallible.ensures_perform.mpr
      ⟨trivial, ?_⟩))
    rcases FetchEnv.rename_cases c.env s₄.trace.length s₄.fs c.partialPath c.destination with
      ⟨e, he⟩ | ⟨data, hdata, hok⟩
    · simp only [FetchEnv.handler, he]
      exact Fallible.ensures_throw.mpr (((h₁.trans' h₂).trans' h₃).trans' h₄)
    · simp only [FetchEnv.handler, hok]
      refine Fallible.ensures_pure.mpr (Fallible.ensures_pure.mpr ⟨⟨data, ?_⟩, Or.inl rfl⟩)
      simp only [if_neg hsep.part_ne.symm]
      exact FileSystem.get?_write_self _ _ _
  · -- The server sent the whole file: the partial file is dropped.
    have hremove : MakesWithin (HttpRequest.IsTo c.url) [c.partialPath] none
        (discard (call (.removeFile c.partialPath)) : Fetch Unit) fun _ => True :=
      Fallible.makes_discard (call_makes (List.mem_singleton_self _))
    refine (KeepsFile.of_within hremove hpart).ensures_bind (fun _ s₂ h₂ => ?_)
      fun _ s₂ h₂ => h₁.trans' h₂
    exact Fallible.ensures_mono (fetch_ensures hsep none s₂) (fun _ _ h => h)
      fun _ _ h => (h₁.trans' h₂).trans' h

/-- An attempt delivers a file at the destination, or keeps what is there. -/
theorem attempt_ensures (hsep : c.Separate) (existing : Option Nat) (s : Session) :
    Fallible.Ensures c.env.handler Fallible.AnyCall (c.attempt existing)
      (fun result s' => c.Delivered result s')
      (fun _ s' => KeepsFile c.destination s s') s := by
  unfold attempt DownloadManager.performDownloadWithResume
  split
  · exact resume_ensures hsep _ s
  · exact fetch_ensures hsep _ s

/-- The attempts begin with the destination as it was before the call. -/
theorem keepsFile_of_mem_starts (hsep : c.Separate) (hmem : (existing, s₁) ∈ c.starts s) :
    KeepsFile c.destination s s₁ := by
  refine starts_keep (I := KeepsFile c.destination s) (fun tracker existing s₁ hbegin => ?_)
    (fun existing s₁ e s₂ s₃ _ h₁ hrun haudited => ?_) existing s₁ hmem
  · have hbegun := prepared_keepsFile (c := c) (s := s) c.destination
    rwa [hbegin] at hbegun
  · exact (h₁.trans' ((attempt_ensures hsep existing s₁).of_error hrun)).trans'
      (KeepsFile.audited haudited)

/-! ## The look at a delivered file -/

/-- What becomes of a delivered file: it is accepted, it is left although it was not, or it
is removed. -/
inductive Verdict where
  | accepted
  | left
  | removed
deriving DecidableEq, Repr

/-- What becomes of the delivered bytes `data`, if the call `result.path.exists()` has number
`n`: the file is hashed by the next two calls, and a file that is refused is removed by the
call that comes after those and the audit event. -/
def verdict (c : DownloadCall) (result : DownloadResult) (data : Bytes) (n : Nat) : Verdict :=
  match c.env.hashOf c.digest.algorithm data (n + 1) with
  | none => .left
  | some hash =>
    if c.digest.matches hash && !c.expectedSize.any (· ≠ result.actualSize) then .accepted
    else if (c.env.fault (n + 5)).isSome then .left
    else .removed

/-- What a verdict leaves at the destination. -/
def Verdict.leaves (data : Bytes) : Verdict → Option Bytes
  | .removed => none
  | _ => some data

/-- A refused file is removed, unless the removal fails, and then the call goes on. -/
theorem refuse_ensures {data : Bytes} {n : Nat} {α : Type} {rest : Fetch α}
    {Q : α → Session → Prop} {E : ServiceError → Session → Prop}
    (hdata : s.fs.get? c.destination = some data) (hlength : s.trace.length = n + 3)
    (t : DownloadTracker) (action : String)
    (hrest : ∀ s', s'.fs.get? c.destination =
        (if (c.env.fault (n + 5)).isSome then some data else none) →
      Fallible.Ensures c.env.handler Fallible.AnyCall rest Q E s') :
    Fallible.Ensures c.env.handler Fallible.AnyCall (do
      DownloadManager.auditDownload c.env t c.sourceId c.subject action .error
      discard (call (.removeFile c.destination))
      rest) Q E s := by
  refine Fallible.ensures_bind.mpr (Fallible.ensures_mono
    (DownloadManager.auditDownload_ensures c.env allowsAudit_any t c.sourceId c.subject action
      .error s) (fun _ s₁ haudited => ?_) fun _ _ h => h.elim)
  have hnumber : s₁.trace.length = n + 5 := by
    have hlength' := haudited.length
    omega
  refine Fallible.ensures_bind.mpr (Fallible.ensures_discard.mpr (Fallible.ensures_perform.mpr
    ⟨trivial, hrest _ ?_⟩))
  rw [← haudited.1] at hdata
  simp only [FetchEnv.handler, hnumber, FetchEnv.outcome_removeFile c.env _ hdata]
  split_ifs
  · exact hdata
  · exact FileSystem.get?_remove_self _ _

/-- Without local failures the partial file is gone after its removal. -/
theorem removePartial_ensures (c : DownloadCall) (s : Session) :
    Fallible.Ensures c.env.handler Fallible.AnyCall
      (c.manager.resumeManager.removePartial c.digest)
      (fun _ s' => (∀ n, c.env.fault n = none) → s'.fs.get? c.partialPath = none)
      (fun _ s' => (∀ n, c.env.fault n = none) → s'.fs.get? c.partialPath = none) s := by
  unfold ResumeManager.removePartial
  refine Fallible.ensures_bind.mpr (Fallible.ensures_perform.mpr ⟨trivial, ?_⟩)
  have hgone : (∀ n, c.env.fault n = none) → ∀ s₁ : Session,
      (c.env.handler (.removeFile c.partialPath) s₁).2.fs.get? c.partialPath = none := by
    intro hfault s₁
    cases hdata : s₁.fs.get? c.partialPath with
    | none => simp [FetchEnv.handler, FetchEnv.outcome, FetchEnv.faulty, hfault, hdata]
    | some data => simp [FetchEnv.handler, FetchEnv.outcome_removeFile c.env _ hdata, hfault]
  refine Fallible.ensures_ite.mpr ⟨fun _ => ?_, fun hmissing => ?_⟩
  · exact Fallible.ensures_bind.mpr (Fallible.ensures_perform.mpr ⟨trivial,
      Fallible.ensures_orFail.mpr ⟨fun _ _ hfault => hgone hfault _, fun _ _ hfault =>
        hgone hfault _⟩⟩)
  · refine Fallible.ensures_pure.mpr fun hfault => ?_
    have hnone : s.fs.get? c.partialPath = none := by
      have hanswer : (c.env.handler (.pathExists c.partialPath) s).1 = false :=
        eq_false_of_ne_true hmissing
      simp only [FetchEnv.handler, FetchEnv.outcome, hfault, FileSystem.pathExists] at hanswer
      by_contra hsome
      simp [Option.isSome_iff_ne_none.mpr hsome] at hanswer
    exact hnone

/-- How a call ends that accepts the delivered bytes `data`: they are at the destination, and
without local failures the partial file is gone. -/
structure Accepted (c : DownloadCall) (data : Bytes) (p : Path) (s : Session) : Prop where
  path : p = c.destination
  data : s.fs.get? c.destination = some data
  noPartial : (∀ n, c.env.fault n = none) → s.fs.get? c.partialPath = none

/-- Once the file is found to be the right one, nothing that is left to do can fail. -/
theorem completed_ensures {data : Bytes} (t : DownloadTracker) (hsep : c.Separate)
    (hdata : s.fs.get? c.destination = some data) :
    Fallible.Ensures c.env.handler Fallible.AnyCall (do
      discard (c.manager.resumeManager.removePartial c.digest).attempt
      DownloadManager.auditDownload c.env t c.sourceId c.subject "download_completed" .info
      return c.destination)
      (fun p s' => c.Accepted data p s') (fun _ _ => False) s := by
  have hpart : ∀ q ∈ [c.partialPath], c.destination.resolve ≠ q.resolve := by
    simpa using hsep.part_ne
  have hpartial : MakesWithin (HttpRequest.IsTo c.url) [c.partialPath] none
      (c.manager.resumeManager.removePartial c.digest) fun _ => True :=
    Fallible.makes_mono (ResumeManager.removePartial_settles _ _
      (List.mem_singleton_self _)) (fun _ h => h.within) fun _ h => h
  have hremoved : ∀ s₃, KeepsFile c.destination s s₃ →
      ((∀ n, c.env.fault n = none) → s₃.fs.get? c.partialPath = none) →
      Fallible.Ensures c.env.handler Fallible.AnyCall (do
        DownloadManager.auditDownload c.env t c.sourceId c.subject "download_completed" .info
        return c.destination)
        (fun p s' => c.Accepted data p s') (fun _ _ => False) s₃ := by
    intro s₃ hkept hnone
    refine Fallible.ensures_bind.mpr (Fallible.ensures_mono
      (DownloadManager.auditDownload_ensures c.env allowsAudit_any _ _ _ _ _ s₃)
      (fun _ s₄ haudited => ?_) fun _ _ h => h.elim)
    have hdata₄ : s₄.fs.get? c.destination = some data := by
      rw [haudited.1]
      exact hkept.trans hdata
    refine Fallible.ensures_pure.mpr ⟨rfl, hdata₄, fun hfault => ?_⟩
    rw [haudited.1]
    exact hnone hfault
  exact Fallible.ensures_bind.mpr (Fallible.ensures_discard.mpr
    (Fallible.ensures_attempt.mpr (Fallible.ensures_mono (Fallible.ensures_and
      ((KeepsFile.of_within hpartial hpart).ensures s) (removePartial_ensures c s))
      (fun _ s₃ h => hremoved s₃ h.1 h.2) fun _ s₃ h => hremoved s₃ h.1 h.2)))

/-- A delivered file is accepted, or refused with what the verdict leaves of it. -/
theorem accept_ensures {t : DownloadTracker} {result : DownloadResult} {data : Bytes}
    (hsep : c.Separate) (hsame : c.tracker.Same t) (hdelivered : c.Delivered result s)
    (hdata : s.fs.get? c.destination = some data) :
    Fallible.Ensures c.env.handler Fallible.AnyCall
      (c.manager.acceptDownload c.env t result c.sourceId c.subject)
      (fun p s' => c.verdict result data s.trace.length = .accepted ∧ c.Accepted data p s')
      (fun _ s' => c.verdict result data s.trace.length ≠ .accepted ∧
        s'.fs.get? c.destination = (c.verdict result data s.trace.length).leaves data) s := by
  have hdest : t.destination = c.destination := hsame.destination
  have hdigest : t.digest = c.digest := hsame.digest
  have hsize : t.expectedSize = c.expectedSize := hsame.expectedSize
  have hpart : ∀ q ∈ [c.partialPath], c.destination.resolve ≠ q.resolve := by
    simpa using hsep.part_ne
  unfold DownloadManager.acceptDownload
  rw [hdest, hdigest, hsize]
  refine Fallible.ensures_bind.mpr (Fallible.ensures_perform.mpr ⟨trivial, ?_⟩)
  have hverified : (if (c.env.handler (.pathExists result.path) s).1 then result.path
      else c.destination) = c.destination := by
    rcases hdelivered.path with hpath | hnone
    · rw [hpath, ite_self]
    · simp [FetchEnv.handler, FetchEnv.outcome, hnone]
  rw [hverified]
  generalize hs₁ : (c.env.handler (.pathExists result.path) s).2 = s₁
  have hdata₁ : s₁.fs.get? c.destination = some data := by
    rw [← hs₁]
    exact hdata
  have hlength₁ : s₁.trace.length = s.trace.length + 1 := by
    rw [← hs₁]
    simp [FetchEnv.handler]
  refine Fallible.ensures_bind.mpr (Fallible.ensures_mono
    (StreamingHasher.hashFile_of_get? c.env c.digest.algorithm hdata₁)
    (fun hash s₂ hhash => ?_) fun _ s₂ hhash => ?_)
  · obtain ⟨hhash, hfs, hlength₂⟩ := hhash
    rw [hlength₁] at hhash
    have hdata₂ : s₂.fs.get? c.destination = some data := by
      rw [hfs]
      exact hdata₁
    have hlength₂' : s₂.trace.length = s.trace.length + 3 := by omega
    have hrefused : (c.digest.matches hash && !c.expectedSize.any (· ≠ result.actualSize)) =
        false → ∀ s' : Session, s'.fs.get? c.destination =
          (if (c.env.fault (s.trace.length + 5)).isSome then some data else none) →
        c.verdict result data s.trace.length ≠ .accepted ∧ s'.fs.get? c.destination =
          (c.verdict result data s.trace.length).leaves data := by
      intro hno s' hs'
      unfold verdict
      rw [hhash]
      simp only [hno, hs', Bool.false_eq_true, if_false]
      split_ifs <;> exact ⟨by simp, rfl⟩
    refine Fallible.ensures_ite.mpr ⟨fun hmatch => ?_, fun hmatch => ?_⟩
    · have hmismatch : (c.digest.matches hash &&
          !c.expectedSize.any (· ≠ result.actualSize)) = false := by simp_all
      refine refuse_ensures hdata₂ hlength₂' _ _ fun s₃ hs₃ => ?_
      have hremoval : MakesWithin (HttpRequest.IsTo c.url) [c.partialPath] none
          (discard (c.manager.resumeManager.removePartial c.digest).attempt : Fetch Unit)
          fun _ => True :=
        Fallible.makes_discard (Fallible.makes_attempt
          (Fallible.makes_mono (ResumeManager.removePartial_settles _ _
            (List.mem_singleton_self _)) (fun _ h => h.within) fun _ h => h))
      refine (KeepsFile.of_within hremoval hpart).ensures_bind (fun _ s₄ h₄ => ?_)
        fun _ s₄ h₄ => ?_
      · exact Fallible.ensures_throw.mpr (hrefused hmismatch s₄ (h₄.trans hs₃))
      · exact hrefused hmismatch s₄ (h₄.trans hs₃)
    · have hmatches : c.digest.matches hash = true := by simpa using hmatch
      refine Fallible.ensures_ite.mpr ⟨fun hwrong => ?_, fun hright => ?_⟩
      · have hmismatch : (c.digest.matches hash &&
            !c.expectedSize.any (· ≠ result.actualSize)) = false := by simp_all
        refine refuse_ensures hdata₂ hlength₂' _ _ fun s₃ hs₃ => ?_
        exact Fallible.ensures_throw.mpr (hrefused hmismatch s₃ hs₃)
      · have haccepted : c.verdict result data s.trace.length = .accepted := by
          unfold verdict
          rw [hhash]
          simp only [hmatches, hright, Bool.not_false, Bool.and_true, if_true]
        refine Fallible.ensures_bind.mpr (Fallible.ensures_ite.mpr
          ⟨fun hmoved => absurd rfl hmoved, fun _ => Fallible.ensures_pure.mpr ?_⟩)
        exact Fallible.ensures_mono (completed_ensures _ hsep hdata₂)
          (fun _ _ h => ⟨haccepted, h⟩) fun _ _ h => h.elim
  · obtain ⟨hhash, hfs⟩ := hhash
    rw [hlength₁] at hhash
    unfold verdict
    rw [hhash]
    refine ⟨by simp, ?_⟩
    rw [hfs, hdata₁]
    rfl

/-! ## Failed calls -/

/-- Every file that the call delivers is accepted, or is refused with what was at the
destination before the call. -/
def RefusalsRestore (c : DownloadCall) (s : Session) : Prop :=
  ∀ existing s₁ result s₂ data, (existing, s₁) ∈ c.starts s →
    c.attemptRun existing s₁ = (.ok result, s₂) → s₂.fs.get? c.destination = some data →
    c.verdict result data s₂.trace.length = .accepted ∨
      (c.verdict result data s₂.trace.length).leaves data = s.fs.get? c.destination

/-- A call that delivers a file succeeds if the file is accepted; otherwise it fails, with
what the verdict leaves. -/
theorem run_of_delivered {result : DownloadResult} {data : Bytes} (hsep : c.Separate)
    (hmem : (existing, s₁) ∈ c.starts s) (hrun : c.attemptRun existing s₁ = (.ok result, s₂))
    (hdata : s₂.fs.get? c.destination = some data) :
    (c.verdict result data s₂.trace.length = .accepted ∧ (c.run s).1 = .ok c.destination ∧
        c.Accepted data c.destination (c.run s).2) ∨
      c.verdict result data s₂.trace.length ≠ .accepted ∧ ∃ e, (c.run s).1 = .error e ∧
        (c.run s).2.fs.get? c.destination =
          (c.verdict result data s₂.trace.length).leaves data := by
  obtain ⟨t, ht, hend⟩ := run_of_completed hmem hrun
  have haccept := accept_ensures hsep ht
    ((attempt_ensures hsep existing s₁).of_ok hrun) hdata
  rcases hlook : CallProg.run c.env.handler (c.manager.acceptDownload c.env t result
    c.sourceId c.subject).run s₂ with ⟨e | p, s₃⟩
  · obtain ⟨hrefused, hleft⟩ := haccept.of_error hlook
    refine Or.inr ⟨hrefused, e, ?_, ?_⟩
    · rw [hend, hlook]
    · rw [hend, hlook]
      exact hleft
  · obtain ⟨hverdict, haccepted⟩ := haccept.of_ok hlook
    have hpath := haccepted.path
    subst hpath
    refine Or.inl ⟨hverdict, ?_, ?_⟩
    · rw [hend, hlook]
    · rw [hend, hlook]
      exact haccepted

/-- A download that fails leaves at its destination what was there before, exactly if every
file that it delivers and refuses does. -/
theorem error_keeps_destination_iff (c : DownloadCall) (s : Session) (hsep : c.Separate) :
    (∀ e, (c.run s).1 = .error e → KeepsFile c.destination s (c.run s).2) ↔
      c.RefusalsRestore s := by
  constructor
  · intro hkeeps existing s₁ result s₂ data hmem hrun hdata
    rcases run_of_delivered hsep hmem hrun hdata with ⟨haccepted, -⟩ | ⟨-, e, herror, hleft⟩
    · exact Or.inl haccepted
    · exact Or.inr (hleft.symm.trans (hkeeps e herror))
  · intro hrestore e herror
    by_cases hfailed : ∀ existing s₁, (existing, s₁) ∈ c.starts s →
        ∃ e s₂, c.attemptRun existing s₁ = (.error e, s₂)
    · rcases run_of_failed hfailed with ⟨e', s₁, hbegin, hrun⟩ |
        ⟨existing, s₁, e', s₂, s₃, hmem, hattempt, haudited, hrun⟩
      · have hbegun := prepared_keepsFile (c := c) (s := s) c.destination
        rw [hrun]
        rwa [hbegin] at hbegun
      · rw [hrun]
        exact ((keepsFile_of_mem_starts hsep hmem).trans'
          ((attempt_ensures hsep existing s₁).of_error hattempt)).trans'
            (KeepsFile.audited haudited)
    · push Not at hfailed
      obtain ⟨existing, s₁, hmem, hcompleted⟩ := hfailed
      rcases hrun : c.attemptRun existing s₁ with ⟨e' | result, s₂⟩
      · exact absurd hrun (hcompleted e' s₂)
      obtain ⟨data, hdata⟩ := ((attempt_ensures hsep existing s₁).of_ok hrun).data
      rcases run_of_delivered hsep hmem hrun hdata with ⟨-, hok, -⟩ |
        ⟨hrefused, e', -, hleft⟩
      · rw [hok] at herror
        cases herror
      · rcases hrestore existing s₁ result s₂ data hmem hrun hdata with haccepted | hrestored
        · exact absurd haccepted hrefused
        · exact hleft.trans hrestored

end DownloadCall

/-! ## A refused download -/

/-- A machine on which `abc` was downloaded before. -/
def abcInstalled : Session :=
  ⟨(FileSystem.empty.makeDirs (Path.new "/var/cache/mission/driverd/packages")).write abcPath
    (utf8 "abc"), []⟩

/-- A server that is always overloaded. -/
def downServer (_ : Nat) (_ : HttpRequest) : Except HttpError HttpResponse :=
  .error (.status 503)

/-- A server that serves another file than it should. -/
def wrongServer (_ : Nat) (r : HttpRequest) : Except HttpError HttpResponse :=
  .ok ⟨200, r.url, some "3", none, none, [.ok (utf8 "abd")]⟩

/-- A download from a server that is down leaves the file of an earlier download. -/
theorem DownloadCall.overloaded_keeps_destination :
    KeepsFile abcPath abcInstalled ((abcCall downServer).run abcInstalled).2 := by
  obtain ⟨hstarts, hfails⟩ : ((abcCall downServer).starts abcInstalled).all (fun start =>
        !((abcCall downServer).attemptRun start.1 start.2).1.isOk) = true ∧
      ((abcCall downServer).run abcInstalled).1 = .error (.downloadFailed "HTTP 503") := by
    decide +kernel
  have hrestore : (abcCall downServer).RefusalsRestore abcInstalled := by
    intro existing s₁ result s₂ data hmem hrun
    have hfailed := List.all_eq_true.mp hstarts _ hmem
    rw [hrun] at hfailed
    cases hfailed
  exact (error_keeps_destination_iff (abcCall downServer) abcInstalled
    (abcCall_separate downServer)).mpr hrestore _ hfails

/-- A file with the wrong digest replaces a verified one, and is then removed. -/
theorem DownloadCall.mismatch_loses_destination :
    ¬ ∀ (c : DownloadCall) (s : Session), c.Separate →
      ∀ e, (c.run s).1 = .error e → KeepsFile c.destination s (c.run s).2 := by
  intro h
  obtain ⟨hfails, hlost⟩ : ((abcCall wrongServer).run abcInstalled).1.isOk = false ∧
      ((abcCall wrongServer).run abcInstalled).2.fs.get? abcPath = none := by decide
  cases herror : ((abcCall wrongServer).run abcInstalled).1 with
  | ok p =>
      rw [herror] at hfails
      cases hfails
  | error e =>
      have hkeeps := h (abcCall wrongServer) abcInstalled (abcCall_separate wrongServer) e herror
      have hkept : ((abcCall wrongServer).run abcInstalled).2.fs.get? abcPath =
        abcInstalled.fs.get? abcPath := hkeeps
      rw [hlost] at hkept
      revert hkept
      decide

end MissionOs.Driverd
