import MissionOs.Driverd.Footprint

/-!
# Calls of `download`

`DownloadCall` is one call of `DownloadManager::download`: its arguments and its
surroundings.  `starts` lists the sessions in which its attempts begin, and every run of the
call ends in one of three ways: it fails before the first attempt, an attempt delivers a
file which is then looked at, or the last attempt fails (`run_of_refused`,
`run_of_completed`, `run_of_failed`).
-/

namespace MissionOs.Driverd

open MissionOs.Rust MissionOs.Lib

/-- One call of `DownloadManager::download`. -/
structure DownloadCall where
  manager : DownloadManager
  env : FetchEnv
  url : String
  destination : Path
  digest : PackageDigest
  expectedSize : Option Nat
  sourceId : String
  subject : String

namespace DownloadCall

variable (c : DownloadCall)

/-- The file that a fresh download is written to. -/
def tmpPath : Path := c.destination.withExtension "tmp"

/-- The file that an interrupted download is resumed from. -/
def partialPath : Path := c.manager.resumeManager.partialPath c.digest

/-- The files of the call. -/
def files : List Path := c.manager.files c.destination c.digest

/-- The tracker that the call begins with. -/
def tracker : DownloadTracker :=
  DownloadTracker.new c.digest c.url c.destination c.expectedSize

/-- The code of the call. -/
def program : Fetch Path :=
  c.manager.download c.env c.url c.destination c.digest c.expectedSize c.sourceId c.subject

/-- What the call returns, and what it leaves behind. -/
def run (s : Session) : Except ServiceError Path × Session :=
  c.program.run.run c.env.handler s

/-- How the call begins: with the tracker, and with the size of a partial file. -/
def prepared (s : Session) : Except ServiceError (DownloadTracker × Option Nat) × Session :=
  (c.manager.prepare c.env c.url c.destination c.digest c.expectedSize c.sourceId
    c.subject).run.run c.env.handler s

/-- One attempt of the call, if the partial file was found to have the size `existing`. -/
def attempt (existing : Option Nat) : Fetch DownloadResult :=
  c.manager.performDownloadWithResume c.env c.tracker c.partialPath existing

/-- What an attempt ends with, and what it leaves behind. -/
def attemptRun (existing : Option Nat) (s : Session) :
    Except ServiceError DownloadResult × Session :=
  (c.attempt existing).run.run c.env.handler s

/-- The sessions in which the attempts of the call begin, with the size that the partial
file was found to have. -/
def starts (s : Session) : List (Option Nat × Session) :=
  match c.prepared s with
  | (.ok (tracker, existing), s₁) =>
    (c.manager.attemptStarts c.env c.partialPath existing c.sourceId c.subject
      c.manager.retriesLeft tracker s₁).map fun s₂ => (existing, s₂)
  | (.error _, _) => []

/-- The destination is neither the temporary file nor the partial file. -/
structure Separate : Prop where
  tmp_ne : c.destination.resolve ≠ c.tmpPath.resolve
  part_ne : c.destination.resolve ≠ c.partialPath.resolve

variable {c : DownloadCall} {s s₁ s₂ : Session} {existing : Option Nat}

/-- A partial file stands in the directory of the partial files. -/
theorem resolve_partialPath (c : DownloadCall) :
    c.partialPath.resolve = c.manager.resumeManager.partialDir.resolve ++
      ["dl-" ++ c.digest.toHex ++ ".part"] := by
  have hslash : '/' ∉ ("dl-" ++ c.digest.toHex ++ ".part").toList := by
    have hhex : '/' ∉ c.digest.toHex.toList := slash_not_mem_hexEncode _
    simp [String.toList_append, hhex]
  have hhead : ("dl-" ++ c.digest.toHex ++ ".part").toList.head? = some 'd' := by
    simp [String.toList_append]
  exact Path.resolve_join_of_head _ hslash hhead (by decide)

/-- The temporary file of a call is not its partial file: their names end differently. -/
theorem Separate.tmp_ne_part (h : c.Separate) : c.tmpPath.resolve ≠ c.partialPath.resolve := by
  cases hname : c.destination.fileName with
  | none =>
      have hsame : c.tmpPath = c.destination := by
        rw [tmpPath, Path.withExtension, hname]
      exact absurd (congrArg Path.resolve hsame.symm) h.tmp_ne
  | some name =>
      have hend : (Path.stem name ++ "." ++ "tmp").toList.getLast? = some 'p' := by
        simp [String.toList_append]
      have hext : Path.stem name ++ "." ++ "tmp" ≠ ".." := by
        intro hdots
        rw [hdots] at hend
        revert hend
        decide
      intro hsame
      have htmp : c.tmpPath.resolve = _ := Path.resolve_withExtension c.destination hname hext
      rw [htmp, resolve_partialPath] at hsame
      have hlast := congrArg List.getLast? hsame
      simp only [List.getLast?_append, List.getLast?_singleton, Option.some_or,
        Option.some.injEq] at hlast
      have hpart : ("dl-" ++ c.digest.toHex ++ ".part").toList.getLast? = some 't' := by
        rw [String.toList_append, List.getLast?_append]
        rfl
      rw [hlast, hpart] at hend
      cases hend

theorem prepared_same {tracker : DownloadTracker}
    (h : c.prepared s = (.ok (tracker, existing), s₁)) : c.tracker.Same tracker := by
  have hprepare := (c.manager.prepare_within c.env c.url c.destination c.digest
    c.expectedSize c.sourceId c.subject).returns c.env.handler s
  have hrun : CallProg.run c.env.handler (c.manager.prepare c.env c.url c.destination c.digest
      c.expectedSize c.sourceId c.subject).run s = (.ok (tracker, existing), s₁) := h
  rw [hrun] at hprepare
  exact hprepare _ rfl

/-- The beginning of a call changes no file. -/
theorem prepared_keepsFile (p : Path) : KeepsFile p s (c.prepared s).2 :=
  (Fallible.Keeps.of_makes (c.manager.prepare_makes c.env c.url c.destination c.digest
    c.expectedSize c.sourceId c.subject) fun d s hd =>
      FetchEnv.outcome_get? (by rw [hd.changes]; simp)).run s

/-- A call that cannot begin fails. -/
theorem run_of_refused {e : ServiceError} (h : c.prepared s = (.error e, s₁)) :
    c.run s = (.error e, s₁) := by
  have hrun : CallProg.run c.env.handler (c.manager.prepare c.env c.url c.destination c.digest
      c.expectedSize c.sourceId c.subject).run s = (.error e, s₁) := h
  unfold run program DownloadManager.download
  rw [Fallible.run_bind, hrun]
  rfl

/-- A call that begins goes through its attempts. -/
theorem run_of_prepared {tracker : DownloadTracker}
    (h : c.prepared s = (.ok (tracker, existing), s₁)) :
    c.run s = (c.manager.attempts c.env c.partialPath existing c.sourceId c.subject
      c.manager.retriesLeft tracker).run.run c.env.handler s₁ := by
  have hrun : CallProg.run c.env.handler (c.manager.prepare c.env c.url c.destination c.digest
      c.expectedSize c.sourceId c.subject).run s = (.ok (tracker, existing), s₁) := h
  unfold run program DownloadManager.download
  rw [Fallible.run_bind, hrun]
  rfl

theorem starts_of_prepared {tracker : DownloadTracker}
    (h : c.prepared s = (.ok (tracker, existing), s₁)) :
    c.starts s = (c.manager.attemptStarts c.env c.partialPath existing c.sourceId c.subject
      c.manager.retriesLeft tracker s₁).map fun s₂ => (existing, s₂) := by
  rw [starts, h]

/-- The attempts of a call come after its beginning. -/
theorem prepared_of_mem_starts (h : (existing, s₂) ∈ c.starts s) :
    ∃ tracker s₁, c.prepared s = (.ok (tracker, existing), s₁) ∧
      s₂ ∈ c.manager.attemptStarts c.env c.partialPath existing c.sourceId c.subject
        c.manager.retriesLeft tracker s₁ := by
  rcases hprepared : c.prepared s with ⟨e | ⟨tracker, existing'⟩, s₁⟩
  · rw [starts, hprepared] at h
    cases h
  · rw [starts_of_prepared hprepared] at h
    obtain ⟨s₂', hmem, heq⟩ := List.mem_map.mp h
    cases heq
    exact ⟨tracker, s₁, rfl, hmem⟩

/-- What the failed attempts of a call keep, from its beginning on, holds whenever one of them
begins. -/
theorem starts_keep {I : Session → Prop}
    (hprepared : ∀ tracker existing s₁, c.prepared s = (.ok (tracker, existing), s₁) → I s₁)
    (hstep : ∀ existing s₁ e s₂ s₃, (existing, s₁) ∈ c.starts s → I s₁ →
      c.attemptRun existing s₁ = (.error e, s₂) → Audited s₂ s₃ → I s₃) :
    ∀ existing s₁, (existing, s₁) ∈ c.starts s → I s₁ := by
  intro existing s₁ hmem
  obtain ⟨tracker, s₀, hbegin, hstart⟩ := prepared_of_mem_starts hmem
  refine DownloadManager.attemptStarts_keep c.manager.retriesLeft (prepared_same hbegin)
    (hprepared tracker existing s₀ hbegin) (fun s₁ hs₁ => ?_) s₁ hstart
  refine fun e s₂ s₃ => hstep existing s₁ e s₂ s₃ ?_
  rw [starts_of_prepared hbegin]
  exact List.mem_map_of_mem hs₁

/-- If an attempt delivers a file, the call ends with the look at it. -/
theorem run_of_completed {result : DownloadResult} (hmem : (existing, s₁) ∈ c.starts s)
    (hrun : c.attemptRun existing s₁ = (.ok result, s₂)) :
    ∃ t, c.tracker.Same t ∧ c.run s =
      (c.manager.acceptDownload c.env t result c.sourceId c.subject).run.run c.env.handler s₂ := by
  obtain ⟨tracker, s₀, hbegin, hstart⟩ := prepared_of_mem_starts hmem
  obtain ⟨t, ht, hloop⟩ := DownloadManager.run_attempts_of_completed c.manager.retriesLeft
    (prepared_same hbegin) hstart hrun
  exact ⟨t, ht, (run_of_prepared hbegin).trans hloop⟩

/-- If no attempt delivers a file, the call fails at its beginning or with the error of its
last attempt. -/
theorem run_of_failed
    (hfailed : ∀ existing s₁, (existing, s₁) ∈ c.starts s →
      ∃ e s₂, c.attemptRun existing s₁ = (.error e, s₂)) :
    (∃ e s₁, c.prepared s = (.error e, s₁) ∧ c.run s = (.error e, s₁)) ∨
      ∃ existing s₁ e s₂ s₃, (existing, s₁) ∈ c.starts s ∧
        c.attemptRun existing s₁ = (.error e, s₂) ∧ Audited s₂ s₃ ∧ c.run s = (.error e, s₃) := by
  rcases hprepared : c.prepared s with ⟨e | ⟨tracker, existing⟩, s₁⟩
  · exact Or.inl ⟨e, s₁, rfl, run_of_refused hprepared⟩
  · refine Or.inr ?_
    have hmem : ∀ s₂, s₂ ∈ c.manager.attemptStarts c.env c.partialPath existing c.sourceId
        c.subject c.manager.retriesLeft tracker s₁ → (existing, s₂) ∈ c.starts s := by
      intro s₂ hs₂
      rw [starts_of_prepared hprepared]
      exact List.mem_map_of_mem hs₂
    obtain ⟨s₂, hs₂, e, s₃, s₄, hrun, haudited, hloop⟩ :=
      DownloadManager.run_attempts_of_failed c.manager.retriesLeft (prepared_same hprepared)
        fun s₂ hs₂ => hfailed existing s₂ (hmem s₂ hs₂)
    exact ⟨existing, s₂, e, s₃, s₄, hmem s₂ hs₂, hrun, haudited,
      (run_of_prepared hprepared).trans hloop⟩

/-- An attempt delivers one of the three files of the download. -/
theorem attempt_path (c : DownloadCall) (existing : Option Nat) (s : Session) :
    Fallible.Ensures c.env.handler Fallible.AnyCall (c.attempt existing)
      (fun result _ => result.path ∈ c.manager.files c.destination c.digest)
      (fun _ _ => True) s := by
  have hwithin : MakesWithin (HttpRequest.IsTo c.url) (c.manager.files c.destination c.digest)
      c.destination.parent (c.attempt existing) fun r => r.path = c.destination ∨
        r.path = c.destination.withExtension "tmp" :=
    c.manager.performDownloadWithResume_within c.env c.tracker existing
  refine Fallible.ensures_mono (hwithin.ensures c.env.handler (fun _ _ _ => trivial) s)
    (fun result _ h => ?_) fun _ _ h => h
  rcases h with h | h
  · rw [h]
    exact c.manager.destination_mem_files
  · rw [h]
    exact c.manager.tmp_mem_files

/-- The look at a delivered file makes no request and writes nothing. -/
theorem accept_settles {t : DownloadTracker} {result : DownloadResult}
    (hsame : c.tracker.Same t) (hpath : result.path ∈ c.manager.files c.destination c.digest) :
    Fallible.Makes (FetchCall.Settles (c.manager.files c.destination c.digest))
      (c.manager.acceptDownload c.env t result c.sourceId c.subject) fun _ => True := by
  have hdest : t.destination = c.destination := hsame.destination
  have hdigest : t.digest = c.digest := hsame.digest
  rw [← hdest, ← hdigest] at hpath ⊢
  exact c.manager.acceptDownload_settles c.env t result c.sourceId c.subject hpath

end DownloadCall

/-! ## A sample call -/

/-- The download of `abc` from a server. -/
def abcCall (server : Nat → HttpRequest → Except HttpError HttpResponse) : DownloadCall where
  manager := .cached
  env := .serving server
  url := "https://packages.mission-os.org/abc.ko"
  destination := abcPath
  digest := ⟨"sha256", abcHash⟩
  expectedSize := some 3
  sourceId := "official"
  subject := "root"

/-- A server of the file `abc` that answers range requests, and whose connections break when
all is sent. -/
def cutServer (_ : Nat) (r : HttpRequest) : Except HttpError HttpResponse :=
  if r.range = some "bytes=1-" then
    .ok ⟨206, r.url, some "2", none, some "bytes 1-2/3",
      [.ok (utf8 "b"), .ok (utf8 "c"), .error "connection reset"]⟩
  else
    .ok ⟨200, r.url, some "3", none, none, [.ok (utf8 "abc"), .error "connection reset"]⟩

theorem abcCall_separate (server : Nat → HttpRequest → Except HttpError HttpResponse) :
    (abcCall server).Separate where
  tmp_ne := by
    show abcPath.resolve ≠ (abcPath.withExtension "tmp").resolve
    decide
  part_ne := by
    show abcPath.resolve ≠
      (DownloadManager.cached.resumeManager.partialPath ⟨"sha256", abcHash⟩).resolve
    decide

end MissionOs.Driverd
