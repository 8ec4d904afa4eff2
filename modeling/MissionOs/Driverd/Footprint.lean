import MissionOs.Driverd.Attempts

/-!
# What a download touches

Every call of a download is about its own three files, the temporary file, the partial file
and the destination, about the directory of the destination, or about the address of the
package (`download_within`).  Which bytes it leaves alone follows from that.
-/

namespace MissionOs.Driverd

open MissionOs.Rust MissionOs.Lib

/-- A request to an address. -/
def HttpRequest.IsTo (url : String) (r : HttpRequest) : Prop := r.url = url

/-- The calls about the files `files` and the directory `dir`, and the requests that satisfy
`asks`. -/
def FetchCall.Within (asks : HttpRequest → Prop) (files : List Path) (dir : Option Path) :
    FetchCall → Prop
  | .now | .audit _ => True
  | .request r => asks r
  | .createDirAll p => dir = some p
  | .rename src dest => src ∈ files ∧ dest ∈ files
  | .pathExists p | .metadata p | .createFile p | .openAppend p | .openRead p
  | .readChunks p | .writeAll p _ | .flush p | .removeFile p => p ∈ files

/-- A call changes only files that it is about. -/
theorem FetchCall.Within.mem_of_mem_changes {asks : HttpRequest → Prop} {files : List Path}
    {dir : Option Path} {c : FetchCall} (h : c.Within asks files dir) :
    ∀ p ∈ c.changes, p ∈ files := by
  cases c <;> simp_all [changes, Within]

/-- Every call of `p` is about `files` and `dir`, or `asks`, and every value that it returns
satisfies `Q`. -/
abbrev MakesWithin (asks : HttpRequest → Prop) (files : List Path) (dir : Option Path) {α : Type}
    (p : Fetch α) (Q : α → Prop) : Prop :=
  Fallible.Makes (FetchCall.Within asks files dir) p Q

/-- The files of a download. -/
def DownloadManager.files (manager : DownloadManager) (destination : Path)
    (digest : PackageDigest) : List Path :=
  [destination.withExtension "tmp", destination, manager.resumeManager.partialPath digest]

/-- The calls that look at the files `files`, move them and remove them. -/
def FetchCall.Settles (files : List Path) : FetchCall → Prop
  | .now | .audit _ => True
  | .pathExists p | .openRead p | .readChunks p | .removeFile p => p ∈ files
  | .rename src dest => src ∈ files ∧ dest ∈ files
  | _ => False

theorem FetchCall.Settles.within {asks : HttpRequest → Prop} {files : List Path} {dir : Option Path}
    {c : FetchCall} (h : c.Settles files) : c.Within asks files dir := by
  cases c with
  | now => trivial
  | audit e => trivial
  | pathExists p => exact h
  | openRead p => exact h
  | readChunks p => exact h
  | removeFile p => exact h
  | rename src dest => exact h
  | request r => exact h.elim
  | metadata p => exact h.elim
  | createDirAll p => exact h.elim
  | createFile p => exact h.elim
  | openAppend p => exact h.elim
  | writeAll p data => exact h.elim
  | flush p => exact h.elim

/-- The calls that write a body to the open file `path`, or give it up. -/
def FetchCall.Streams (path : Path) : FetchCall → Prop
  | .writeAll p _ | .flush p | .removeFile p => p = path
  | _ => False

theorem FetchCall.Streams.within {asks : HttpRequest → Prop} {files : List Path} {dir : Option Path}
    {path : Path} {c : FetchCall} (h : c.Streams path) (hpath : path ∈ files) :
    c.Within asks files dir := by
  cases c with
  | writeAll p data =>
      have hp : p = path := h
      show p ∈ files
      rwa [hp]
  | flush p =>
      have hp : p = path := h
      show p ∈ files
      rwa [hp]
  | removeFile p =>
      have hp : p = path := h
      show p ∈ files
      rwa [hp]
  | now => exact h.elim
  | audit e => exact h.elim
  | request r => exact h.elim
  | pathExists p => exact h.elim
  | metadata p => exact h.elim
  | createDirAll p => exact h.elim
  | createFile p => exact h.elim
  | openAppend p => exact h.elim
  | openRead p => exact h.elim
  | readChunks p => exact h.elim
  | rename src dest => exact h.elim

/-- The calls of the beginning of a download. -/
def FetchCall.Begins (partialPath : Path) (dir : Option Path) : FetchCall → Prop
  | .now | .audit _ => True
  | .pathExists p | .metadata p => p = partialPath
  | .createDirAll p => dir = some p
  | _ => False

theorem FetchCall.Begins.changes {partialPath : Path} {dir : Option Path} {c : FetchCall}
    (h : c.Begins partialPath dir) : c.changes = [] := by
  cases c <;> first | rfl | exact h.elim

theorem FetchCall.Begins.within {asks : HttpRequest → Prop} {files : List Path} {partialPath : Path}
    {dir : Option Path} {c : FetchCall} (h : c.Begins partialPath dir)
    (hpart : partialPath ∈ files) : c.Within asks files dir := by
  cases c with
  | now => trivial
  | audit e => trivial
  | pathExists p =>
      have hp : p = partialPath := h
      show p ∈ files
      rwa [hp]
  | metadata p =>
      have hp : p = partialPath := h
      show p ∈ files
      rwa [hp]
  | createDirAll p => exact h
  | request r => exact h.elim
  | createFile p => exact h.elim
  | openAppend p => exact h.elim
  | openRead p => exact h.elim
  | readChunks p => exact h.elim
  | writeAll p data => exact h.elim
  | flush p => exact h.elim
  | rename src dest => exact h.elim
  | removeFile p => exact h.elim

/-! ## The programs -/

section Programs

variable {asks : HttpRequest → Prop} {files : List Path} {dir : Option Path}
  {C : FetchCall → Prop} {url : String}

/-- A call of which the answer is not looked at, or is looked at for an error only. -/
theorem call_makes {c : FetchCall} (h : C c) : Fallible.Makes C (call c) fun _ => True :=
  Fallible.makes_perform h fun _ => trivial

theorem orFail_makes {α δ : Type} (f : δ → ServiceError) (r : Except δ α) :
    Fallible.Makes C (Fallible.orFail f r : Fetch α) fun _ => True :=
  Fallible.makes_orFail fun _ _ => trivial

theorem StreamingHasher.hashFile_reads (hash : HashFunctions) (algorithm : String)
    (path : Path) :
    Fallible.Makes (fun c : FetchCall => c = .openRead path ∨ c = .readChunks path)
      (hashFile hash algorithm path) fun _ => True := by
  unfold hashFile
  refine Fallible.makes_seq (orFail_makes _ _) fun _ => ?_
  refine Fallible.makes_seq (Fallible.makes_checked (call_makes (Or.inl rfl))) fun _ => ?_
  refine Fallible.makes_seq (Fallible.makes_checked (call_makes (Or.inr rfl))) fun _ => ?_
  exact Fallible.makes_pure trivial

theorem StreamingHasher.hashFile_settles (hash : HashFunctions) (algorithm : String)
    {path : Path} (h : path ∈ files) :
    Fallible.Makes (FetchCall.Settles files) (hashFile hash algorithm path)
      fun _ => True := by
  refine Fallible.makes_mono (hashFile_reads hash algorithm path) (fun c hc => ?_) fun _ h => h
  rcases hc with rfl | rfl
  · exact h
  · exact h

/-- The body of a response is written by calls about one file. -/
theorem streamBody_streams {limit : Nat} {atLimit : Fetch Unit} {path : Path}
    (hlimit : Fallible.Makes (FetchCall.Streams path) atLimit fun _ => True)
    (body : List (Except FileError Bytes)) (total : Nat) :
    Fallible.Makes (FetchCall.Streams path) (streamBody limit atLimit path body total)
      fun _ => True := by
  induction body generalizing total with
  | nil => exact Fallible.makes_pure trivial
  | cons r body ih =>
      match r with
      | .error e => exact Fallible.makes_throw _
      | .ok [] => exact Fallible.makes_pure trivial
      | .ok (b :: bs) =>
          unfold streamBody
          refine Fallible.makes_ite ?_ ?_
          · exact Fallible.makes_seq hlimit fun _ => Fallible.makes_throw _
          · exact Fallible.makes_seq (Fallible.makes_checked
              (call_makes (c := .writeAll _ _) rfl)) fun _ => ih _

/-- What is done when a fresh download is too long. -/
theorem discardRemove_streams (path : Path) :
    Fallible.Makes (FetchCall.Streams path) (discard (call (.removeFile path)) : Fetch Unit)
      fun _ => True :=
  Fallible.makes_discard (call_makes (c := .removeFile path) rfl)

theorem streamBody_within {limit : Nat} {atLimit : Fetch Unit} {path : Path}
    (h : path ∈ files)
    (hlimit : Fallible.Makes (FetchCall.Streams path) atLimit fun _ => True)
    (body : List (Except FileError Bytes)) (total : Nat) :
    MakesWithin asks files dir (streamBody limit atLimit path body total) fun _ => True :=
  Fallible.makes_mono (streamBody_streams hlimit body total) (fun _ hc => hc.within h)
    fun _ h => h

namespace PackageFetcher

theorem ensureParent_begins (text : String) (partialPath p : Path) :
    Fallible.Makes (FetchCall.Begins partialPath p.parent) (ensureParent text p)
      fun _ => True := by
  unfold ensureParent
  cases hparent : p.parent with
  | none => exact Fallible.makes_pure trivial
  | some dir =>
      exact Fallible.makes_checked (call_makes (c := .createDirAll dir) rfl)

theorem ensureParent_within (text : String) {p : Path} (h : p.parent = dir) :
    MakesWithin asks files dir (ensureParent text p) fun _ => True := by
  unfold ensureParent
  cases hp : p.parent with
  | none => exact Fallible.makes_pure trivial
  | some parent =>
      exact Fallible.makes_checked (call_makes (h.symm.trans hp))

/-- Once the temporary file is open, only the body of the response is written. -/
theorem body_streams (fetcher : PackageFetcher) (tmpPath : Path) (response : HttpResponse) :
    Fallible.Makes (FetchCall.Streams tmpPath) (do
      let total ← streamBody fetcher.config.maxResponseSize
        (discard (call (.removeFile tmpPath))) tmpPath response.body 0
      call (.flush tmpPath) >>= Fallible.orFail fun e => .internal ("file flush error: " ++ e)
      return (⟨tmpPath, total, response.contentType⟩ : DownloadResult)) fun _ => True := by
  refine Fallible.makes_seq (streamBody_streams (discardRemove_streams tmpPath) _ _) fun _ => ?_
  exact Fallible.makes_seq (Fallible.makes_checked (call_makes (c := .flush tmpPath) rfl)) fun _ =>
    Fallible.makes_pure trivial

theorem downloadToFile_within (fetcher : PackageFetcher) {tmpPath : Path}
    (expectedSize : Option Nat) (hasks : ∀ redirects, asks ⟨url, none, redirects⟩)
    (h : tmpPath ∈ files) :
    MakesWithin asks files dir (fetcher.downloadToFile url tmpPath expectedSize)
      fun r => r.path = tmpPath := by
  unfold downloadToFile
  refine Fallible.makes_seq (Fallible.makes_checked (call_makes (c := .request _) (hasks _)))
    fun response => ?_
  refine Fallible.makes_seq (orFail_makes _ _) fun _ => ?_
  refine Fallible.makes_seq (Fallible.makes_checked (call_makes h)) fun _ => ?_
  refine Fallible.makes_seq (streamBody_within h
    (discardRemove_streams tmpPath) _ _) fun total => ?_
  refine Fallible.makes_seq (Fallible.makes_checked (call_makes h)) fun _ => ?_
  exact Fallible.makes_pure rfl

theorem verifyExpected_within (hash : HashFunctions) {path : Path}
    (expected : Option PackageDigest) (h : path ∈ files) :
    MakesWithin asks files dir (verifyExpected hash path expected)
      fun _ => True := by
  cases expected with
  | none => exact Fallible.makes_pure trivial
  | some digest =>
      refine Fallible.makes_seq (Fallible.makes_mono
        (StreamingHasher.hashFile_settles hash _ h) (fun _ h => h.within) fun _ h => h)
        fun actual => ?_
      exact Fallible.makes_ite (Fallible.makes_throw _) (Fallible.makes_pure trivial)

theorem download_within (fetcher : PackageFetcher) (hash : HashFunctions) {destination : Path}
    (expectedSize : Option Nat) (expectedDigest : Option PackageDigest)
    (hasks : ∀ redirects, asks ⟨url, none, redirects⟩)
    (htmp : destination.withExtension "tmp" ∈ files) (hdest : destination ∈ files)
    (hdir : destination.parent = dir) :
    MakesWithin asks files dir
      (fetcher.download hash url destination expectedSize expectedDigest)
      fun r => r.path = destination.withExtension "tmp" := by
  unfold download
  refine Fallible.makes_seq (orFail_makes _ _) fun _ => ?_
  refine Fallible.makes_seq (ensureParent_within _ hdir) fun _ => ?_
  refine Fallible.makes_bind (fetcher.downloadToFile_within expectedSize hasks htmp)
    fun result hresult => ?_
  refine Fallible.makes_seq (verifyExpected_within hash _ htmp) fun _ => ?_
  refine Fallible.makes_seq (Fallible.makes_checked (call_makes (c := .rename _ _) ⟨htmp, hdest⟩))
    fun _ => ?_
  exact Fallible.makes_pure hresult

end PackageFetcher

theorem ResumeManager.removePartial_settles (manager : ResumeManager) (digest : PackageDigest)
    (h : manager.partialPath digest ∈ files) :
    Fallible.Makes (FetchCall.Settles files) (manager.removePartial digest) fun _ => True := by
  unfold removePartial
  refine Fallible.makes_seq (call_makes (c := .pathExists _) h) fun found => ?_
  refine Fallible.makes_ite ?_ (Fallible.makes_pure trivial)
  exact Fallible.makes_checked (call_makes (c := .removeFile _) h)

namespace DownloadManager

variable (manager : DownloadManager) (env : FetchEnv)

theorem auditDownload_settles (tracker : DownloadTracker) (sourceId subject action : String)
    (severity : EventSeverity) :
    Fallible.Makes (FetchCall.Settles files)
      (auditDownload env tracker sourceId subject action severity) fun _ => True :=
  Fallible.makes_seq (call_makes (c := .now) trivial) fun _ => call_makes (c := .audit _) trivial

theorem auditDownload_within (tracker : DownloadTracker) (sourceId subject action : String)
    (severity : EventSeverity) :
    MakesWithin asks files dir
      (auditDownload env tracker sourceId subject action severity) fun _ => True :=
  Fallible.makes_mono (auditDownload_settles env tracker sourceId subject action severity)
    (fun _ h => h.within) fun _ h => h

variable {destination : Path} {digest : PackageDigest}

theorem tmp_mem_files :
    destination.withExtension "tmp" ∈ manager.files destination digest := by
  simp [files]

theorem destination_mem_files : destination ∈ manager.files destination digest := by
  simp [files]

theorem partial_mem_files :
    manager.resumeManager.partialPath digest ∈ manager.files destination digest := by
  simp [files]

theorem resumeDownload_within (offset : Nat) :
    MakesWithin (HttpRequest.IsTo url) (manager.files destination digest) destination.parent
      (manager.resumeDownload env url (manager.resumeManager.partialPath digest) offset
        destination)
      fun r => r.path = destination ∨ r.path = destination.withExtension "tmp" := by
  have hpart : manager.resumeManager.partialPath digest ∈ manager.files destination digest :=
    manager.partial_mem_files
  unfold resumeDownload
  refine Fallible.makes_seq (Fallible.makes_checked (call_makes (c := .request _) rfl))
    fun response => ?_
  refine Fallible.makes_ite ?_ (Fallible.makes_ite ?_ (Fallible.makes_throw _))
  · refine Fallible.makes_seq (orFail_makes _ _) fun _ => ?_
    refine Fallible.makes_seq (orFail_makes _ _) fun _ => ?_
    refine Fallible.makes_seq (Fallible.makes_checked (call_makes hpart)) fun _ => ?_
    refine Fallible.makes_seq (streamBody_within hpart (Fallible.makes_pure trivial) _ _)
      fun total => ?_
    refine Fallible.makes_seq (Fallible.makes_checked (call_makes hpart)) fun _ => ?_
    refine Fallible.makes_seq (Fallible.makes_checked (call_makes (c := .rename _ _)
      ⟨hpart, manager.destination_mem_files⟩)) fun _ => ?_
    exact Fallible.makes_pure (Or.inl rfl)
  · refine Fallible.makes_seq (Fallible.makes_discard (call_makes hpart)) fun _ => ?_
    exact Fallible.makes_mono (manager.fetcher.download_within env.hash none none
      (fun _ => rfl)
      manager.tmp_mem_files manager.destination_mem_files rfl) (fun _ h => h)
      fun _ h => Or.inr h

theorem performDownloadWithResume_within (tracker : DownloadTracker)
    (resumeOffset : Option Nat) :
    MakesWithin (HttpRequest.IsTo tracker.url) (manager.files tracker.destination digest)
      tracker.destination.parent
      (manager.performDownloadWithResume env tracker
        (manager.resumeManager.partialPath digest) resumeOffset)
      fun r => r.path = tracker.destination ∨
        r.path = tracker.destination.withExtension "tmp" := by
  unfold performDownloadWithResume
  split
  · exact manager.resumeDownload_within env _
  · exact Fallible.makes_mono (manager.fetcher.download_within env.hash _ none
      (fun _ => rfl)
      manager.tmp_mem_files manager.destination_mem_files rfl) (fun _ h => h)
      fun _ h => Or.inr h

theorem moveVerified_settles {verifiedPath : Path} (hpath : verifiedPath ∈ files)
    (hdest : destination ∈ files) :
    Fallible.Makes (FetchCall.Settles files) (moveVerified verifiedPath destination)
      fun _ => True := by
  unfold moveVerified
  refine Fallible.makes_ite ?_ (Fallible.makes_pure trivial)
  exact Fallible.makes_checked (call_makes (c := .rename _ _) ⟨hpath, hdest⟩)

/-- The look at a delivered file makes no request and writes nothing. -/
theorem acceptDownload_settles (tracker : DownloadTracker) (result : DownloadResult)
    (sourceId subject : String)
    (hpath : result.path ∈ manager.files tracker.destination tracker.digest) :
    Fallible.Makes (FetchCall.Settles (manager.files tracker.destination tracker.digest))
      (manager.acceptDownload env tracker result sourceId subject) fun _ => True := by
  unfold acceptDownload
  refine Fallible.makes_seq (call_makes (c := .pathExists _) hpath) fun found => ?_
  have hverified : (if found then result.path else tracker.destination) ∈
      manager.files tracker.destination tracker.digest := by
    split
    · exact hpath
    · exact manager.destination_mem_files
  generalize (if found then result.path else tracker.destination) = verified at hverified ⊢
  refine Fallible.makes_seq (StreamingHasher.hashFile_settles env.hash _ hverified)
    fun actual => ?_
  refine Fallible.makes_ite ?_ (Fallible.makes_ite ?_ ?_)
  · refine Fallible.makes_seq (auditDownload_settles env _ _ _ _ _) fun _ => ?_
    refine Fallible.makes_seq (Fallible.makes_discard (call_makes (c := .removeFile _) hverified))
      fun _ => ?_
    refine Fallible.makes_seq (Fallible.makes_discard (Fallible.makes_attempt
      (ResumeManager.removePartial_settles _ _ manager.partial_mem_files))) fun _ => ?_
    exact Fallible.makes_throw _
  · refine Fallible.makes_seq (auditDownload_settles env _ _ _ _ _) fun _ => ?_
    refine Fallible.makes_seq (Fallible.makes_discard (call_makes (c := .removeFile _) hverified))
      fun _ => ?_
    exact Fallible.makes_throw _
  · refine Fallible.makes_seq (moveVerified_settles hverified
      manager.destination_mem_files) fun _ => ?_
    refine Fallible.makes_seq (Fallible.makes_discard (Fallible.makes_attempt
      (ResumeManager.removePartial_settles _ _ manager.partial_mem_files))) fun _ => ?_
    refine Fallible.makes_seq (auditDownload_settles env _ _ _ _ _) fun _ => ?_
    exact Fallible.makes_pure trivial

theorem findPartial_makes (tracker : DownloadTracker) :
    Fallible.Makes (FetchCall.Begins (manager.resumeManager.partialPath digest) dir)
      (findPartial tracker (manager.resumeManager.partialPath digest))
      fun found => tracker.Same found.1 := by
  unfold findPartial
  refine Fallible.makes_seq (call_makes (c := .pathExists _) rfl) fun found => ?_
  refine Fallible.makes_ite ?_ (Fallible.makes_pure (.refl tracker))
  refine Fallible.makes_seq (call_makes (c := .metadata _) rfl) fun size => ?_
  cases size with
  | ok n => exact Fallible.makes_pure ⟨rfl, rfl, rfl, rfl⟩
  | error e => exact Fallible.makes_pure (.refl tracker)

/-- The beginning of a download changes no file. -/
theorem prepare_makes (url : String) (destination : Path) (digest : PackageDigest)
    (expectedSize : Option Nat) (sourceId subject : String) :
    Fallible.Makes (FetchCall.Begins (manager.resumeManager.partialPath digest)
        destination.parent)
      (manager.prepare env url destination digest expectedSize sourceId subject)
      fun found => (DownloadTracker.new digest url destination expectedSize).Same found.1 := by
  unfold prepare
  refine Fallible.makes_seq ?_ fun _ => ?_
  · unfold auditDownload
    exact Fallible.makes_seq (call_makes (c := .now) trivial) fun _ =>
      call_makes (c := .audit _) trivial
  refine Fallible.makes_bind (manager.findPartial_makes _) fun found hfound => ?_
  exact Fallible.makes_seq (PackageFetcher.ensureParent_begins _ _ _) fun _ =>
    Fallible.makes_pure hfound

theorem prepare_within (url : String) (destination : Path) (digest : PackageDigest)
    (expectedSize : Option Nat) (sourceId subject : String) :
    MakesWithin (HttpRequest.IsTo url) (manager.files destination digest) destination.parent
      (manager.prepare env url destination digest expectedSize sourceId subject)
      fun found => (DownloadTracker.new digest url destination expectedSize).Same found.1 := by
  refine Fallible.makes_mono
    (manager.prepare_makes env url destination digest expectedSize sourceId subject)
    (fun c hc => hc.within ?_) fun _ h => h
  exact manager.partial_mem_files

theorem attemptDownload_within {existingSize : Option Nat} {sourceId subject : String}
    {again : Option (DownloadTracker → Fetch Path)} {tracker : DownloadTracker}
    (hagain : ∀ rest, again = some rest → ∀ t, tracker.Same t →
      MakesWithin (HttpRequest.IsTo tracker.url) (manager.files tracker.destination tracker.digest)
        tracker.destination.parent (rest t) fun _ => True) :
    MakesWithin (HttpRequest.IsTo tracker.url) (manager.files tracker.destination tracker.digest)
      tracker.destination.parent
      (manager.attemptDownload env (manager.resumeManager.partialPath tracker.digest)
        existingSize sourceId subject again tracker) fun _ => True := by
  unfold attemptDownload
  refine Fallible.makes_bind (Fallible.makes_attempt
    (manager.performDownloadWithResume_within env tracker existingSize)) fun r hr => ?_
  cases r with
  | ok result =>
      refine Fallible.makes_mono (manager.acceptDownload_settles env tracker result sourceId
        subject ?_) (fun _ h => h.within) fun _ h => h
      rcases hr result rfl with h | h
      · rw [h]
        exact manager.destination_mem_files
      · rw [h]
        exact manager.tmp_mem_files
  | error e =>
      dsimp only
      split
      · rename_i rest _
        exact Fallible.makes_seq (auditDownload_within env _ _ _ _ _) fun _ =>
          hagain rest rfl _ ((DownloadTracker.Same.refl tracker).after e .downloadRetry)
      · exact Fallible.makes_seq (auditDownload_within env _ _ _ _ _) fun _ =>
          Fallible.makes_throw _

theorem attempts_within (existingSize : Option Nat) (sourceId subject : String) (left : Nat)
    (tracker : DownloadTracker) :
    MakesWithin (HttpRequest.IsTo tracker.url) (manager.files tracker.destination tracker.digest)
      tracker.destination.parent
      (manager.attempts env (manager.resumeManager.partialPath tracker.digest) existingSize
        sourceId subject left tracker) fun _ => True := by
  induction left generalizing tracker with
  | zero =>
      refine manager.attemptDownload_within env ?_
      intro rest hrest
      cases hrest
  | succ left ih =>
      refine manager.attemptDownload_within env ?_
      intro rest hrest t ht
      cases hrest
      have hrest' := ih t
      rw [ht.url, ht.destination, ht.digest] at hrest'
      exact hrest'

/-- Every call of a download is about its own files, its own address, or the directory of
its destination. -/
theorem download_within (expectedSize : Option Nat) (sourceId subject : String) :
    MakesWithin (HttpRequest.IsTo url) (manager.files destination digest) destination.parent
      (manager.download env url destination digest expectedSize sourceId subject)
      fun _ => True := by
  unfold download
  refine Fallible.makes_bind
    (manager.prepare_within env url destination digest expectedSize sourceId subject) ?_
  intro hpost hsame
  obtain ⟨tracker, existingSize⟩ := hpost
  have hattempts := manager.attempts_within env existingSize sourceId subject
    manager.retriesLeft tracker
  rw [hsame.url, hsame.destination, hsame.digest] at hattempts
  exact hattempts

end DownloadManager

end Programs

/-! ## Frames -/

/-- The bytes at `p` are the same before and after. -/
def KeepsFile (p : Path) (s s' : Session) : Prop := s'.fs.get? p = s.fs.get? p

instance (p : Path) : Std.Refl (KeepsFile p) := ⟨fun _ => rfl⟩

instance (p : Path) : IsTrans Session (KeepsFile p) := ⟨fun _ _ _ h h' => h'.trans h⟩

theorem KeepsFile.trans' {p : Path} {s s' s'' : Session} (h : KeepsFile p s s')
    (h' : KeepsFile p s' s'') : KeepsFile p s s'' := Eq.trans h' h

theorem KeepsFile.audited {p : Path} {s s' : Session} (h : Audited s s') : KeepsFile p s s' := by
  rw [KeepsFile, h.1]

/-- A program keeps the files that it is not about. -/
theorem KeepsFile.of_within {env : FetchEnv} {α : Type} {prog : Fetch α} {Q : α → Prop}
    {asks : HttpRequest → Prop} {files : List Path} {dir : Option Path} {p : Path}
    (h : MakesWithin asks files dir prog Q) (hp : ∀ q ∈ files, p.resolve ≠ q.resolve) :
    Fallible.Keeps env.handler (KeepsFile p) prog :=
  Fallible.Keeps.of_makes h fun _ _ hc =>
    FetchEnv.outcome_get? fun q hq => hp q (hc.mem_of_mem_changes q hq)

/-- The directories are the same before and after. -/
def KeepsDirs (s s' : Session) : Prop := s'.fs.dirs = s.fs.dirs

instance : Std.Refl KeepsDirs := ⟨fun _ => rfl⟩

instance : IsTrans Session KeepsDirs := ⟨fun _ _ _ h h' => h'.trans h⟩

/-- A program that makes no directory keeps the directories. -/
theorem KeepsDirs.of_within {env : FetchEnv} {α : Type} {prog : Fetch α} {Q : α → Prop}
    {asks : HttpRequest → Prop} {files : List Path} (h : MakesWithin asks files none prog Q) :
    Fallible.Keeps env.handler KeepsDirs prog := by
  refine Fallible.Keeps.of_makes h fun c s hc => FetchEnv.outcome_dirs ?_
  intro p hp
  rw [hp] at hc
  cases hc

end MissionOs.Driverd
