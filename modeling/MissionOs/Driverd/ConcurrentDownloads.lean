import MissionOs.Driverd.DownloadCall
import MissionOs.Lib.Interleave

/-!
# Concurrent downloads

Two downloads over one file system.  The name of a temporary file is the destination with the
extension replaced, so two destinations with one stem share it, and then one download renames
the file that the other one writes (`same_stem_disturbs`).  Downloads whose files are apart,
and do not stand where the other one makes its directory, end as if each ran alone
(`alone_of_apart`).
-/

namespace MissionOs.Driverd

open MissionOs.Rust MissionOs.Lib

/-! ## File systems that look the same -/

/-- The places that code about the files `files` looks at, which makes the directory `dir`. -/
def Watched (files : List Path) (dir : Option Path) (l : List String) : Prop :=
  (∃ p ∈ files, l = p.resolve) ∨ ∃ d, dir = some d ∧ l <+: d.resolve

/-- The file system `fs'` looks like `fs` to code about the files `files`, which makes the
directory `dir`.  There may be more directories. -/
structure Agrees (files : List Path) (dir : Option Path) (fs fs' : FileSystem) : Prop where
  lookup : ∀ l, Watched files dir l → fs'.files.lookup l = fs.files.lookup l
  isDir : ∀ p ∈ files, fs'.isDir p = fs.isDir p
  dirs : fs.dirs ⊆ fs'.dirs

/-- A call that puts a file into a directory finds the directory. -/
def FetchCall.HasParent (fs : FileSystem) : FetchCall → Prop
  | .createFile p | .rename _ p => fs.parentIsDir p = true
  | _ => True

namespace Agrees

variable {files : List Path} {dir : Option Path} {fs fs' : FileSystem} {p q : Path} {b : Bytes}

theorem refl (files : List Path) (dir : Option Path) (fs : FileSystem) :
    Agrees files dir fs fs :=
  ⟨fun _ _ => rfl, fun _ _ => rfl, fun _ h => h⟩

variable (h : Agrees files dir fs fs')
include h

theorem get? (hp : p ∈ files) : fs'.get? p = fs.get? p :=
  h.lookup _ (Or.inl ⟨p, hp, rfl⟩)

theorem pathExists (hp : p ∈ files) : fs'.pathExists p = fs.pathExists p := by
  rw [FileSystem.pathExists, FileSystem.pathExists, h.get? hp, h.isDir p hp]

theorem blocks (hp : dir = some p) : fs'.blocks p = fs.blocks p := by
  have hsame : ∀ l ∈ p.resolve.inits,
      (fs'.files.lookup l).isSome = (fs.files.lookup l).isSome := by
    intro l hl
    rw [h.lookup l (Or.inr ⟨p, hp, (List.mem_inits l _).mp hl⟩)]
  rw [Bool.eq_iff_iff, FileSystem.blocks, FileSystem.blocks, List.any_eq_true, List.any_eq_true]
  constructor
  · intro hright
    obtain ⟨l, hl, hsome⟩ := hright
    exact ⟨l, hl, (hsame l hl) ▸ hsome⟩
  · intro hright
    obtain ⟨l, hl, hsome⟩ := hright
    exact ⟨l, hl, (hsame l hl).symm ▸ hsome⟩

theorem parentIsDir (hp : fs.parentIsDir p = true) : fs'.parentIsDir p = true := by
  have hmem : p.resolve.dropLast ∈ fs.dirs := by simpa [FileSystem.parentIsDir] using hp
  simpa [FileSystem.parentIsDir] using h.dirs hmem

theorem write : Agrees files dir (fs.write p b) (fs'.write p b) := by
  refine ⟨fun l hl => ?_, h.isDir, h.dirs⟩
  by_cases hlp : l = p.resolve
  · rw [hlp]
    exact (FileSystem.get?_write_self fs' p b).trans (FileSystem.get?_write_self fs p b).symm
  · rw [FileSystem.lookup_write_of_ne fs' b hlp, FileSystem.lookup_write_of_ne fs b hlp,
      h.lookup l hl]

theorem remove : Agrees files dir (fs.remove p) (fs'.remove p) := by
  refine ⟨fun l hl => ?_, h.isDir, h.dirs⟩
  by_cases hlp : l = p.resolve
  · rw [hlp]
    exact (FileSystem.get?_remove_self fs' p).trans (FileSystem.get?_remove_self fs p).symm
  · rw [FileSystem.lookup_remove_of_ne fs' hlp, FileSystem.lookup_remove_of_ne fs hlp,
      h.lookup l hl]

theorem makeDirs : Agrees files dir (fs.makeDirs p) (fs'.makeDirs p) := by
  refine ⟨h.lookup, fun q hq => ?_, fun l hl => ?_⟩
  · rw [FileSystem.isDir_makeDirs, FileSystem.isDir_makeDirs, h.isDir q hq]
  · rcases List.mem_append.mp hl with hnew | hold
    · exact List.mem_append.mpr (Or.inl hnew)
    · exact List.mem_append.mpr (Or.inr (h.dirs hold))

/-- An operation that fails by its number fails in both. -/
theorem faulty {α : Type} (env : FetchEnv) (n : Nat) {r r' : Except FileError α × FileSystem}
    (hr : r'.1 = r.1 ∧ Agrees files dir r.2 r'.2) :
    (env.faulty n fs' r').1 = (env.faulty n fs r).1 ∧
      Agrees files dir (env.faulty n fs r).2 (env.faulty n fs' r').2 := by
  unfold FetchEnv.faulty
  cases env.fault n with
  | some e => exact ⟨rfl, h⟩
  | none => exact hr

/-- A call about these files is answered alike, and changes the files alike. -/
theorem outcome {asks : HttpRequest → Prop} {c : FetchCall} (hc : c.Within asks files dir)
    (hparent : c.HasParent fs) (env : FetchEnv) (n : Nat) :
    (env.outcome n fs' c).1 = (env.outcome n fs c).1 ∧
      Agrees files dir (env.outcome n fs c).2 (env.outcome n fs' c).2 := by
  cases c with
  | now => exact ⟨rfl, h⟩
  | audit e => exact ⟨rfl, h⟩
  | request r => exact ⟨rfl, h⟩
  | pathExists p =>
      refine ⟨?_, h⟩
      simp only [FetchEnv.outcome, h.pathExists hc]
  | metadata p =>
      refine h.faulty env n ?_
      rw [h.get? hc, h.isDir p hc]
      split
      · exact ⟨rfl, h⟩
      · split
        · exact ⟨rfl, h⟩
        · exact ⟨rfl, h⟩
  | createDirAll p =>
      refine h.faulty env n ?_
      rw [h.blocks hc]
      split
      · exact ⟨rfl, h⟩
      · exact ⟨rfl, h.makeDirs⟩
  | createFile p =>
      refine h.faulty env n ?_
      have hthere : fs.parentIsDir p = true := hparent
      rw [h.isDir p hc, hthere, h.parentIsDir hthere]
      split
      · exact ⟨rfl, h⟩
      · exact ⟨rfl, h.write⟩
  | openAppend p =>
      refine h.faulty env n ?_
      rw [h.get? hc]
      split
      · exact ⟨rfl, h⟩
      · exact ⟨rfl, h⟩
  | openRead p =>
      refine h.faulty env n ?_
      rw [h.pathExists hc]
      split
      · exact ⟨rfl, h⟩
      · exact ⟨rfl, h⟩
  | readChunks p =>
      refine h.faulty env n ?_
      rw [h.get? hc]
      split
      · exact ⟨rfl, h⟩
      · exact ⟨rfl, h⟩
  | writeAll p data =>
      simp only [FetchEnv.outcome, h.get? hc]
      split
      · exact ⟨rfl, h.write⟩
      · exact ⟨rfl, h.write⟩
  | flush p => exact h.faulty env n ⟨rfl, h⟩
  | rename src dest =>
      refine h.faulty env n ?_
      have hthere : fs.parentIsDir dest = true := hparent
      rw [h.get? hc.1, h.isDir dest hc.2, hthere, h.parentIsDir hthere]
      split
      · exact ⟨rfl, h⟩
      · split_ifs
        · exact ⟨rfl, h⟩
        · exact ⟨rfl, h⟩
        · exact ⟨rfl, h.remove.write⟩
  | removeFile p =>
      refine h.faulty env n ?_
      rw [h.get? hc]
      split
      · exact ⟨rfl, h.remove⟩
      · exact ⟨rfl, h⟩

/-- A call about other files, which are not above these, changes nothing here. -/
theorem outcome_other {asks : HttpRequest → Prop} {files' : List Path} {dir' : Option Path}
    {c : FetchCall} (hc : c.Within asks files' dir')
    (hfiles : ∀ p ∈ files', ¬ Watched files dir p.resolve)
    (hdirs : ∀ p ∈ files, ∀ d, dir' = some d → ¬ p.resolve <+: d.resolve)
    (env : FetchEnv) (n : Nat) :
    Agrees files dir fs (env.outcome n fs' c).2 := by
  refine ⟨fun l hl => ?_, fun p hp => ?_, ?_⟩
  · rw [FetchEnv.outcome_lookup, h.lookup l hl]
    intro q hq heq
    subst heq
    exact hfiles q (hc.mem_of_mem_changes q hq) hl
  · by_cases hmakes : ∃ d, c = .createDirAll d
    · obtain ⟨d, rfl⟩ := hmakes
      rcases FetchEnv.createDirAll_cases env n fs' d with ⟨e, he⟩ | ⟨-, hok⟩
      · rw [he]
        exact h.isDir p hp
      · rw [hok, FileSystem.isDir_makeDirs, h.isDir p hp]
        simp [hdirs p hp d hc]
    · have hsame : (env.outcome n fs' c).2.dirs = fs'.dirs :=
        FetchEnv.outcome_dirs fun d hd => hmakes ⟨d, hd⟩
      rw [← h.isDir p hp, FileSystem.isDir, FileSystem.isDir, hsame]
  · exact fun l hl => FetchEnv.outcome_dirs_subset env n fs' c (h.dirs hl)

end Agrees

/-! ## Where files are put -/

/-- The calls that create no file but `tmp` and move none but to `dest`. -/
def FetchCall.Places (tmp dest : Path) : FetchCall → Prop
  | .createFile p => p = tmp
  | .rename _ p => p = dest
  | _ => True

theorem FetchCall.Streams.places {path tmp dest : Path} {c : FetchCall} (h : c.Streams path) :
    c.Places tmp dest := by
  cases c <;> trivial

theorem FetchCall.Begins.places {path tmp dest : Path} {dir : Option Path} {c : FetchCall}
    (h : c.Begins path dir) : c.Places tmp dest := by
  cases c <;> trivial

section Places

variable {tmp dest : Path} {url : String}

theorem StreamingHasher.hashFile_places (hash : HashFunctions) (algorithm : String)
    (path : Path) :
    Fallible.Makes (FetchCall.Places tmp dest) (hashFile hash algorithm path)
      fun _ => True := by
  refine Fallible.makes_mono (hashFile_reads hash algorithm path) (fun c hc => ?_) fun _ h => h
  rcases hc with rfl | rfl <;> trivial

theorem ensureParent_places (text : String) (p : Path) :
    Fallible.Makes (FetchCall.Places tmp dest) (PackageFetcher.ensureParent text p)
      fun _ => True :=
  Fallible.makes_mono (PackageFetcher.ensureParent_begins text p p) (fun _ hc => hc.places)
    fun _ h => h

theorem auditDownload_places (env : FetchEnv) (tracker : DownloadTracker)
    (sourceId subject action : String) (severity : EventSeverity) :
    Fallible.Makes (FetchCall.Places tmp dest)
      (DownloadManager.auditDownload env tracker sourceId subject action severity)
      fun _ => True :=
  Fallible.makes_seq (call_makes (c := .now) trivial) fun _ => call_makes (c := .audit _) trivial

/-- A fresh download is written to its temporary file, which is moved to the destination. -/
theorem PackageFetcher.download_places (fetcher : PackageFetcher) (hash : HashFunctions)
    (url : String) (destination : Path) (expectedSize : Option Nat) :
    Fallible.Makes (FetchCall.Places (destination.withExtension "tmp") destination)
      (fetcher.download hash url destination expectedSize none) fun _ => True := by
  unfold download
  refine Fallible.makes_seq (orFail_makes _ _) fun _ => ?_
  refine Fallible.makes_seq (ensureParent_places _ _) fun _ => ?_
  refine Fallible.makes_seq ?_ fun result => ?_
  · unfold downloadToFile
    refine Fallible.makes_seq (Fallible.makes_checked (call_makes (c := .request _) trivial))
      fun response => ?_
    refine Fallible.makes_seq (orFail_makes _ _) fun _ => ?_
    refine Fallible.makes_seq (Fallible.makes_checked (call_makes (c := .createFile _) rfl))
      fun _ => ?_
    exact Fallible.makes_mono (fetcher.body_streams _ response) (fun _ hc => hc.places)
      fun _ h => h
  · refine Fallible.makes_seq (Fallible.makes_pure trivial) fun _ => ?_
    exact Fallible.makes_seq (Fallible.makes_checked (call_makes (c := .rename _ _) rfl)) fun _ =>
      Fallible.makes_pure trivial

namespace DownloadManager

variable (manager : DownloadManager) (env : FetchEnv)

/-- An attempt puts files where a fresh download does. -/
theorem performDownloadWithResume_places (tracker : DownloadTracker) (partialPath : Path)
    (resumeOffset : Option Nat) :
    Fallible.Makes
      (FetchCall.Places (tracker.destination.withExtension "tmp") tracker.destination)
      (manager.performDownloadWithResume env tracker partialPath resumeOffset)
      fun _ => True := by
  unfold performDownloadWithResume
  split
  · unfold resumeDownload
    refine Fallible.makes_seq (Fallible.makes_checked (call_makes (c := .request _) trivial))
      fun response => ?_
    refine Fallible.makes_ite ?_ (Fallible.makes_ite ?_ (Fallible.makes_throw _))
    · refine Fallible.makes_seq (orFail_makes _ _) fun _ => ?_
      refine Fallible.makes_seq (orFail_makes _ _) fun _ => ?_
      refine Fallible.makes_seq (Fallible.makes_checked (call_makes (c := .openAppend _) trivial))
        fun _ => ?_
      refine Fallible.makes_seq (Fallible.makes_mono (streamBody_streams
        (Fallible.makes_pure trivial) _ _) (fun _ hc => hc.places) fun _ h => h) fun total => ?_
      refine Fallible.makes_seq (Fallible.makes_checked (call_makes (c := .flush _) trivial))
        fun _ => ?_
      exact Fallible.makes_seq (Fallible.makes_checked (call_makes (c := .rename _ _) rfl)) fun _ =>
        Fallible.makes_pure trivial
    · exact Fallible.makes_seq (Fallible.makes_discard
        (call_makes (c := .removeFile _) trivial)) fun _ =>
        manager.fetcher.download_places env.hash _ _ none
  · exact manager.fetcher.download_places env.hash _ _ _

/-- The look at a delivered file moves it to the destination, if at all. -/
theorem acceptDownload_places (tracker : DownloadTracker) (result : DownloadResult)
    (sourceId subject : String) :
    Fallible.Makes (FetchCall.Places tmp tracker.destination)
      (manager.acceptDownload env tracker result sourceId subject) fun _ => True := by
  have hremove : Fallible.Makes (FetchCall.Places tmp tracker.destination)
      (discard (manager.resumeManager.removePartial tracker.digest).attempt : Fetch Unit)
      fun _ => True := by
    refine Fallible.makes_discard (Fallible.makes_attempt (Q := fun _ => True) ?_)
    unfold ResumeManager.removePartial
    refine Fallible.makes_seq (call_makes (c := .pathExists _) trivial) fun found => ?_
    exact Fallible.makes_ite (Fallible.makes_checked (call_makes (c := .removeFile _) trivial))
      (Fallible.makes_pure trivial)
  unfold acceptDownload
  refine Fallible.makes_seq (call_makes (c := .pathExists _) trivial) fun found => ?_
  refine Fallible.makes_seq (StreamingHasher.hashFile_places _ _ _) fun actual => ?_
  refine Fallible.makes_ite ?_ (Fallible.makes_ite ?_ ?_)
  · refine Fallible.makes_seq (auditDownload_places env _ _ _ _ _) fun _ => ?_
    refine Fallible.makes_seq (Fallible.makes_discard (call_makes (c := .removeFile _) trivial))
      fun _ => ?_
    exact Fallible.makes_seq hremove fun _ => Fallible.makes_throw _
  · refine Fallible.makes_seq (auditDownload_places env _ _ _ _ _) fun _ => ?_
    exact Fallible.makes_seq (Fallible.makes_discard
      (call_makes (c := .removeFile _) trivial)) fun _ => Fallible.makes_throw _
  · refine Fallible.makes_seq ?_ fun _ => ?_
    · unfold moveVerified
      exact Fallible.makes_ite (Fallible.makes_checked (call_makes (c := .rename _ _) rfl))
        (Fallible.makes_pure trivial)
    · refine Fallible.makes_seq hremove fun _ => ?_
      exact Fallible.makes_seq (auditDownload_places env _ _ _ _ _) fun _ =>
        Fallible.makes_pure trivial

theorem attemptDownload_places {partialPath : Path} {existingSize : Option Nat}
    {sourceId subject : String} {again : Option (DownloadTracker → Fetch Path)}
    {tracker : DownloadTracker}
    (hagain : ∀ rest, again = some rest → ∀ t, tracker.Same t → Fallible.Makes
      (FetchCall.Places (tracker.destination.withExtension "tmp") tracker.destination)
      (rest t) fun _ => True) :
    Fallible.Makes
      (FetchCall.Places (tracker.destination.withExtension "tmp") tracker.destination)
      (manager.attemptDownload env partialPath existingSize sourceId subject again tracker)
      fun _ => True := by
  unfold attemptDownload
  refine Fallible.makes_seq (Fallible.makes_mono (Fallible.makes_attempt
    (manager.performDownloadWithResume_places env tracker partialPath existingSize))
    (fun _ h => h) fun _ _ => trivial) fun r => ?_
  cases r with
  | ok result => exact manager.acceptDownload_places env tracker result sourceId subject
  | error e =>
      dsimp only
      split
      · rename_i rest _
        exact Fallible.makes_seq (auditDownload_places env _ _ _ _ _) fun _ =>
          hagain rest rfl _ ((DownloadTracker.Same.refl tracker).after e .downloadRetry)
      · exact Fallible.makes_seq (auditDownload_places env _ _ _ _ _) fun _ =>
          Fallible.makes_throw _

/-- The attempts of a download put files where a fresh download does. -/
theorem attempts_places (partialPath : Path) (existingSize : Option Nat)
    (sourceId subject : String) (left : Nat) (tracker : DownloadTracker) :
    Fallible.Makes
      (FetchCall.Places (tracker.destination.withExtension "tmp") tracker.destination)
      (manager.attempts env partialPath existingSize sourceId subject left tracker)
      fun _ => True := by
  induction left generalizing tracker with
  | zero =>
      refine manager.attemptDownload_places env ?_
      intro rest hrest
      cases hrest
  | succ left ih =>
      refine manager.attemptDownload_places env ?_
      intro rest hrest t ht
      cases hrest
      have hrest' := ih t
      rw [ht.destination] at hrest'
      exact hrest'

end DownloadManager

end Places

/-! ## Calls that share a file system -/

/-- The files, and the calls that each of two downloads has made. -/
structure SharedSession where
  fs : FileSystem
  trace : Bool → List FetchCall

/-- The handler of the calls of one of two downloads. -/
def FetchEnv.sharedHandler (env : FetchEnv) (side : Bool) :
    Handler fetchInterface SharedSession := fun c s =>
  ((env.outcome (s.trace side).length s.fs c).1,
    ⟨(env.outcome (s.trace side).length s.fs c).2,
      Function.update s.trace side (s.trace side ++ [c])⟩)

namespace DownloadCall

variable {c c' : DownloadCall}

/-- The session of a download looks like the shared one. -/
structure Matches (c : DownloadCall) (side : Bool) (s : Session) (w : SharedSession) : Prop where
  trace : w.trace side = s.trace
  agrees : Agrees c.files c.destination.parent s.fs w.fs

/-- A call of a download is about its files, and finds the directory that it needs. -/
def Proper (c : DownloadCall) (call : FetchCall) (s : Session) : Prop :=
  call.Within (HttpRequest.IsTo c.url) c.files c.destination.parent ∧ call.HasParent s.fs

/-- The files of two downloads are apart, and none stands where the other download makes its
directory. -/
structure Apart (c c' : DownloadCall) : Prop where
  files : ∀ p ∈ c.files, ∀ q ∈ c'.files, p.resolve ≠ q.resolve
  dirs : ∀ p ∈ c.files, ∀ d, c'.destination.parent = some d → ¬ p.resolve <+: d.resolve
  dirs' : ∀ q ∈ c'.files, ∀ d, c.destination.parent = some d → ¬ q.resolve <+: d.resolve

theorem Apart.symm (h : c.Apart c') : c'.Apart c :=
  ⟨fun p hp q hq => (h.files q hq p hp).symm, h.dirs', h.dirs⟩

/-- A destination that is apart from another one stands in a directory. -/
theorem Apart.parent (h : c.Apart c') : ∃ d, c.destination.parent = some d := by
  have hroot : ∀ p : Path, p.parent = none → p.resolve = [] := by
    intro p hp
    unfold Path.parent at hp
    split_ifs at hp with hnil
    rw [Path.resolve, hnil]
    rfl
  cases hparent : c.destination.parent with
  | some d => exact ⟨d, rfl⟩
  | none =>
      have hdest := hroot _ hparent
      have hmem : c.destination ∈ c.files := c.manager.destination_mem_files
      have hmem' : c'.destination ∈ c'.files := c'.manager.destination_mem_files
      cases hparent' : c'.destination.parent with
      | some d =>
          refine absurd ?_ (h.dirs _ hmem d hparent')
          rw [hdest]
          exact List.nil_prefix
      | none => exact absurd (hdest.trans (hroot _ hparent').symm) (h.files _ hmem _ hmem')

/-- The calls of two downloads that are apart do not disturb each other. -/
theorem Apart.simulates (h : c.Apart c') (side : Bool) :
    Simulates c.env.handler (c.env.sharedHandler side) c.Proper (c.Matches side)
      (c'.Matches !side) where
  reply := by
    intro call s w hcall hs
    have hsame := hs.agrees.outcome hcall.1 hcall.2 c.env s.trace.length
    simp only [FetchEnv.sharedHandler, FetchEnv.handler, hs.trace]
    exact hsame.1
  keeps := by
    intro call s w hcall hs
    have hsame := hs.agrees.outcome hcall.1 hcall.2 c.env s.trace.length
    refine ⟨?_, ?_⟩
    · simp [FetchEnv.sharedHandler, FetchEnv.handler, hs.trace]
    · simp only [FetchEnv.sharedHandler, FetchEnv.handler, hs.trace]
      exact hsame.2
  frame := by
    intro call s s' w hcall _ hs'
    refine ⟨?_, ?_⟩
    · rw [← hs'.trace]
      simp [FetchEnv.sharedHandler]
    · refine hs'.agrees.outcome_other hcall.1 (fun p hp hwatched => ?_) h.dirs' c.env _
      rcases hwatched with ⟨q, hq, hsame⟩ | ⟨d, hd, habove⟩
      · exact h.files p hp q hq hsame
      · exact h.dirs p hp d hd habove

/-- The directory of the temporary file and the destination is there. -/
def HasDir (c : DownloadCall) (s : Session) : Prop :=
  s.fs.parentIsDir c.tmpPath = true ∧ s.fs.parentIsDir c.destination = true

/-- No call removes the directory. -/
theorem HasDir.keeps {s : Session} (h : c.HasDir s) (call : FetchCall) :
    c.HasDir (c.env.handler call s).2 := by
  have hgrows : s.fs.dirs ⊆ (c.env.handler call s).2.fs.dirs :=
    FetchEnv.outcome_dirs_subset c.env s.trace.length s.fs call
  have hthere : ∀ p : Path, s.fs.parentIsDir p = true →
      (c.env.handler call s).2.fs.parentIsDir p = true := by
    intro p hp
    have hmem : p.resolve.dropLast ∈ s.fs.dirs := by simpa [FileSystem.parentIsDir] using hp
    simpa [FileSystem.parentIsDir] using hgrows hmem
  exact ⟨hthere _ h.1, hthere _ h.2⟩

/-- A download that begins has made its directory. -/
theorem prepare_hasDir {d : Path} (hparent : c.destination.parent = some d) (s : Session) :
    Fallible.Ensures c.env.handler (fun call s => call.HasParent s.fs)
      (c.manager.prepare c.env c.url c.destination c.digest c.expectedSize c.sourceId c.subject)
      (fun _ s' => c.HasDir s') (fun _ _ => True) s := by
  have hbegins := c.manager.prepare_makes c.env c.url c.destination c.digest c.expectedSize
    c.sourceId c.subject
  refine ⟨CallProg.along_mono (hbegins.along c.env.handler s) fun call s' hcall => ?_, ?_⟩
  · cases call <;> trivial
  have hmakes : Fallible.Ensures c.env.handler Fallible.AnyCall
      (c.manager.prepare c.env c.url c.destination c.digest c.expectedSize c.sourceId c.subject)
      (fun _ s' => c.HasDir s') (fun _ _ => True) s := by
    unfold DownloadManager.prepare PackageFetcher.ensureParent
    rw [hparent]
    refine Fallible.ensures_seq (fun _ s₁ => ?_) fun _ _ => trivial
    refine Fallible.ensures_seq (fun _ s₂ => ?_) fun _ _ => trivial
    refine Fallible.ensures_bind.mpr (Fallible.ensures_bind.mpr (Fallible.ensures_perform.mpr
      ⟨trivial, Fallible.ensures_orFail.mpr ⟨fun _ hmade => ?_, fun _ _ => trivial⟩⟩))
    refine Fallible.ensures_pure.mpr ?_
    rcases FetchEnv.createDirAll_cases c.env s₂.trace.length s₂.fs d with ⟨e, he⟩ | ⟨-, hok⟩
    · simp only [FetchEnv.handler, he] at hmade
      cases hmade
    · have htmp : c.tmpPath.parent = some d :=
        (Path.parent_withExtension c.destination "tmp").trans hparent
      simp only [FetchEnv.handler, HasDir, hok]
      exact ⟨FileSystem.parentIsDir_makeDirs _ (Path.dropLast_resolve_prefix htmp),
        FileSystem.parentIsDir_makeDirs _ (Path.dropLast_resolve_prefix hparent)⟩
  exact hmakes.2

/-- A download makes its directory before it puts a file there. -/
theorem program_hasParent {d : Path} (hparent : c.destination.parent = some d) (s : Session) :
    c.program.run.Along c.env.handler (fun call s => call.HasParent s.fs) s := by
  have hprepare := prepare_hasDir hparent s
  have hsame := (c.manager.prepare_makes c.env c.url c.destination c.digest c.expectedSize
    c.sourceId c.subject).returns c.env.handler s
  have hprogram : Fallible.Ensures c.env.handler (fun call s => call.HasParent s.fs) c.program
      (fun _ _ => True) (fun _ _ => True) s := by
    unfold program DownloadManager.download
    refine Fallible.ensures_bind.mpr ⟨hprepare.1, ?_⟩
    have hend := hprepare.2
    rcases hrun : CallProg.run c.env.handler (c.manager.prepare c.env c.url c.destination
      c.digest c.expectedSize c.sourceId c.subject).run s with ⟨e | ⟨tracker, existing⟩, s₁⟩
    · trivial
    rw [hrun] at hend hsame
    have hdest : tracker.destination = c.destination := (hsame _ rfl).destination
    have hplaces := c.manager.attempts_places c.env c.partialPath existing c.sourceId c.subject
      c.manager.retriesLeft tracker
    rw [hdest] at hplaces
    refine ⟨?_, (Fallible.ensures_any _).2⟩
    have hcalls := CallProg.Makes.along hplaces c.env.handler s₁
    have hthere := (CallProg.along_invariant (J := c.HasDir)
      (CallProg.along_mono hcalls fun call s' _ h => h.keeps call) hend).1
    refine CallProg.along_mp (CallProg.along_mono hcalls fun call s' hcall hdir => ?_) hthere
    cases call with
    | createFile p =>
        have hp : p = c.tmpPath := hcall
        show s'.fs.parentIsDir p = true
        rw [hp]
        exact hdir.1
    | rename src p =>
        have hp : p = c.destination := hcall
        show s'.fs.parentIsDir p = true
        rw [hp]
        exact hdir.2
    | _ => trivial
  exact hprogram.1

theorem program_proper {d : Path} (hparent : c.destination.parent = some d) (s : Session) :
    c.program.run.Along c.env.handler c.Proper s := by
  have hwithin : c.program.run.Along c.env.handler (fun call _ =>
      call.Within (HttpRequest.IsTo c.url) c.files c.destination.parent) s :=
    (c.manager.download_within c.env c.expectedSize c.sourceId c.subject).along c.env.handler s
  refine CallProg.along_mp (CallProg.along_mono hwithin fun call s' hcall hthere => ?_)
    (program_hasParent hparent s)
  exact ⟨hcall, hthere⟩

/-- The run of two downloads over one file system, in the order of a schedule. -/
def together (c c' : DownloadCall) (turns : List Bool) (fs : FileSystem) :
    (Except ServiceError Path × Except ServiceError Path) × SharedSession :=
  CallProg.weave (c.env.sharedHandler true) (c'.env.sharedHandler false) turns c.program.run
    c'.program.run ⟨fs, fun _ => []⟩

/-- Two downloads over one file system end as each does alone: with the same results, and
with the same files at their destinations. -/
structure EndsAsAlone (c c' : DownloadCall) (turns : List Bool) (fs : FileSystem) : Prop where
  left : (c.together c' turns fs).1.1 = (c.run ⟨fs, []⟩).1
  right : (c.together c' turns fs).1.2 = (c'.run ⟨fs, []⟩).1
  leftFile : (c.together c' turns fs).2.fs.get? c.destination =
    (c.run ⟨fs, []⟩).2.fs.get? c.destination
  rightFile : (c.together c' turns fs).2.fs.get? c'.destination =
    (c'.run ⟨fs, []⟩).2.fs.get? c'.destination

/-- Downloads whose files are apart end as each does alone, in whatever order they make their
calls. -/
theorem alone_of_apart (c c' : DownloadCall) (turns : List Bool) (fs : FileSystem)
    (h : c.Apart c') : c.EndsAsAlone c' turns fs := by
  obtain ⟨d, hd⟩ := h.parent
  obtain ⟨d', hd'⟩ := h.symm.parent
  have hstart : ∀ (c : DownloadCall) (side : Bool),
      c.Matches side ⟨fs, []⟩ ⟨fs, fun _ => []⟩ :=
    fun c side => ⟨rfl, .refl _ _ _⟩
  obtain ⟨hresults, hleft, hright⟩ := CallProg.weave_eq_run (h.simulates true)
    (h.symm.simulates false) turns c.program.run c'.program.run (program_proper hd ⟨fs, []⟩)
    (program_proper hd' ⟨fs, []⟩) (hstart c true) (hstart c' false)
  exact ⟨congrArg Prod.fst hresults, congrArg Prod.snd hresults,
    hleft.agrees.get? c.manager.destination_mem_files,
    hright.agrees.get? c'.manager.destination_mem_files⟩

end DownloadCall

/-! ## Two downloads with one stem -/

/-- The SHA-256 hash of the three bytes `xyz`. -/
def xyzHash : Bytes :=
  [0x36, 0x08, 0xbc, 0xa1, 0xe4, 0x4e, 0xa6, 0xc4, 0xd2, 0x68, 0xeb, 0x6d, 0xb0, 0x22, 0x60,
    0x26, 0x98, 0x92, 0xc0, 0xb4, 0x2b, 0x86, 0xbb, 0xf1, 0xe7, 0x7a, 0x6f, 0xa1, 0x6c, 0x3c,
    0x92, 0x82]

/-- Surroundings in which the file `data` is served whole, and two hashes are known. -/
def servingFile (data : Bytes) : FetchEnv :=
  { FetchEnv.serving (fun _ r => .ok ⟨200, r.url, none, none, none, [.ok data]⟩) with
    hash :=
      { sha256 := fun m => if m = utf8 "abc" then abcHash else if m = utf8 "xyz" then xyzHash
          else [],
        blake3 := fun _ => [] } }

/-- The download of `abc`, to a file with the extension `.ko`. -/
def koCall : DownloadCall :=
  { abcCall busyServer with env := servingFile (utf8 "abc") }

/-- The download of `xyz`, to the file `name` of the same directory. -/
def xyzCall (name : String) : DownloadCall :=
  { koCall with
    env := servingFile (utf8 "xyz")
    url := "https://packages.mission-os.org/xyz"
    destination := (Path.new "/var/cache/mission/driverd/packages").join name
    digest := ⟨"sha256", xyzHash⟩ }

/-- Two downloads to files with different stems do not disturb each other. -/
theorem DownloadCall.different_stems_undisturbed :
    koCall.EndsAsAlone (xyzCall "xyz.ko") (List.replicate 9 true ++ List.replicate 20 false)
      .empty := by
  have hparent : koCall.destination.parent = (xyzCall "xyz.ko").destination.parent := by
    decide
  have habove : ∀ d, koCall.destination.parent = some d →
      ∀ p ∈ koCall.files ++ (xyzCall "xyz.ko").files, ¬ p.resolve <+: d.resolve := by
    intro d hd
    have hdir : koCall.destination.parent =
        some (Path.new "/var/cache/mission/driverd/packages") := by decide
    rw [← Option.some.inj (hdir.symm.trans hd)]
    decide
  refine alone_of_apart _ _ _ _ ⟨by decide, fun p hp d hd => ?_, fun q hq d hd => ?_⟩
  · exact habove d (hparent.trans hd) p (List.mem_append_left _ hp)
  · exact habove d hd q (List.mem_append_right _ hq)

/-- Two downloads to files with one stem share the temporary file: after the second one is
over, the first one cannot rename what it wrote. -/
theorem DownloadCall.same_stem_disturbs :
    ¬ ∀ (c c' : DownloadCall) (turns : List Bool) (fs : FileSystem),
      c.destination.resolve ≠ c'.destination.resolve → c.digest ≠ c'.digest →
        c.EndsAsAlone c' turns fs := by
  intro h
  have hends := h koCall (xyzCall "abc.xz") (List.replicate 9 true ++ List.replicate 20 false)
    .empty (by decide) (by decide)
  have halone : (koCall.run ⟨.empty, []⟩).1.isOk = true := by decide
  have htogether : (koCall.together (xyzCall "abc.xz")
      (List.replicate 9 true ++ List.replicate 20 false) .empty).1.1.isOk = false := by
    decide +kernel
  rw [hends.left, halone] at htogether
  cases htogether

end MissionOs.Driverd
