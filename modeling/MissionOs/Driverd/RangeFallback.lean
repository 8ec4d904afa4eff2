import MissionOs.Driverd.ResumedDownload

/-!
# Falling back from a resumed download

An honest server that cannot satisfy a range, or answers it in a way that cannot be validated.
`resume_download` begins anew in one case only, when the range is ignored and the whole file
is sent; every other case is a failed attempt that leaves the partial file.  So a call falls
back exactly if the range of one of its attempts is ignored (`falls_back_iff`), and while none
is, every later call fails in the same way (`fails_of_waiting`).
-/

namespace MissionOs.Driverd

open MissionOs.Rust MissionOs.Lib

/-! ## Honest servers -/

/-- The reads of `body` return the bytes `data`, all of them. -/
def CarriesAll (data : Bytes) (body : List (Except FileError Bytes)) : Prop :=
  ∃ chunks : List Bytes, (∀ chunk ∈ chunks, chunk ≠ []) ∧ body = chunks.map .ok ∧
    chunks.flatten = data

theorem CarriesAll.carries {data : Bytes} {body : List (Except FileError Bytes)}
    (h : CarriesAll data body) : Carries data body := by
  obtain ⟨chunks, hne, hbody, hdata⟩ := h
  exact ⟨chunks, hne, Or.inl ⟨hbody, hdata⟩⟩

/-- A response with the whole file. -/
structure WholeFile (remote : Bytes) (response : HttpResponse) : Prop where
  status : response.status = 200
  url : isAcceptedScheme response.url.toList = true
  length : ∀ text len, response.contentLength = some text →
    parseUnsigned (2 ^ 64) text.toList = .ok len → len = remote.length
  body : CarriesAll remote response.body

/-- The answers to a request for the bytes from `offset` on, of a server that cannot satisfy
it or does not say which bytes it sends. -/
inductive RangeUnusable (remote : Bytes) (offset : Nat) : Except HttpError HttpResponse → Prop
  | unsatisfiable (h : remote.length ≤ offset) :
      RangeUnusable remote offset (.error (.status 416))
  | unvalidated (response : HttpResponse) (hstatus : response.status = 206)
      (hrange : ∀ range, response.contentRange = some range →
        ∃ e, validateContentRange range offset = .error e) :
      RangeUnusable remote offset (.ok response)
  | ignored (response : HttpResponse) (h : WholeFile remote response) :
      RangeUnusable remote offset (.ok response)

/-- Whoever asks for no range is sent the whole file `remote`. -/
def ServesWhole (env : FetchEnv) (url : String) (remote : Bytes) : Prop :=
  ∀ n r, r.url = url → r.range = none →
    ∃ response, env.server n r = .ok response ∧ WholeFile remote response

/-! ## Whole files -/

/-- A body that carries everything is written, if it fits. -/
theorem streamBody_carriesAll {env : FetchEnv} (hfault : ∀ n, env.fault n = none) {limit : Nat}
    {atLimit : Fetch Unit} {path : Path} (body : List (Except FileError Bytes)) (total : Nat)
    {rest : Bytes} {s : Session} (hcarries : CarriesAll rest body)
    (hfits : total + rest.length ≤ limit) :
    Fallible.Ensures env.handler Fallible.AnyCall (streamBody limit atLimit path body total)
      (fun _ _ => True) (fun _ _ => False) s := by
  obtain ⟨chunks, hne, rfl, rfl⟩ := hcarries
  induction chunks generalizing total s with
  | nil => exact Fallible.ensures_pure.mpr trivial
  | cons chunk chunks ih =>
      match chunk, hne chunk List.mem_cons_self with
      | b :: bs, _ =>
        rw [List.flatten_cons, List.length_append] at hfits
        unfold streamBody
        refine Fallible.ensures_ite.mpr ⟨fun hlong => absurd hlong (by omega), fun _ => ?_⟩
        refine Fallible.ensures_bind.mpr (Fallible.ensures_bind.mpr
          (Fallible.ensures_perform.mpr ⟨trivial, ?_⟩))
        have hwritten : (env.handler (.writeAll path (b :: bs)) s).1 = .ok () := by
          simp only [FetchEnv.handler, FetchEnv.outcome, hfault]
        rw [hwritten]
        exact Fallible.ensures_pure.mpr (ih (total + (b :: bs).length)
          (fun chunk hchunk => hne chunk (List.mem_cons_of_mem _ hchunk)) (by omega))

/-- The response with the whole file passes the checks on its headers. -/
theorem PackageFetcher.checkResponse_of_whole {fetcher : PackageFetcher}
    {response : HttpResponse} {remote : Bytes} {expectedSize : Option Nat}
    (h : WholeFile remote response) (hlimit : remote.length ≤ fetcher.config.maxResponseSize)
    (hsize : ∀ n, expectedSize = some n → n = remote.length) :
    fetcher.checkResponse response expectedSize = .ok () := by
  unfold checkResponse
  simp only [h.url]
  cases hlength : response.contentLength.bind fun s =>
      (parseUnsigned (2 ^ 64) s.toList).toOption with
  | none => rfl
  | some len =>
      obtain ⟨text, htext, hparse⟩ := Option.bind_eq_some_iff.mp hlength
      have hlen : len = remote.length := by
        refine h.length text len htext ?_
        cases hresult : parseUnsigned (2 ^ 64) text.toList with
        | error e =>
            rw [hresult] at hparse
            cases hparse
        | ok n =>
            rw [hresult] at hparse
            cases hparse
            rfl
      subst hlen
      cases expectedSize with
      | none => simp [Nat.not_lt.mpr hlimit]; rfl
      | some n => simp [hsize n rfl, Nat.not_lt.mpr hlimit]; rfl

namespace DownloadCall

variable {c : DownloadCall} {s s₁ s₂ : Session} {remote data : Bytes} {existing : Option Nat}

/-- The temporary file and the destination can be made where they are wanted. -/
structure Placed (c : DownloadCall) (fs : FileSystem) : Prop where
  parent : ∀ dir, c.destination.parent = some dir → fs.blocks dir = false
  dest : fs.isDir c.destination = false
  tmp : fs.isDir c.tmpPath = false

/-- The temporary file and the destination stand in one directory. -/
theorem Separate.parent (h : c.Separate) : ∃ dir name name', c.destination.parent = some dir ∧
    c.destination.resolve = dir.resolve ++ [name] ∧ c.tmpPath.resolve = dir.resolve ++ [name'] := by
  cases hname : c.destination.fileName with
  | none =>
      have hsame : c.tmpPath = c.destination := by
        rw [tmpPath, Path.withExtension, hname]
      exact absurd (congrArg Path.resolve hsame.symm) h.tmp_ne
  | some name =>
      obtain ⟨hlast, hdots⟩ := Option.filter_eq_some_iff.mp hname
      have hne : c.destination.components ≠ [] := by
        intro hnil
        rw [hnil] at hlast
        cases hlast
      have hext : Path.stem name ++ "." ++ "tmp" ≠ ".." := by
        intro hdots
        have hend := congrArg (fun t : String => t.toList.getLast?) hdots
        simp [String.toList_append] at hend
      refine ⟨{ c.destination with components := c.destination.components.dropLast }, name,
        Path.stem name ++ "." ++ "tmp", if_neg hne, ?_,
        Path.resolve_withExtension c.destination hname hext⟩
      have hsplit : c.destination.components = c.destination.components.dropLast ++ [name] := by
        rw [List.dropLast_append_getLast? _ hlast]
      show c.destination.components.foldl Path.descend [] = _
      rw [hsplit, List.foldl_append]
      have hdots' : name ≠ ".." := by simpa using hdots
      simp [Path.descend, hdots', Path.resolve]

/-- The directory of the destination is in the way of nothing. -/
theorem Placed.makeDirs (h : c.Placed s.fs) (hsep : c.Separate) {dir : Path}
    (hdir : c.destination.parent = some dir) : c.Placed (s.fs.makeDirs dir) := by
  obtain ⟨dir', name, name', hparent, hdest, htmp⟩ := hsep.parent
  rw [hdir] at hparent
  cases hparent
  have hlong : ∀ last : String, ¬ dir.resolve ++ [last] <+: dir.resolve := by
    intro last hpre
    have hle := hpre.length_le
    rw [List.length_append, List.length_singleton] at hle
    omega
  refine ⟨h.parent, ?_, ?_⟩
  · rw [FileSystem.isDir_makeDirs, h.dest, hdest]
    simp [hlong]
  · rw [FileSystem.isDir_makeDirs, h.tmp, htmp]
    simp [hlong]

/-- What a call needs, apart from the state that it begins in, to download the file `remote`
whole. -/
structure Fetchable (c : DownloadCall) (remote : Bytes) : Prop where
  serves : ServesWhole c.env c.url remote
  fault : ∀ n, c.env.fault n = none
  separate : c.Separate
  url : PackageFetcher.validateDownloadUrl c.url = .ok ()
  limit : remote.length ≤ c.manager.fetcher.config.maxResponseSize
  expects : c.Expects remote

theorem Fetchable.serves_whole (h : c.Fetchable remote) (n : Nat) (r : HttpRequest)
    (hurl : r.url = c.url) (hrange : r.range = none) :
    Interrupted (c.env.server n r) ∨ ∃ response, c.env.server n r = .ok response ∧
      response.status = 200 ∧ Carries remote response.body := by
  obtain ⟨response, hok, hwhole⟩ := h.serves n r hurl hrange
  exact Or.inr ⟨response, hok, hwhole.status, hwhole.body.carries⟩

/-- A fresh download succeeds. -/
theorem fetch_succeeds (h : c.Fetchable remote) (hplaced : c.Placed s.fs)
    (expectedSize : Option Nat) (hsize : ∀ n, expectedSize = some n → n = remote.length) :
    Fallible.Ensures c.env.handler Fallible.AnyCall
      (c.manager.fetcher.download c.env.hash c.url c.destination expectedSize none)
      (fun result s' => c.Complete remote result s') (fun _ _ => False) s := by
  refine Fallible.ensures_mono (Fallible.ensures_and (Q := fun _ _ => True)
    (E := fun _ _ => False) ?_ (fetch_serves h.serves_whole expectedSize s)) (fun _ _ h => h.2)
    fun _ _ h => h.1
  obtain ⟨dir, name, name', hparent, hdest, htmp⟩ := h.separate.parent
  unfold PackageFetcher.download
  rw [h.url]
  refine Fallible.ensures_bind.mpr (Fallible.ensures_pure.mpr ?_)
  unfold PackageFetcher.ensureParent
  rw [hparent]
  refine Fallible.ensures_bind.mpr (Fallible.ensures_bind.mpr (Fallible.ensures_perform.mpr
    ⟨trivial, ?_⟩))
  simp only [FetchEnv.handler,
    FetchEnv.outcome_createDirAll (h.fault _) (hplaced.parent dir hparent)]
  refine Fallible.ensures_pure.mpr ?_
  have hplaced₁ := hplaced.makeDirs h.separate hparent
  have hdest₁ : (s.fs.makeDirs dir).parentIsDir c.destination = true :=
    FileSystem.parentIsDir_makeDirs _ (Path.dropLast_resolve_prefix hparent)
  have htmp₁ : (s.fs.makeDirs dir).parentIsDir c.tmpPath = true :=
    FileSystem.parentIsDir_makeDirs _ (Path.dropLast_resolve_prefix
      ((Path.parent_withExtension c.destination "tmp").trans hparent))
  generalize s.fs.makeDirs dir = fs at hplaced₁ hdest₁ htmp₁ ⊢
  generalize s.trace ++ [_] = trace
  refine Fallible.ensures_bind.mpr (Fallible.ensures_mono
    (Q := fun _ s' => s'.fs.get? c.tmpPath = some remote ∧ s'.fs.dirs = fs.dirs)
    (E := fun _ _ => False) ?_ (fun result s₂ hwritten => ?_) fun _ _ h => h)
  · unfold PackageFetcher.downloadToFile
    refine Fallible.ensures_bind.mpr (Fallible.ensures_bind.mpr (Fallible.ensures_perform.mpr
      ⟨trivial, ?_⟩))
    generalize hr : (⟨c.url, none, _⟩ : HttpRequest) = r
    obtain ⟨response, hok, hwhole⟩ := h.serves trace.length r (by rw [← hr]) (by rw [← hr])
    simp only [FetchEnv.handler, FetchEnv.outcome, hok]
    refine Fallible.ensures_pure.mpr ?_
    rw [PackageFetcher.checkResponse_of_whole hwhole h.limit hsize]
    refine Fallible.ensures_bind.mpr (Fallible.ensures_pure.mpr ?_)
    generalize trace ++ [_] = trace'
    refine Fallible.ensures_bind.mpr (Fallible.ensures_bind.mpr (Fallible.ensures_perform.mpr
      ⟨trivial, ?_⟩))
    simp only [FetchEnv.handler]
    rw [← tmpPath, FetchEnv.outcome_createFile (h.fault _) hplaced₁.tmp htmp₁]
    refine Fallible.ensures_pure.mpr ?_
    have hempty : (fs.write c.tmpPath []).get? c.tmpPath = some [] :=
      FileSystem.get?_write_self _ _ _
    generalize trace' ++ [_] = trace''
    have hstreams : MakesWithin (HttpRequest.IsTo c.url) [c.tmpPath] none
        (streamBody c.manager.fetcher.config.maxResponseSize
          (discard (call (.removeFile c.tmpPath))) c.tmpPath response.body 0) fun _ => True :=
      streamBody_within (List.mem_singleton_self _) (discardRemove_streams c.tmpPath) _ _
    have hdirs : Fallible.Keeps c.env.handler KeepsDirs (streamBody
        c.manager.fetcher.config.maxResponseSize (discard (call (.removeFile c.tmpPath)))
        c.tmpPath response.body 0) :=
      KeepsDirs.of_within hstreams
    have hgiven : ∀ s', Fallible.Ensures c.env.handler Fallible.AnyCall
        (discard (call (.removeFile c.tmpPath)) : Fetch Unit)
        (fun _ _ => ServiceError → True) (fun _ _ => True) s' := fun s' =>
      Fallible.ensures_mono (Fallible.ensures_any _) (fun _ _ _ _ => trivial) fun _ _ h => h
    have hstream := Fallible.ensures_and
      (streamBody_carriesAll h.fault (s := ⟨_, trace''⟩) response.body 0
        hwhole.body (by rw [Nat.zero_add]; exact h.limit))
      (Fallible.ensures_and (streamBody_carries (P := fun _ _ => True) (E := fun _ _ => True)
        (s := ⟨_, trace''⟩) response.body 0 hwhole.body.carries hempty (fun _ _ => trivial)
        (fun _ _ _ _ _ => trivial) fun _ s' _ _ => hgiven s') (hdirs.ensures _))
    refine Fallible.ensures_bind.mpr (Fallible.ensures_mono hstream (fun total s₂ h₂ => ?_)
      fun _ _ h => h.1)
    obtain ⟨-, ⟨-, hwritten⟩, hsame⟩ := h₂
    refine Fallible.ensures_bind.mpr (Fallible.ensures_bind.mpr (Fallible.ensures_perform.mpr
      ⟨trivial, ?_⟩))
    simp only [FetchEnv.handler, FetchEnv.outcome, FetchEnv.faulty, h.fault]
    exact Fallible.ensures_pure.mpr (Fallible.ensures_pure.mpr ⟨hwritten, hsame⟩)
  · obtain ⟨hdata, hdirs⟩ := hwritten
    refine Fallible.ensures_bind.mpr (Fallible.ensures_pure.mpr ?_)
    refine Fallible.ensures_bind.mpr (Fallible.ensures_bind.mpr (Fallible.ensures_perform.mpr
      ⟨trivial, ?_⟩))
    have hdir : s₂.fs.isDir c.destination = false := by
      rw [FileSystem.isDir, hdirs]
      exact hplaced₁.dest
    have hparent₂ : s₂.fs.parentIsDir c.destination = true := by
      rw [FileSystem.parentIsDir, hdirs]
      exact hdest₁
    simp only [FetchEnv.handler]
    rw [← tmpPath, FetchEnv.outcome_rename (h.fault _) hdata hdir hparent₂ h.separate.tmp_ne.symm]
    exact Fallible.ensures_pure.mpr (Fallible.ensures_pure.mpr trivial)

/-! ## Attempts -/

/-- The files of a call that finds the partial file `data`. -/
structure Waiting (c : DownloadCall) (data : Bytes) (fs : FileSystem) : Prop where
  placed : c.Placed fs
  found : fs.get? c.partialPath = some data

/-- Behind the end of the partial file `data` there is nothing that the call can use: whenever it
asks for the rest, the server cannot satisfy the range or does not say which bytes it sends.  What
it answers to other ranges does not matter. -/
def RestUnusable (c : DownloadCall) (remote data : Bytes) : Prop :=
  data ≠ [] → ∀ n,
    RangeUnusable remote data.length (c.env.server n ⟨c.url, some (rangeFrom data.length), 0⟩)

/-- An attempt asks for a range, and is sent the whole file. -/
def Ignores (c : DownloadCall) (existing : Option Nat) (s : Session) : Prop :=
  ∃ offset response, existing = some (offset + 1) ∧
    c.env.server s.trace.length ⟨c.url, some (rangeFrom (offset + 1)), 0⟩ = .ok response ∧
      response.status = 200

/-- Nothing is in the way that was not before the partial file was removed. -/
theorem Placed.remove (h : c.Placed s.fs) : c.Placed (s.fs.remove c.partialPath) := by
  refine ⟨fun dir hdir => ?_, h.dest, h.tmp⟩
  have hfree := List.any_eq_false.mp (h.parent dir hdir)
  refine List.any_eq_false.mpr fun above habove => ?_
  have hnone : s.fs.files.lookup above = none := by
    simpa using hfree above habove
  by_cases hpart : above = c.partialPath.resolve
  · rw [hpart, FileSystem.remove, AList.lookup_erase]
    simp
  · simp [FileSystem.remove, AList.lookup_erase_ne hpart, hnone]

/-- An attempt whose range is not ignored fails, and changes nothing. -/
theorem attempt_fails (hrest : c.RestUnusable remote data) {offset : Nat}
    (hoffset : data.length = offset + 1) (hno : ¬ c.Ignores (some (offset + 1)) s) :
    Fallible.Ensures c.env.handler Fallible.AnyCall (c.attempt (some (offset + 1)))
      (fun _ _ => False) (fun _ s' => s'.fs = s.fs) s := by
  show Fallible.Ensures c.env.handler Fallible.AnyCall
    (c.manager.resumeDownload c.env c.url c.partialPath (offset + 1) c.destination) _ _ s
  unfold DownloadManager.resumeDownload
  refine Fallible.ensures_bind.mpr (Fallible.ensures_bind.mpr (Fallible.ensures_perform.mpr
    ⟨trivial, Fallible.ensures_orFail.mpr ⟨fun response hresponse => ?_, fun e _ => rfl⟩⟩))
  have hanswer : c.env.server s.trace.length ⟨c.url, some (rangeFrom (offset + 1)), 0⟩ =
      .ok response := hresponse
  have hunusable := hrest (List.ne_nil_of_length_eq_add_one hoffset) s.trace.length
  rw [hoffset, hanswer] at hunusable
  cases hunusable with
  | ignored _ hwhole => exact absurd ⟨offset, response, rfl, hanswer, hwhole.status⟩ hno
  | unvalidated _ hstatus hrange =>
      refine Fallible.ensures_ite.mpr ⟨fun _ => ?_, fun hother => absurd hstatus hother⟩
      cases hheader : response.contentRange with
      | none => exact Fallible.ensures_bind.mpr (Fallible.ensures_throw.mpr rfl)
      | some range =>
          obtain ⟨e, he⟩ := hrange range hheader
          refine Fallible.ensures_bind.mpr (Fallible.ensures_pure.mpr ?_)
          rw [he]
          exact Fallible.ensures_bind.mpr (Fallible.ensures_throw.mpr rfl)

/-- An attempt whose range is ignored, or that asks for none, delivers the file. -/
theorem attempt_succeeds (h : c.Fetchable remote) (hwait : c.Waiting data s.fs)
    (hcase : data = [] ∨ c.Ignores (some data.length) s) :
    Fallible.Ensures c.env.handler Fallible.AnyCall (c.attempt (some data.length))
      (fun result s' => c.Complete remote result s') (fun _ _ => False) s := by
  rcases hcase with rfl | ⟨offset, response, hlength, hanswer, hstatus⟩
  · exact fetch_succeeds h hwait.placed c.expectedSize h.expects.size
  · rw [Option.some.inj hlength]
    show Fallible.Ensures c.env.handler Fallible.AnyCall
      (c.manager.resumeDownload c.env c.url c.partialPath (offset + 1) c.destination) _ _ s
    unfold DownloadManager.resumeDownload
    have hresponse : (c.env.handler
        (.request ⟨c.url, some (rangeFrom (offset + 1)), 0⟩) s).1 = .ok response := hanswer
    refine Fallible.ensures_bind.mpr (Fallible.ensures_bind.mpr (Fallible.ensures_perform.mpr
      ⟨trivial, Fallible.ensures_orFail.mpr ⟨fun response' hok => ?_, fun e herror => ?_⟩⟩))
    · have hsame : response = response' := Except.ok.inj (hresponse.symm.trans hok)
      subst hsame
      refine Fallible.ensures_ite.mpr ⟨fun hother => ?_, fun _ => ?_⟩
      · rw [hstatus] at hother
        cases hother
      refine Fallible.ensures_ite.mpr ⟨fun _ => ?_, fun hother => absurd hstatus hother⟩
      refine Fallible.ensures_bind.mpr (Fallible.ensures_discard.mpr
        (Fallible.ensures_perform.mpr ⟨trivial, ?_⟩))
      refine fetch_succeeds h ?_ none nofun
      have hremoved : ∀ n, (c.env.outcome n s.fs (.removeFile c.partialPath)).2 =
          s.fs.remove c.partialPath := by
        intro n
        rw [FetchEnv.outcome_removeFile c.env _ hwait.found, h.fault]
        rfl
      have hplaced := hwait.placed.remove
      rw [← hremoved] at hplaced
      exact hplaced
    · exact absurd (hresponse.symm.trans herror) nofun

/-! ## Calls -/

/-- A call that finds a partial file begins with its size, and leaves the files in place. -/
theorem prepare_waiting (h : c.Fetchable remote) (hwait : c.Waiting data s.fs) :
    Fallible.Ensures c.env.handler Fallible.AnyCall
      (c.manager.prepare c.env c.url c.destination c.digest c.expectedSize c.sourceId c.subject)
      (fun found s' => found.2 = some data.length ∧ c.Waiting data s'.fs)
      (fun _ _ => False) s := by
  obtain ⟨dir, name, name', hparent, -, -⟩ := h.separate.parent
  unfold DownloadManager.prepare
  refine Fallible.ensures_bind.mpr (Fallible.ensures_mono
    (DownloadManager.auditDownload_ensures c.env allowsAudit_any _ _ _ _ _ s)
    (fun _ s₁ haudited => ?_) fun _ _ h => h)
  have hfound := DownloadManager.findPartial_found
    (DownloadTracker.new c.digest c.url c.destination c.expectedSize) (p := c.partialPath)
    (s := s₁) (h.fault _) (h.fault _) (fun hnone => by
      rw [haudited.1, hwait.found] at hnone
      cases hnone)
  rw [haudited.1, hwait.found] at hfound
  refine Fallible.ensures_bind.mpr (Fallible.ensures_mono hfound
    (fun found s₂ hs₂ => ?_) fun _ _ h => h)
  unfold PackageFetcher.ensureParent
  rw [hparent]
  refine Fallible.ensures_bind.mpr (Fallible.ensures_bind.mpr (Fallible.ensures_perform.mpr
    ⟨trivial, ?_⟩))
  have hfree : s₂.fs.blocks dir = false := by
    rw [hs₂.2]
    exact hwait.placed.parent dir hparent
  simp only [FetchEnv.handler, FetchEnv.outcome_createDirAll (h.fault _) hfree]
  refine Fallible.ensures_pure.mpr (Fallible.ensures_pure.mpr ⟨hs₂.1, ?_, ?_⟩)
  · rw [hs₂.2]
    exact hwait.placed.makeDirs h.separate hparent
  · rw [hs₂.2]
    exact hwait.found

/-- The call falls back: it drops the partial file, fetches the whole file and succeeds. -/
structure FallsBack (c : DownloadCall) (remote : Bytes) (s : Session) : Prop where
  returns : (c.run s).1 = .ok c.destination
  data : (c.run s).2.fs.get? c.destination = some remote
  noPartial : (c.run s).2.fs.get? c.partialPath = none

section Waiting

variable (h : c.Fetchable remote) (hrest : c.RestUnusable remote data)
  (hwait : c.Waiting data s.fs)
include h hwait

/-- A call that finds a partial file begins its first attempt. -/
theorem exists_mem_starts : ∃ s₁, (some data.length, s₁) ∈ c.starts s := by
  have hprepare := prepare_waiting h hwait
  rcases hbegin : c.prepared s with ⟨e | ⟨tracker, existing⟩, s₁⟩
  · exact (hprepare.of_error hbegin).elim
  · have hfound : existing = some data.length := (hprepare.of_ok hbegin).1
    subst hfound
    refine ⟨s₁, ?_⟩
    rw [starts_of_prepared hbegin]
    exact List.mem_map_of_mem (DownloadManager.mem_attemptStarts_self _)

include hrest

/-- Every attempt finds the partial file as it was. -/
theorem starts_waiting :
    ∀ existing s₁, (existing, s₁) ∈ c.starts s → existing = some data.length ∧
      c.Waiting data s₁.fs := by
  have hprepare := prepare_waiting h hwait
  have hsize : ∀ existing s₁, (existing, s₁) ∈ c.starts s → existing = some data.length := by
    intro existing s₁ hmem
    obtain ⟨tracker, s₀, hbegin, -⟩ := prepared_of_mem_starts hmem
    exact (hprepare.of_ok hbegin).1
  have hfiles := starts_keep (c := c) (s := s) (I := fun s₁ => c.Waiting data s₁.fs)
    (fun tracker existing s₁ hbegin => (hprepare.of_ok hbegin).2)
    fun existing s₁ e s₂ s₃ hmem hs₁ hrun haudited => ?_
  · exact fun existing s₁ hmem => ⟨hsize existing s₁ hmem, hfiles existing s₁ hmem⟩
  rw [hsize existing s₁ hmem] at hrun
  by_cases hcase : data = [] ∨ c.Ignores (some data.length) s₁
  · exact ((attempt_succeeds h hs₁ hcase).of_error hrun).elim
  · obtain ⟨hne, hno⟩ := not_or.mp hcase
    have hpos := List.length_pos_iff.mpr hne
    obtain ⟨offset, hoffset⟩ : ∃ offset, data.length = offset + 1 := ⟨data.length - 1, by omega⟩
    rw [hoffset] at hrun hno
    have hsame := (attempt_fails hrest hoffset hno).of_error hrun
    rwa [haudited.1, hsame]

/-- A call falls back if one of its attempts is sent the whole file. -/
theorem run_succeeds (hcase : data = [] ∨ ∃ existing s₁, (existing, s₁) ∈ c.starts s ∧
    c.Ignores existing s₁) : c.FallsBack remote s := by
  obtain ⟨s₁, hmem, hcase⟩ : ∃ s₁, (some data.length, s₁) ∈ c.starts s ∧
      (data = [] ∨ c.Ignores (some data.length) s₁) := by
    rcases hcase with hnil | ⟨existing, s₁, hmem, hignores⟩
    · obtain ⟨s₁, hmem⟩ := exists_mem_starts h hwait
      exact ⟨s₁, hmem, Or.inl hnil⟩
    · have hsize := (starts_waiting h hrest hwait existing s₁ hmem).1
      subst hsize
      exact ⟨s₁, hmem, Or.inr hignores⟩
  have hattempt := attempt_succeeds h (starts_waiting h hrest hwait _ s₁ hmem).2 hcase
  rcases hrun : c.attemptRun (some data.length) s₁ with ⟨e | result, s₂⟩
  · exact (hattempt.of_error hrun).elim
  · obtain ⟨hok, haccepted⟩ := run_of_complete h.separate h.expects hmem hrun
      (fun n _ _ => h.fault n) (hattempt.of_ok hrun)
    exact ⟨hok, haccepted.data, haccepted.noPartial h.fault⟩

/-- A call none of whose attempts is sent the whole file fails, and leaves the partial file
for the next one. -/
theorem run_fails (hne : data ≠ [])
    (hno : ∀ existing s₁, (existing, s₁) ∈ c.starts s → ¬ c.Ignores existing s₁) :
    (∃ e, (c.run s).1 = .error e) ∧ c.Waiting data (c.run s).2.fs := by
  have hpos := List.length_pos_iff.mpr hne
  obtain ⟨offset, hoffset⟩ : ∃ offset, data.length = offset + 1 := ⟨data.length - 1, by omega⟩
  have hattempt : ∀ existing s₁, (existing, s₁) ∈ c.starts s →
      ∃ e s₂, c.attemptRun existing s₁ = (.error e, s₂) ∧ c.Waiting data s₂.fs := by
    intro existing s₁ hmem
    obtain ⟨hsize, hs₁⟩ := starts_waiting h hrest hwait existing s₁ hmem
    rw [hoffset] at hsize
    subst hsize
    have hfails := attempt_fails hrest hoffset (hno _ s₁ hmem)
    rcases hrun : c.attemptRun (some (offset + 1)) s₁ with ⟨e | result, s₂⟩
    · refine ⟨e, s₂, rfl, ?_⟩
      rwa [hfails.of_error hrun]
    · exact (hfails.of_ok hrun).elim
  rcases run_of_failed fun existing s₁ hmem => by
      obtain ⟨e, s₂, hrun, -⟩ := hattempt existing s₁ hmem
      exact ⟨e, s₂, hrun⟩ with
    ⟨e, s₁, hbegin, -⟩ | ⟨existing, s₁, e, s₂, s₃, hmem, hrun, haudited, hend⟩
  · exact ((prepare_waiting h hwait).of_error hbegin).elim
  · obtain ⟨e', s₂', hrun', hs₂⟩ := hattempt existing s₁ hmem
    rw [hrun] at hrun'
    cases hrun'
    rw [hend]
    refine ⟨⟨e, rfl⟩, ?_⟩
    rwa [haudited.1]

end Waiting

/-- The session after `n` calls, one after the other. -/
def after (c : DownloadCall) (n : Nat) (s : Session) : Session := (fun s => (c.run s).2)^[n] s

/-- While the server does not ignore its range, a partial file makes every call fail, and
stays. -/
theorem fails_of_waiting (h : c.Fetchable remote) (hrest : c.RestUnusable remote data)
    (hwait : c.Waiting data s.fs) (hne : data ≠ [])
    (hno : ∀ s₁, ¬ c.Ignores (some data.length) s₁) (n : Nat) :
    (∃ e, (c.run (c.after n s)).1 = .error e) ∧ c.Waiting data (c.after n s).fs := by
  have hfails : ∀ s, c.Waiting data s.fs →
      (∃ e, (c.run s).1 = .error e) ∧ c.Waiting data (c.run s).2.fs := by
    refine fun s hs => run_fails h hrest hs hne fun existing s₁ hmem hignores => ?_
    rw [(starts_waiting h hrest hs existing s₁ hmem).1] at hignores
    exact hno s₁ hignores
  have hstays : c.Waiting data (c.after n s).fs := by
    induction n with
    | zero => exact hwait
    | succ n ih =>
        rw [after, Function.iterate_succ_apply']
        exact (hfails _ ih).2
  exact ⟨(hfails _ hstays).1, hstays⟩

/-- Where a partial file has no usable rest, a call falls back, and is not doomed to fail whenever
it is repeated, exactly if there is nothing in the partial file or one of its attempts is sent the
whole file. -/
theorem falls_back_iff (c : DownloadCall) (remote data : Bytes) (s : Session)
    (h : c.Fetchable remote) (hrest : c.RestUnusable remote data) (hwait : c.Waiting data s.fs) :
    (c.FallsBack remote s ∧ ∃ n p, (c.run (c.after n s)).1 = .ok p) ↔
      data = [] ∨ ∃ existing s₁, (existing, s₁) ∈ c.starts s ∧ c.Ignores existing s₁ := by
  constructor
  · intro hfalls
    by_contra hcase
    obtain ⟨hne, hno⟩ := not_or.mp hcase
    obtain ⟨⟨e, herror⟩, -⟩ := run_fails h hrest hwait hne fun existing s₁ hmem hignores =>
      hno ⟨existing, s₁, hmem, hignores⟩
    have hreturns := hfalls.1.returns
    rw [herror] at hreturns
    cases hreturns
  · intro hcase
    have hfalls := run_succeeds h hrest hwait hcase
    exact ⟨hfalls, 0, c.destination, hfalls.returns⟩

end DownloadCall

/-! ## Servers without and with ranges -/

/-- A server that sends the file `remote` whole, whatever range of it is asked for. -/
def plainServer (remote : Bytes) (_ : Nat) (_ : HttpRequest) : Except HttpError HttpResponse :=
  .ok ⟨200, "https://packages.mission-os.org", none, none, none, remote.map fun b => .ok [b]⟩

theorem carriesAll_singletons (remote : Bytes) :
    CarriesAll remote (remote.map fun b => .ok [b]) := by
  refine ⟨remote.map fun b => [b], ?_, by simp, ?_⟩
  · intro chunk hchunk
    obtain ⟨b, -, rfl⟩ := List.mem_map.mp hchunk
    exact List.cons_ne_nil _ _
  · induction remote with
    | nil => rfl
    | cons b bs ih => simp [ih]

theorem plainServer_whole (remote : Bytes) (n : Nat) (r : HttpRequest) :
    ∃ response, plainServer remote n r = .ok response ∧ WholeFile remote response := by
  have hscheme : isAcceptedScheme "https://packages.mission-os.org".toList = true := by decide
  have hlength : ∀ text len, (none : Option String) = some text →
      parseUnsigned (2 ^ 64) text.toList = .ok len → len = remote.length := by
    intro text len htext _
    cases htext
  exact ⟨_, rfl, rfl, hscheme, hlength, carriesAll_singletons remote⟩

/-- The server of `abc` with range support sends all of it to who asks for no range. -/
theorem rangeServer_servesWhole :
    ServesWhole (.serving (rangeServer (utf8 "abc") 0 false))
      "https://packages.mission-os.org/abc.ko" (utf8 "abc") := by
  intro n r hurl hrange
  refine ⟨⟨200, r.url, some "3", none, none, (utf8 "abc").map fun b => .ok [b]⟩, ?_, rfl, ?_, ?_,
    carriesAll_singletons _⟩
  · simp only [FetchEnv.serving, rangeServer, hrange]
    rfl
  · rw [hurl]
    decide
  · intro text len htext hlen
    cases htext
    have hthree : parseUnsigned (2 ^ 64) "3".toList = .ok 3 := by decide
    exact Except.ok.inj (hlen.symm.trans hthree)

theorem abcCall_fetchable {server : Nat → HttpRequest → Except HttpError HttpResponse}
    (hserves : ServesWhole (.serving server) "https://packages.mission-os.org/abc.ko"
      (utf8 "abc")) : (abcCall server).Fetchable (utf8 "abc") where
  serves := hserves
  fault _ := rfl
  separate := abcCall_separate _
  url := by
    show PackageFetcher.validateDownloadUrl "https://packages.mission-os.org/abc.ko" = .ok ()
    decide
  limit := by
    show (utf8 "abc").length ≤ 1000000000
    decide
  expects := abcCall_expects _

theorem abcCall_waiting (server : Nat → HttpRequest → Except HttpError HttpResponse)
    (data : Bytes) (hdata : data = utf8 "a" ∨ data = utf8 "abc") :
    (abcCall server).Waiting data (abcFiles data) where
  placed := by
    have hparent : abcPath.parent = some (Path.new "/var/cache/mission/driverd/packages") := by
      decide
    have hplaces : ∀ data ∈ [utf8 "a", utf8 "abc"],
        (abcFiles data).blocks (Path.new "/var/cache/mission/driverd/packages") = false ∧
          (abcFiles data).isDir abcPath = false ∧
            (abcFiles data).isDir (abcPath.withExtension "tmp") = false := by decide
    obtain ⟨hfree, hdest, htmp⟩ := hplaces data (by simpa using hdata)
    refine ⟨fun dir hdir => ?_, hdest, htmp⟩
    have hsame : some (Path.new "/var/cache/mission/driverd/packages") = some dir :=
      hparent.symm.trans hdir
    rwa [← Option.some.inj hsame]
  found := FileSystem.get?_write_self _ _ _

/-- The first byte of `abc` is dropped when the range behind it is ignored. -/
theorem DownloadCall.plain_falls_back :
    (abcCall (plainServer (utf8 "abc"))).FallsBack (utf8 "abc") abcStarted ∧
      ∃ n p, ((abcCall (plainServer (utf8 "abc"))).run
        ((abcCall (plainServer (utf8 "abc"))).after n abcStarted)).1 = .ok p := by
  have hfetchable : (abcCall (plainServer (utf8 "abc"))).Fetchable (utf8 "abc") :=
    abcCall_fetchable fun n r _ _ => plainServer_whole _ n r
  have hrest : (abcCall (plainServer (utf8 "abc"))).RestUnusable (utf8 "abc") (utf8 "a") := by
    intro _ n
    obtain ⟨response, hok, hwhole⟩ := plainServer_whole (utf8 "abc") n
      ⟨"https://packages.mission-os.org/abc.ko", some (rangeFrom (utf8 "a").length), 0⟩
    show RangeUnusable (utf8 "abc") (utf8 "a").length (plainServer (utf8 "abc") n
      ⟨"https://packages.mission-os.org/abc.ko", some (rangeFrom (utf8 "a").length), 0⟩)
    rw [hok]
    exact .ignored response hwhole
  have hwait := abcCall_waiting (plainServer (utf8 "abc")) (utf8 "a") (Or.inl rfl)
  obtain ⟨s₁, hmem⟩ := exists_mem_starts (s := abcStarted) hfetchable hwait
  exact (falls_back_iff _ _ (utf8 "a") _ hfetchable hrest hwait).mpr
    (Or.inr ⟨_, s₁, hmem, 0, _, rfl, rfl, rfl⟩)

/-- A complete partial file makes every call fail: there is nothing behind its end, and a server
that sends every range inside the file says so. -/
theorem DownloadCall.complete_partial_stays :
    ¬ ∀ (c : DownloadCall) (remote data : Bytes) (s : Session), c.Fetchable remote →
      c.RestUnusable remote data → c.Waiting data s.fs →
        c.FallsBack remote s ∧ ∃ n p, (c.run (c.after n s)).1 = .ok p := by
  intro hclaim
  have hfetchable := abcCall_fetchable rangeServer_servesWhole
  have hwait := abcCall_waiting (rangeServer (utf8 "abc") 0 false) (utf8 "abc") (Or.inr rfl)
  have hrefused (n : Nat) : rangeServer (utf8 "abc") 0 false n
      ⟨"https://packages.mission-os.org/abc.ko", some (rangeFrom 3), 0⟩ =
        .error (.status 416) := rfl
  have hrest : (abcCall (rangeServer (utf8 "abc") 0 false)).RestUnusable (utf8 "abc")
      (utf8 "abc") := by
    intro _ n
    have hthree : (utf8 "abc").length = 3 := by decide
    show RangeUnusable (utf8 "abc") (utf8 "abc").length (rangeServer (utf8 "abc") 0 false n
      ⟨"https://packages.mission-os.org/abc.ko", some (rangeFrom (utf8 "abc").length), 0⟩)
    rw [hthree, hrefused]
    exact .unsatisfiable (by decide)
  obtain ⟨-, n, p, hok⟩ := hclaim _ _ (utf8 "abc") ⟨abcFiles (utf8 "abc"), []⟩ hfetchable hrest
    hwait
  have hno : ∀ s₁, ¬ (abcCall (rangeServer (utf8 "abc") 0 false)).Ignores
      (some (utf8 "abc").length) s₁ := by
    intro s₁ hpost
    obtain ⟨offset, response, hoffset, hanswer, -⟩ := hpost
    have hlength : offset + 1 = 3 := (Option.some.inj hoffset).symm
    rw [hlength] at hanswer
    cases (hrefused s₁.trace.length).symm.trans hanswer
  obtain ⟨⟨e, herror⟩, -⟩ := fails_of_waiting (s := ⟨abcFiles (utf8 "abc"), []⟩) hfetchable hrest
    hwait (by decide) hno n
  rw [hok] at herror
  cases herror

end MissionOs.Driverd
