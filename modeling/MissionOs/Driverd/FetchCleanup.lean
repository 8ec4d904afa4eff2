import MissionOs.Driverd.FailedDownload

/-!
# What a failed fetch leaves behind

`PackageFetcher::download` writes to a temporary file and renames it when all is well.
`ends` lists the ways in which it can fail: before the temporary file is created, or by the
read of the body, a write, the size limit, the flush, the digest or the rename.  Only the
branch of the size limit removes the file.

`run_ends` says what each end leaves behind, and `cleansUp_iff` which calls leave the
destination as it was and no temporary file.
-/

namespace MissionOs.Driverd

open MissionOs.Rust MissionOs.Lib

/-! ## The ways to fail -/

/-- Why a fetch fails.  All but the first come after the temporary file was created. -/
inductive FetchFailure where
  | notOpened
  | readFailed
  | writeFailed
  | tooLong (removed : Bool)
  | flushFailed
  | digestFailed
  | renameFailed
deriving DecidableEq, Repr

/-- The end of the loop over a body, of which `data` is written, from call number `n` on. -/
def FetchEnv.bodyEnd (env : FetchEnv) (limit : Nat) :
    List (Except FileError Bytes) → Bytes → Nat → Except FetchFailure (Bytes × Nat)
  | [], data, n => .ok (data, n)
  | .error _ :: _, _, _ => .error .readFailed
  | .ok [] :: _, data, n => .ok (data, n)
  | .ok (b :: bs) :: body, data, n =>
    if limit < (data ++ b :: bs).length then .error (.tooLong (env.fault n).isNone)
    else if (env.fault n).isSome then .error .writeFailed
    else bodyEnd env limit body (data ++ b :: bs) (n + 1)

/-- One call of `PackageFetcher::download`. -/
structure FetcherCall where
  fetcher : PackageFetcher
  env : FetchEnv
  url : String
  destination : Path
  expectedSize : Option Nat
  expectedDigest : Option PackageDigest

namespace FetcherCall

variable (c : FetcherCall)

/-- The file that is written to. -/
def tmpPath : Path := c.destination.withExtension "tmp"

/-- The code of the call. -/
def program : Fetch DownloadResult :=
  c.fetcher.download c.env.hash c.url c.destination c.expectedSize c.expectedDigest

/-- What the call returns, and what it leaves behind. -/
def run (s : Session) : Except ServiceError DownloadResult × Session :=
  c.program.run.run c.env.handler s

/-- The request for the package. -/
def request : HttpRequest :=
  ⟨c.url, none,
    if c.fetcher.config.followRedirects then c.fetcher.config.maxRedirects else 0⟩

/-- The code up to the creation of the temporary file. -/
def opening : Fetch HttpResponse := do
  Fallible.orFail id (PackageFetcher.validateDownloadUrl c.url)
  PackageFetcher.ensureParent "cannot create download directory: " c.destination
  let response ← call (.request c.request) >>= Fallible.orFail fun
    | .status code => .downloadFailed ("HTTP " ++ toString code)
    | .transport text => .downloadFailed text
  Fallible.orFail id (c.fetcher.checkResponse response c.expectedSize)
  call (.createFile c.tmpPath) >>= Fallible.orFail fun e =>
    .internal ("cannot create temp file: " ++ e)
  return response

/-- The code behind it. -/
def finish (response : HttpResponse) : Fetch DownloadResult := do
  let total ← streamBody c.fetcher.config.maxResponseSize
    (discard (call (.removeFile c.tmpPath))) c.tmpPath response.body 0
  call (.flush c.tmpPath) >>= Fallible.orFail fun e => .internal ("file flush error: " ++ e)
  PackageFetcher.verifyExpected c.env.hash c.tmpPath c.expectedDigest
  call (.rename c.tmpPath c.destination) >>= Fallible.orFail fun e =>
    .internal ("atomic rename failed: " ++ e)
  return ⟨c.tmpPath, total, response.contentType⟩

theorem program_eq : c.program = c.opening >>= c.finish := by
  unfold program PackageFetcher.download PackageFetcher.downloadToFile opening finish
  simp only [bind_assoc, pure_bind]
  rfl

/-- The files and the number of calls after the directory of the destination was made. -/
def parentMade (s : Session) : Option (FileSystem × Nat) :=
  match c.destination.parent with
  | none => some (s.fs, s.trace.length)
  | some parent =>
    if (c.env.fault s.trace.length).isSome || s.fs.blocks parent then none
    else some (s.fs.makeDirs parent, s.trace.length + 1)

/-- If the temporary file can be created: the response, and the files and the number of calls
before it is. -/
def opens (s : Session) : Option (HttpResponse × FileSystem × Nat) :=
  if (PackageFetcher.validateDownloadUrl c.url).isOk then
    (c.parentMade s).bind fun made =>
      (c.env.server made.2 c.request).toOption.bind fun response =>
        if (c.fetcher.checkResponse response c.expectedSize).isOk &&
            (c.env.fault (made.2 + 1)).isNone && !made.1.isDir c.tmpPath &&
            made.1.parentIsDir c.tmpPath then
          some (response, made.1, made.2 + 1)
        else none
  else none

/-- Whether the bytes `data` have the digest, if one is expected, and can be read for it. -/
def digestMatches (data : Bytes) (n : Nat) : Bool :=
  c.expectedDigest.all fun digest =>
    (c.env.hashOf digest.algorithm data n).any fun actual => digest.matches actual

/-- How the call goes on after the temporary file was created by call number `n`. -/
def finishEnd (response : HttpResponse) (fs : FileSystem) (n : Nat) :
    Except FetchFailure Unit :=
  (c.env.bodyEnd c.fetcher.config.maxResponseSize response.body [] (n + 1)).bind fun body =>
    let flushed := body.2 + 1
    let verified := if c.expectedDigest.isSome then flushed + 2 else flushed
    if (c.env.fault body.2).isSome then .error .flushFailed
    else if !c.digestMatches body.1 flushed then .error .digestFailed
    else if (c.env.fault verified).isSome || fs.isDir c.destination ||
        !fs.parentIsDir c.destination then .error .renameFailed
    else .ok ()

/-- How the call ends, from what the server sends and which calls fail. -/
def ends (s : Session) : Except FetchFailure Unit :=
  match c.opens s with
  | none => .error .notOpened
  | some (response, fs, n) => c.finishEnd response fs n

end FetcherCall

/-! ## What the parts of the code do -/

/-- Only the file at `path` may have changed. -/
structure Elsewhere (path : Path) (s s' : Session) : Prop where
  files : ∀ q : Path, q.resolve ≠ path.resolve → s'.fs.get? q = s.fs.get? q
  dirs : s'.fs.dirs = s.fs.dirs

instance (path : Path) : Std.Refl (Elsewhere path) := ⟨fun _ => ⟨fun _ _ => rfl, rfl⟩⟩

instance (path : Path) : IsTrans Session (Elsewhere path) :=
  ⟨fun _ _ _ h h' => ⟨fun q hq => (h'.files q hq).trans (h.files q hq), h'.dirs.trans h.dirs⟩⟩

theorem Elsewhere.of_fs_eq {path : Path} {s s₁ s₂ : Session} (h : Elsewhere path s s₁)
    (hfs : s₂.fs = s₁.fs) : Elsewhere path s s₂ :=
  ⟨fun q hq => by rw [hfs, h.files q hq], by rw [hfs, h.dirs]⟩

/-- What a failure leaves at the temporary path, once the file was created. -/
def FetchFailure.Leaves (path : Path) (s : Session) : FetchFailure → Prop
  | .notOpened => False
  | .tooLong true => s.fs.get? path = none
  | _ => (s.fs.get? path).isSome = true

/-- Whether a file is created depends on the failures and the directories. -/
theorem FetchEnv.outcome_createFile_eq (env : FetchEnv) (n : Nat) (fs : FileSystem) (p : Path) :
    if (env.fault n).isNone && !fs.isDir p && fs.parentIsDir p then
      env.outcome n fs (.createFile p) = (.ok (), fs.write p [])
    else ∃ e, env.outcome n fs (.createFile p) = (.error e, fs) := by
  cases hfault : env.fault n with
  | some e => exact ⟨e, by simp [outcome, faulty, hfault]⟩
  | none =>
      cases hdir : fs.isDir p with
      | true => exact ⟨env.refused p, by simp [outcome, faulty, hfault, hdir]⟩
      | false =>
          cases hparent : fs.parentIsDir p with
          | false => exact ⟨env.refused p, by simp [outcome, faulty, hfault, hdir, hparent]⟩
          | true => exact outcome_createFile hfault hdir hparent

/-- Whether a file is renamed depends on the failures and the directories. -/
theorem FetchEnv.outcome_rename_eq (env : FetchEnv) (n : Nat) {fs : FileSystem} {src : Path}
    (dest : Path) {data : Bytes} (h : fs.get? src = some data) :
    if (env.fault n).isSome || fs.isDir dest || !fs.parentIsDir dest then
      ∃ e, env.outcome n fs (.rename src dest) = (.error e, fs)
    else (env.outcome n fs (.rename src dest)).1 = .ok () := by
  cases hfault : env.fault n with
  | some e => exact ⟨e, by simp [outcome, faulty, hfault]⟩
  | none =>
      cases hdir : fs.isDir dest with
      | true => exact ⟨env.refused dest, by simp [outcome, faulty, hfault, h, hdir]⟩
      | false =>
          cases hparent : fs.parentIsDir dest with
          | false => exact ⟨env.refused dest, by simp [outcome, faulty, hfault, h, hparent]⟩
          | true =>
              show (env.outcome n fs (.rename src dest)).1 = .ok ()
              by_cases hsame : src.resolve = dest.resolve
              · simp [outcome, faulty, hfault, h, hdir, hparent, hsame]
              · simp [outcome_rename hfault h hdir hparent hsame]

/-- Without a failure a write adds its bytes. -/
theorem FetchEnv.outcome_writeAll {env : FetchEnv} {n : Nat} {fs : FileSystem} {p : Path}
    {old : Bytes} (hfault : env.fault n = none) (h : fs.get? p = some old) (data : Bytes) :
    env.outcome n fs (.writeAll p data) = (.ok (), fs.write p (old ++ data)) := by
  simp [outcome, hfault, h]

/-- A write that fails has added some of them. -/
theorem FetchEnv.outcome_writeAll_fault {env : FetchEnv} {n : Nat} {fs : FileSystem} {p : Path}
    {old : Bytes} {e : FileError} (hfault : env.fault n = some e) (h : fs.get? p = some old)
    (data : Bytes) :
    env.outcome n fs (.writeAll p data) =
      (.error e, fs.write p (old ++ data.take (env.written n))) := by
  simp [outcome, hfault, h]

/-- The loop over a body writes it behind what is there. -/
theorem streamBody_ends (env : FetchEnv) (limit : Nat) {path : Path}
    (body : List (Except FileError Bytes)) {data : Bytes} {s : Session}
    (hdata : s.fs.get? path = some data) :
    Fallible.Ensures env.handler Fallible.AnyCall
      (streamBody limit (discard (call (.removeFile path))) path body data.length)
      (fun _ s' => ∃ written, env.bodyEnd limit body data s.trace.length =
        .ok (written, s'.trace.length) ∧ s'.fs.get? path = some written)
      (fun _ s' => ∃ f, env.bodyEnd limit body data s.trace.length = .error f ∧
        f.Leaves path s') s := by
  induction body generalizing data s with
  | nil => exact Fallible.ensures_pure.mpr ⟨data, rfl, hdata⟩
  | cons r body ih =>
      match r with
      | .error e =>
          refine Fallible.ensures_throw.mpr ⟨.readFailed, rfl, ?_⟩
          exact Option.isSome_iff_exists.mpr ⟨data, hdata⟩
      | .ok [] => exact Fallible.ensures_pure.mpr ⟨data, rfl, hdata⟩
      | .ok (b :: bs) =>
          unfold streamBody FetchEnv.bodyEnd
          rw [← List.length_append]
          refine Fallible.ensures_ite.mpr ⟨fun hlong => ?_, fun hshort => ?_⟩
          · simp only [if_pos hlong]
            refine Fallible.ensures_bind.mpr (Fallible.ensures_discard.mpr
              (Fallible.ensures_perform.mpr ⟨trivial, Fallible.ensures_throw.mpr ?_⟩))
            refine ⟨_, rfl, ?_⟩
            have hremoved := FetchEnv.outcome_removeFile env s.trace.length hdata
            cases hfault : env.fault s.trace.length with
            | none =>
                rw [hfault] at hremoved
                show (env.outcome s.trace.length s.fs (.removeFile path)).2.get? path = none
                rw [hremoved]
                exact FileSystem.get?_remove_self _ _
            | some e =>
                rw [hfault] at hremoved
                show ((env.outcome s.trace.length s.fs (.removeFile path)).2.get? path).isSome =
                  true
                rw [hremoved]
                exact Option.isSome_iff_exists.mpr ⟨data, hdata⟩
          · simp only [if_neg hshort]
            refine Fallible.ensures_bind.mpr (Fallible.ensures_bind.mpr
              (Fallible.ensures_perform.mpr ⟨trivial, ?_⟩))
            cases hfault : env.fault s.trace.length with
            | some e =>
                have hwrite := FetchEnv.outcome_writeAll_fault hfault hdata (b :: bs)
                simp only [FetchEnv.handler, hwrite]
                refine Fallible.ensures_throw.mpr ⟨.writeFailed, rfl, ?_⟩
                exact Option.isSome_iff_exists.mpr ⟨_, FileSystem.get?_write_self _ _ _⟩
            | none =>
                have hwrite := FetchEnv.outcome_writeAll hfault hdata (b :: bs)
                simp only [FetchEnv.handler, hwrite]
                refine Fallible.ensures_pure.mpr ?_
                have hrest := @ih (data ++ b :: bs)
                  ⟨s.fs.write path (data ++ b :: bs), s.trace ++ [.writeAll path (b :: bs)]⟩
                  (FileSystem.get?_write_self _ _ _)
                simpa only [List.length_append, List.length_singleton, Option.isSome_none,
                  Bool.false_eq_true, if_false] using hrest

/-- The loop over a body changes no other file. -/
theorem streamBody_elsewhere (env : FetchEnv) (limit : Nat) (path : Path)
    (body : List (Except FileError Bytes)) (total : Nat) :
    Fallible.Keeps env.handler (Elsewhere path)
      (streamBody limit (discard (call (.removeFile path))) path body total) := by
  refine Fallible.Keeps.of_makes (streamBody_streams (discardRemove_streams path) body total)
    fun call s hcall => ⟨fun q hq => FetchEnv.outcome_get? fun p hp => ?_,
      FetchEnv.outcome_dirs fun p hp => ?_⟩
  · have hwithin : call.Within (fun _ => True) [path] none :=
      hcall.within (List.mem_singleton_self _)
    rw [List.mem_singleton.mp (hwithin.mem_of_mem_changes p hp)]
    exact hq
  · rw [hp] at hcall
    exact hcall

namespace FetcherCall

variable {c : FetcherCall}

theorem ensureParent_ends (c : FetcherCall) (text : String) (s : Session) :
    Fallible.Ensures c.env.handler Fallible.AnyCall
      (PackageFetcher.ensureParent text c.destination)
      (fun _ s' => c.parentMade s = some (s'.fs, s'.trace.length) ∧ s'.fs.files = s.fs.files)
      (fun _ s' => c.parentMade s = none ∧ s'.fs.files = s.fs.files) s := by
  unfold PackageFetcher.ensureParent parentMade
  cases c.destination.parent with
  | none => exact Fallible.ensures_pure.mpr ⟨rfl, rfl⟩
  | some parent =>
      refine Fallible.ensures_bind.mpr (Fallible.ensures_perform.mpr ⟨trivial, ?_⟩)
      simp only [FetchEnv.handler, FetchEnv.outcome, FetchEnv.faulty]
      cases c.env.fault s.trace.length with
      | some e => exact Fallible.ensures_throw.mpr ⟨rfl, rfl⟩
      | none =>
          cases hblocks : s.fs.blocks parent with
          | true => exact Fallible.ensures_throw.mpr ⟨rfl, rfl⟩
          | false =>
              refine Fallible.ensures_pure.mpr ⟨?_, rfl⟩
              simp [List.length_append]

/-- The temporary file is created exactly if nothing is in the way, and is empty. -/
theorem opening_ends (c : FetcherCall) (s : Session) :
    Fallible.Ensures c.env.handler Fallible.AnyCall c.opening
      (fun response s' => ∃ fs n, c.opens s = some (response, fs, n) ∧ s'.trace.length = n + 1 ∧
        s'.fs = fs.write c.tmpPath [] ∧ fs.files = s.fs.files)
      (fun _ s' => c.opens s = none ∧ s'.fs.files = s.fs.files) s := by
  unfold opening opens
  refine Fallible.ensures_bind.mpr (Fallible.ensures_orFail.mpr ⟨fun _ hurl => ?_,
    fun e hurl => ⟨by rw [hurl]; rfl, rfl⟩⟩)
  have hvalid : (PackageFetcher.validateDownloadUrl c.url).isOk = true := by
    rw [hurl]
    rfl
  rw [if_pos hvalid]
  refine Fallible.ensures_bind.mpr (Fallible.ensures_mono (c.ensureParent_ends _ s)
    (fun _ s₁ h₁ => ?_) fun _ s₁ h₁ => ⟨by rw [h₁.1]; rfl, h₁.2⟩)
  obtain ⟨hmade, hfiles⟩ := h₁
  rw [hmade]
  refine Fallible.ensures_bind.mpr (Fallible.ensures_bind.mpr (Fallible.ensures_perform.mpr
    ⟨trivial, ?_⟩))
  simp only [Option.bind_some, FetchEnv.handler, FetchEnv.outcome]
  cases c.env.server s₁.trace.length c.request with
  | error e => cases e <;> exact Fallible.ensures_throw.mpr ⟨rfl, hfiles⟩
  | ok response =>
      refine Fallible.ensures_pure.mpr (Fallible.ensures_bind.mpr (Fallible.ensures_orFail.mpr
        ⟨fun _ hcheck => ?_, fun e hcheck => ⟨?_, hfiles⟩⟩))
      swap
      · simp [Except.toOption, hcheck, Except.isOk, Except.toBool]
      refine Fallible.ensures_bind.mpr (Fallible.ensures_bind.mpr (Fallible.ensures_perform.mpr
        ⟨trivial, ?_⟩))
      have hchecked : (c.fetcher.checkResponse response c.expectedSize).isOk = true := by
        rw [hcheck]
        rfl
      have hcreate := FetchEnv.outcome_createFile_eq c.env (s₁.trace.length + 1) s₁.fs c.tmpPath
      simp only [FetchEnv.handler, List.length_append, List.length_singleton, Except.toOption,
        Option.bind_some, hchecked, Bool.true_and]
      split_ifs at hcreate with hopen
      · rw [hcreate, if_pos hopen]
        refine Fallible.ensures_pure.mpr (Fallible.ensures_pure.mpr
          ⟨s₁.fs, s₁.trace.length + 1, rfl, ?_, rfl, hfiles⟩)
        rw [List.length_append, List.length_append]
        rfl
      · obtain ⟨e, hcreate⟩ := hcreate
        rw [hcreate, if_neg hopen]
        exact Fallible.ensures_throw.mpr ⟨rfl, hfiles⟩

/-- The digest of the new file is looked at without a change. -/
theorem verifyExpected_ends (c : FetcherCall) {s : Session} {data : Bytes}
    (hdata : s.fs.get? c.tmpPath = some data) :
    Fallible.Ensures c.env.handler Fallible.AnyCall
      (PackageFetcher.verifyExpected c.env.hash c.tmpPath c.expectedDigest)
      (fun _ s' => c.digestMatches data s.trace.length = true ∧ s'.fs = s.fs ∧
        s'.trace.length =
          if c.expectedDigest.isSome then s.trace.length + 2 else s.trace.length)
      (fun _ s' => c.digestMatches data s.trace.length = false ∧ s'.fs = s.fs) s := by
  unfold digestMatches
  cases c.expectedDigest with
  | none => exact Fallible.ensures_pure.mpr ⟨rfl, rfl, rfl⟩
  | some digest =>
      refine Fallible.ensures_bind.mpr (Fallible.ensures_mono
        (StreamingHasher.hashFile_of_get? c.env digest.algorithm hdata)
        (fun actual s₁ h₁ => ?_) fun e s₁ h₁ => ?_)
      · obtain ⟨hhash, hfs, hlength⟩ := h₁
        simp only [Option.all_some, hhash, Option.any_some]
        refine Fallible.ensures_ite.mpr ⟨fun hdiffers => ?_, fun hsame => ?_⟩
        · exact Fallible.ensures_throw.mpr ⟨by simpa using hdiffers, hfs⟩
        · exact Fallible.ensures_pure.mpr ⟨by simpa using hsame, hfs, hlength⟩
      · obtain ⟨hhash, hfs⟩ := h₁
        exact ⟨by rw [Option.all_some, hhash]; rfl, hfs⟩

/-- What the code behind the creation does with the new file. -/
theorem finish_ends (c : FetcherCall) (response : HttpResponse) {s : Session} {fs : FileSystem}
    {n : Nat} (hnew : s.fs.get? c.tmpPath = some []) (hlength : s.trace.length = n + 1)
    (hdirs : s.fs.dirs = fs.dirs) :
    Fallible.Ensures c.env.handler Fallible.AnyCall (c.finish response)
      (fun _ _ => c.finishEnd response fs n = .ok ())
      (fun _ s' => ∃ f, c.finishEnd response fs n = .error f ∧ f.Leaves c.tmpPath s' ∧
        Elsewhere c.tmpPath s s') s := by
  unfold finish finishEnd
  have hbody := Fallible.ensures_and
    (streamBody_ends c.env c.fetcher.config.maxResponseSize response.body hnew)
    ((streamBody_elsewhere c.env c.fetcher.config.maxResponseSize c.tmpPath response.body
      0).ensures s)
  rw [hlength] at hbody
  refine Fallible.ensures_bind.mpr (Fallible.ensures_mono hbody (fun total s₁ h₁ => ?_)
    fun e s₁ h₁ => ?_)
  · obtain ⟨⟨data, hend, hdata⟩, helse⟩ := h₁
    have hleft : (s₁.fs.get? c.tmpPath).isSome = true :=
      Option.isSome_iff_exists.mpr ⟨data, hdata⟩
    rw [hend]
    refine Fallible.ensures_bind.mpr (Fallible.ensures_bind.mpr (Fallible.ensures_perform.mpr
      ⟨trivial, ?_⟩))
    simp only [FetchEnv.handler, FetchEnv.outcome, FetchEnv.faulty, Except.bind]
    cases hflush : c.env.fault s₁.trace.length with
    | some e =>
        exact Fallible.ensures_throw.mpr
          ⟨.flushFailed, rfl, hleft, helse.of_fs_eq rfl⟩
    | none =>
        refine Fallible.ensures_pure.mpr ?_
        simp only [Option.isSome_none, Bool.false_eq_true, if_false]
        have hverify := @verifyExpected_ends c ⟨s₁.fs, s₁.trace ++ [.flush c.tmpPath]⟩ data hdata
        simp only [List.length_append, List.length_singleton] at hverify
        refine Fallible.ensures_bind.mpr (Fallible.ensures_mono hverify (fun _ s₂ h₂ => ?_)
          fun e s₂ h₂ => ?_)
        · obtain ⟨hmatches, hfs, hcalls⟩ := h₂
          have hdata₂ : s₂.fs.get? c.tmpPath = some data := by
            rw [hfs]
            exact hdata
          have hdirs₂ : s₂.fs.dirs = fs.dirs := by
            rw [hfs]
            exact helse.dirs.trans hdirs
          have hrename := FetchEnv.outcome_rename_eq c.env s₂.trace.length c.destination hdata₂
          rw [hcalls, FileSystem.isDir, FileSystem.parentIsDir, hdirs₂] at hrename
          rw [hmatches]
          refine Fallible.ensures_bind.mpr (Fallible.ensures_bind.mpr
            (Fallible.ensures_perform.mpr ⟨trivial, ?_⟩))
          simp only [FetchEnv.handler, hcalls, FileSystem.isDir, FileSystem.parentIsDir,
            Bool.not_true, Bool.false_eq_true, if_false]
          generalize (if c.expectedDigest.isSome = true then s₁.trace.length + 1 + 2
            else s₁.trace.length + 1) = calls at hrename ⊢
          split_ifs at hrename with hblocked
          · obtain ⟨e, hrename⟩ := hrename
            simp only [hrename, hblocked, if_true]
            refine Fallible.ensures_throw.mpr ⟨.renameFailed, rfl, ?_, helse.of_fs_eq hfs⟩
            exact Option.isSome_iff_exists.mpr ⟨data, hdata₂⟩
          · simp only [hrename, hblocked]
            exact Fallible.ensures_pure.mpr (Fallible.ensures_pure.mpr rfl)
        · obtain ⟨hdiffers, hfs⟩ := h₂
          rw [hdiffers]
          refine ⟨.digestFailed, rfl, ?_, helse.of_fs_eq hfs⟩
          show (s₂.fs.get? c.tmpPath).isSome = true
          rw [hfs]
          exact hleft
  · obtain ⟨⟨f, hend, hleaves⟩, helse⟩ := h₁
    rw [hend]
    exact ⟨f, rfl, hleaves, helse⟩

/-- What the call leaves behind at each of its ends. -/
theorem run_ends (c : FetcherCall) (s : Session) :
    Fallible.Ensures c.env.handler Fallible.AnyCall c.program
      (fun _ _ => c.ends s = .ok ())
      (fun _ s' => c.opens s = none ∧ s'.fs.files = s.fs.files ∨
        (c.opens s).isSome = true ∧ ∃ f, c.ends s = .error f ∧ f.Leaves c.tmpPath s' ∧
          ∀ q : Path, q.resolve ≠ c.tmpPath.resolve → s'.fs.get? q = s.fs.get? q) s := by
  rw [program_eq]
  refine Fallible.ensures_bind.mpr (Fallible.ensures_mono (c.opening_ends s)
    (fun response s₁ h₁ => ?_) fun e s₁ h₁ => Or.inl h₁)
  obtain ⟨fs, n, hopens, hlength, hfs, hfiles⟩ := h₁
  have hnew : s₁.fs.get? c.tmpPath = some [] := by
    rw [hfs]
    exact FileSystem.get?_write_self _ _ _
  have hends : c.ends s = c.finishEnd response fs n := by
    rw [ends, hopens]
  rw [hends, hopens]
  refine Fallible.ensures_mono (c.finish_ends response hnew hlength (by rw [hfs]; rfl))
    (fun _ _ h => h) fun e s₂ h₂ => Or.inr ⟨rfl, ?_⟩
  obtain ⟨f, hf, hleaves, helse⟩ := h₂
  refine ⟨f, hf, hleaves, fun q hq => (helse.files q hq).trans ?_⟩
  rw [hfs, FileSystem.get?_write_of_ne _ _ hq]
  show fs.files.lookup q.resolve = s.fs.files.lookup q.resolve
  rw [hfiles]

/-- The run creates its temporary file. -/
def Creates (c : FetcherCall) (s : Session) : Prop :=
  (c.opening.run.run c.env.handler s).1.isOk = true

/-- If the call fails, the destination is as it was, and no temporary file of the call is
left. -/
def CleansUp (c : FetcherCall) (s : Session) : Prop :=
  ∀ e s', c.run s = (.error e, s') → s'.fs.get? c.destination = s.fs.get? c.destination ∧
    (c.Creates s → s'.fs.get? c.tmpPath = none)

theorem creates_iff {s : Session} : c.Creates s ↔ (c.opens s).isSome = true := by
  have hopening := c.opening_ends s
  unfold Creates
  rcases hrun : CallProg.run c.env.handler c.opening.run s with ⟨e | response, s₁⟩
  · obtain ⟨hnone, -⟩ := hopening.of_error hrun
    rw [hnone]
    exact iff_of_false Bool.false_ne_true Bool.false_ne_true
  · obtain ⟨fs, n, hsome, -⟩ := hopening.of_ok hrun
    rw [hsome]
    exact iff_of_true rfl rfl

/-- The failures after which the temporary file is left, or a destination is gone that is its
own temporary file. -/
def FailsOpen (c : FetcherCall) (s : Session) : Prop :=
  ∃ f, c.ends s = .error f ∧ f ≠ .notOpened ∧
    (f = .tooLong true → c.destination.resolve = c.tmpPath.resolve ∧
      (s.fs.get? c.destination).isSome = true)

/-- The temporary file goes away by the removal at the size limit only. -/
theorem leaves_none_iff {f : FetchFailure} {path : Path} {s : Session} (h : f.Leaves path s) :
    s.fs.get? path = none ↔ f = .tooLong true := by
  cases f with
  | notOpened => exact h.elim
  | tooLong removed =>
      cases removed with
      | true => exact iff_of_true h rfl
      | false => exact iff_of_false (Option.isSome_iff_ne_none.mp h) (by simp)
  | readFailed => exact iff_of_false (Option.isSome_iff_ne_none.mp h) (by simp)
  | writeFailed => exact iff_of_false (Option.isSome_iff_ne_none.mp h) (by simp)
  | flushFailed => exact iff_of_false (Option.isSome_iff_ne_none.mp h) (by simp)
  | digestFailed => exact iff_of_false (Option.isSome_iff_ne_none.mp h) (by simp)
  | renameFailed => exact iff_of_false (Option.isSome_iff_ne_none.mp h) (by simp)

theorem cleansUp_iff (c : FetcherCall) (s : Session) : c.CleansUp s ↔ ¬ c.FailsOpen s := by
  have hends := c.run_ends s
  unfold CleansUp
  rcases hrun : c.run s with ⟨e | result, s'⟩
  · rcases hends.of_error hrun with ⟨hopens, hfiles⟩ | ⟨hopens, f, hf, hleaves, hothers⟩
    · -- Nothing was created.
      refine iff_of_true ?_ ?_
      · intro e₁ s₁ heq
        cases heq
        refine ⟨congrArg (fun files => files.lookup c.destination.resolve) hfiles, ?_⟩
        intro hcreates
        rw [creates_iff, hopens] at hcreates
        cases hcreates
      · rintro ⟨f, hf, hopened, -⟩
        rw [ends, hopens] at hf
        cases hf
        exact hopened rfl
    · have hcreates : c.Creates s := creates_iff.mpr hopens
      have hopened : f ≠ .notOpened := by
        rintro rfl
        exact hleaves
      by_cases hremoved : f = .tooLong true
      · have hgone : s'.fs.get? c.tmpPath = none := (leaves_none_iff hleaves).mpr hremoved
        by_cases hsame : c.destination.resolve = c.tmpPath.resolve
        · have hlost : s'.fs.get? c.destination = none := by
            rw [FileSystem.get?_congr _ hsame, hgone]
          constructor
          · rintro hcleans ⟨f', hf', -, hthere⟩
            rw [hf] at hf'
            cases hf'
            obtain ⟨hdest, -⟩ := hcleans e s' rfl
            rw [← hdest, hlost] at hthere
            exact absurd (hthere hremoved).2 Bool.false_ne_true
          · intro hnot e₁ s₁ heq
            cases heq
            refine ⟨?_, fun _ => hgone⟩
            rw [hlost]
            by_contra hthere
            refine hnot ⟨f, hf, hopened, fun _ => ⟨hsame, ?_⟩⟩
            exact Option.isSome_iff_ne_none.mpr (Ne.symm hthere)
        · refine iff_of_true ?_ ?_
          · intro e₁ s₁ heq
            cases heq
            exact ⟨hothers _ hsame, fun _ => hgone⟩
          · rintro ⟨f', hf', -, hthere⟩
            rw [hf] at hf'
            cases hf'
            exact hsame (hthere hremoved).1
      · refine iff_of_false ?_ ?_
        · intro hcleans
          exact hremoved ((leaves_none_iff hleaves).mp ((hcleans e s' rfl).2 hcreates))
        · exact not_not.mpr ⟨f, hf, hopened, fun h => absurd h hremoved⟩
  · refine iff_of_true ?_ ?_
    · intro e s₁ heq
      cases heq
    · rintro ⟨f, hf, -⟩
      rw [hends.of_ok hrun] at hf
      cases hf

end FetcherCall

/-! ## A broken connection -/

/-- The fetch of `abc` over a connection that breaks behind its last byte. -/
def brokenCall : FetcherCall where
  fetcher := ⟨.default⟩
  env := .serving cutServer
  url := "https://packages.mission-os.org/abc.ko"
  destination := abcPath
  expectedSize := some 3
  expectedDigest := none

/-- What was received stays in the temporary file. -/
theorem not_cleansUp_brokenCall :
    (brokenCall.run ⟨.empty, []⟩).2.fs.get? brokenCall.tmpPath = some (utf8 "abc") ∧
      ¬ brokenCall.CleansUp ⟨.empty, []⟩ := by
  have hleft : (brokenCall.run ⟨.empty, []⟩).2.fs.get? brokenCall.tmpPath =
      some (utf8 "abc") := by decide +kernel
  have hfails : (brokenCall.run ⟨.empty, []⟩).1.isOk = false := by decide +kernel
  have hcreates : brokenCall.Creates ⟨.empty, []⟩ := by
    unfold FetcherCall.Creates
    decide +kernel
  refine ⟨hleft, fun hcleans => ?_⟩
  rcases hrun : brokenCall.run ⟨.empty, []⟩ with ⟨e | result, s'⟩
  · rw [hrun] at hleft
    rw [(hcleans e s' hrun).2 hcreates] at hleft
    cases hleft
  · rw [hrun] at hfails
    cases hfails

end MissionOs.Driverd
