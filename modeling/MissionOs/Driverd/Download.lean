import MissionOs.Driverd.Fetch

/-!
# Downloads with resume and retry

The download state machine of `download.rs`.  A download resumes from a partial file if
there is one, tries again after a transient error, and checks the digest of what it got
before it returns.

The backoff between two attempts is not modelled, and neither are the fields of the
tracker that only identify the download.
-/

namespace MissionOs.Driverd

open MissionOs.Rust MissionOs.Lib

/-! ## The state of a download -/

/-- `DownloadState`. -/
inductive DownloadState where
  | idle
  | metadataFetch
  | metadataVerified
  | downloadStarted
  | downloadResumed
  | downloadRetry
  | downloadComplete
  | digestVerify
  | staged
  | failed
  | cleanup
deriving DecidableEq, Repr

/-- The `{:?}` form of a `DownloadState`. -/
def DownloadState.debug : DownloadState → String
  | .idle => "Idle"
  | .metadataFetch => "MetadataFetch"
  | .metadataVerified => "MetadataVerified"
  | .downloadStarted => "DownloadStarted"
  | .downloadResumed => "DownloadResumed"
  | .downloadRetry => "DownloadRetry"
  | .downloadComplete => "DownloadComplete"
  | .digestVerify => "DigestVerify"
  | .staged => "Staged"
  | .failed => "Failed"
  | .cleanup => "Cleanup"

/-- `RetryPolicy`, without the backoff. -/
structure RetryPolicy where
  maxRetries : UInt32
deriving DecidableEq, Repr

namespace RetryPolicy

/-- `RetryPolicy::default`. -/
def default : RetryPolicy := ⟨3⟩

/-- `RetryPolicy::should_retry`. -/
def shouldRetry (policy : RetryPolicy) (error : ServiceError) : Bool :=
  if policy.maxRetries = 0 then false
  else match error with
    | .downloadFailed _ => true
    | .backendUnavailable _ => true
    | _ => false

end RetryPolicy

/-- `DownloadTracker`. -/
structure DownloadTracker where
  state : DownloadState
  digest : PackageDigest
  url : String
  destination : Path
  retryCount : Nat
  bytesDownloaded : Nat
  expectedSize : Option Nat
  error : Option String
deriving DecidableEq, Repr

/-- `DownloadTracker::new`. -/
def DownloadTracker.new (digest : PackageDigest) (url : String) (destination : Path)
    (expectedSize : Option Nat) : DownloadTracker where
  state := .idle
  digest := digest
  url := url
  destination := destination
  retryCount := 0
  bytesDownloaded := 0
  expectedSize := expectedSize
  error := none

/-- The tracker after an attempt that failed with `e`. -/
def DownloadTracker.after (tracker : DownloadTracker) (e : ServiceError)
    (state : DownloadState) : DownloadTracker :=
  { tracker with
    state := state
    retryCount := tracker.retryCount + 1
    error := some e.display }

/-- `ResumeManager`. -/
structure ResumeManager where
  partialDir : Path
deriving DecidableEq, Repr

namespace ResumeManager

/-- `ResumeManager::partial_path`. -/
def partialPath (manager : ResumeManager) (digest : PackageDigest) : Path :=
  manager.partialDir.join ("dl-" ++ digest.toHex ++ ".part")

/-- `ResumeManager::remove_partial`. -/
def removePartial (manager : ResumeManager) (digest : PackageDigest) : Fetch Unit := do
  if ← call (.pathExists (manager.partialPath digest)) then
    call (.removeFile (manager.partialPath digest)) >>= Fallible.orFail fun e =>
      .internal ("cannot remove partial file: " ++ e)

end ResumeManager

/-! ## The download manager -/

/-- `DownloadManager::validate_content_range`. -/
def validateContentRange (header : String) (expectedStart : Nat) :
    ServiceResult (Nat × Nat × Nat) := do
  let trimmed := trim header.toList
  if !"bytes ".toList.isPrefixOf trimmed then
    throw (.downloadFailed ("invalid Content-Range format: '" ++ header ++ "'"))
  let rangePart := trimmed.drop 6
  if "*/".toList.isPrefixOf rangePart then
    throw (.downloadFailed "server does not support range requests")
  match rangePart.splitOn '/' with
  | [range, totalPart] => do
    let total ← (parseUnsigned (2 ^ 64) totalPart).mapError fun _ =>
      .downloadFailed ("invalid Content-Range total: '" ++ String.ofList totalPart ++ "'")
    match range.splitOn '-' with
    | [startPart, endPart] => do
      let start ← (parseUnsigned (2 ^ 64) startPart).mapError fun _ =>
        .downloadFailed ("invalid Content-Range start: '" ++ String.ofList startPart ++ "'")
      let «end» ← (parseUnsigned (2 ^ 64) endPart).mapError fun _ =>
        .downloadFailed ("invalid Content-Range end: '" ++ String.ofList endPart ++ "'")
      if start ≠ expectedStart then
        throw (.downloadFailed ("Content-Range start " ++ toString start ++
          " does not match expected offset " ++ toString expectedStart))
      if «end» < start then
        throw (.downloadFailed ("Content-Range end " ++ toString «end» ++
          " is before start " ++ toString start))
      return (start, «end», total)
    | _ => throw (.downloadFailed
        ("invalid Content-Range range: '" ++ String.ofList range ++ "'"))
  | _ => throw (.downloadFailed ("invalid Content-Range: '" ++ header ++ "'"))

/-- How `resume_download` reads the error of its request. -/
def resumeError (offset : Nat) : HttpError → ServiceError
  | .status code =>
    if code = 416 then
      .downloadFailed ("HTTP 416 Range Not Satisfiable for offset " ++ toString offset)
    else if code = 206 then
      .downloadFailed ("HTTP " ++ toString code ++ " (unexpected)")
    else if 500 ≤ code then
      .downloadFailed ("HTTP " ++ toString code)
    else
      .downloadFailed ("HTTP " ++ toString code ++ " (permanent)")
  | .transport text => .downloadFailed text

/-- `DownloadManager`. -/
structure DownloadManager where
  fetcher : PackageFetcher
  retryPolicy : RetryPolicy
  resumeManager : ResumeManager
deriving DecidableEq, Repr

namespace DownloadManager

variable (manager : DownloadManager) (env : FetchEnv)

/-- `DownloadManager::audit_download`. -/
def auditDownload (tracker : DownloadTracker) (sourceId subject action : String)
    (severity : EventSeverity) : Fetch Unit := do
  let details := "source=" ++ sourceId ++ ", url=" ++ tracker.url ++
    ", state=" ++ tracker.state.debug ++ ", bytes=" ++ toString tracker.bytesDownloaded ++
    ", retries=" ++ toString tracker.retryCount ++
    ", error=" ++ env.debugStr (tracker.error.getD "none")
  let now ← call .now
  call (.audit (AuditEvent.new now .download severity action subject details))

/-- `DownloadManager::resume_download`. -/
def resumeDownload (url : String) (partialPath : Path) (offset : Nat) (destination : Path) :
    Fetch DownloadResult := do
  let response ← call (.request ⟨url, some ("bytes=" ++ toString offset ++ "-"), 0⟩)
    >>= Fallible.orFail (resumeError offset)
  if response.status = 206 then do
    let contentRange ← Fallible.orFail id (response.contentRange.elim
      (.error (.downloadFailed "server returned 206 without Content-Range header")) .ok)
    let _ ← Fallible.orFail id (validateContentRange contentRange offset)
    call (.openAppend partialPath) >>= Fallible.orFail fun e =>
      .internal ("cannot open partial file for append: " ++ e)
    let total ← streamBody manager.fetcher.config.maxResponseSize (pure ()) partialPath
      response.body offset
    call (.flush partialPath) >>= Fallible.orFail fun e =>
      .internal ("file flush error: " ++ e)
    call (.rename partialPath destination) >>= Fallible.orFail fun e =>
      .internal ("resume rename failed: " ++ e)
    return ⟨destination, total, none⟩
  else if response.status = 200 then do
    -- The server does not support ranges: start again from nothing.
    discard (call (.removeFile partialPath))
    manager.fetcher.download env.hash url destination none none
  else
    throw (.downloadFailed ("unexpected HTTP status " ++ toString response.status ++
      " for resume request"))

/-- `DownloadManager::perform_download_with_resume`. -/
def performDownloadWithResume (tracker : DownloadTracker) (partialPath : Path)
    (resumeOffset : Option Nat) : Fetch DownloadResult :=
  match resumeOffset with
  | some (offset + 1) =>
    manager.resumeDownload env tracker.url partialPath (offset + 1) tracker.destination
  | _ =>
    manager.fetcher.download env.hash tracker.url tracker.destination tracker.expectedSize none

/-- The rename of a verified file that is not at its destination already. -/
def moveVerified (verifiedPath destination : Path) : Fetch Unit :=
  if verifiedPath ≠ destination then
    call (.rename verifiedPath destination) >>= Fallible.orFail fun e =>
      .internal ("atomic rename failed: " ++ e)
  else
    pure ()

/-- What `download` does with a file that an attempt delivered: check its digest and its
size, and bring it to the destination. -/
def acceptDownload (tracker : DownloadTracker) (result : DownloadResult)
    (sourceId subject : String) : Fetch Path := do
  let destination := tracker.destination
  let digest := tracker.digest
  -- The path in the result may be that of a temporary file which is no longer there.
  let verifiedPath := if ← call (.pathExists result.path) then result.path else destination
  let tracker := { tracker with state := .digestVerify }
  let actualHash ← StreamingHasher.hashFile env.hash digest.algorithm verifiedPath
  if !digest.matches actualHash then do
    auditDownload env { tracker with state := .failed, error := some "digest mismatch" }
      sourceId subject "download_digest_mismatch" .error
    discard (call (.removeFile verifiedPath))
    discard (manager.resumeManager.removePartial digest).attempt
    throw (.verificationFailed ("digest mismatch for '" ++ digest.toHex ++ "'"))
  else if tracker.expectedSize.any (· ≠ result.actualSize) then do
    auditDownload env { tracker with state := .failed } sourceId subject
      "download_size_mismatch" .error
    discard (call (.removeFile verifiedPath))
    throw (.invalidArgument ("size mismatch: expected " ++
      toString (tracker.expectedSize.getD 0) ++ ", got " ++ toString result.actualSize))
  else do
    moveVerified verifiedPath destination
    discard (manager.resumeManager.removePartial digest).attempt
    auditDownload env { tracker with state := .staged } sourceId subject
      "download_completed" .info
    return destination

/-- One pass of the loop of `download`.  `again` is the rest of the loop, if there may be
one more attempt. -/
def attemptDownload (partialPath : Path) (existingSize : Option Nat) (sourceId subject : String)
    (again : Option (DownloadTracker → Fetch Path)) (tracker : DownloadTracker) :
    Fetch Path := do
  match ← (manager.performDownloadWithResume env tracker partialPath existingSize).attempt with
  | .ok result => manager.acceptDownload env tracker result sourceId subject
  | .error e =>
    match again, manager.retryPolicy.shouldRetry e with
    | some again, true => do
      auditDownload env (tracker.after e .downloadRetry) sourceId subject "download_retry"
        .warning
      again (tracker.after e .downloadRetry)
    | _, _ => do
      auditDownload env (tracker.after e .failed) sourceId subject "download_failed" .error
      throw e

/-- The loop of `download`, with as many more attempts allowed after the first one. -/
def attempts (partialPath : Path) (existingSize : Option Nat) (sourceId subject : String) :
    Nat → DownloadTracker → Fetch Path
  | 0 => manager.attemptDownload env partialPath existingSize sourceId subject none
  | left + 1 => manager.attemptDownload env partialPath existingSize sourceId subject
      (some (attempts partialPath existingSize sourceId subject left))

/-- Look for a partial file to resume from. -/
def findPartial (tracker : DownloadTracker) (partialPath : Path) :
    Fetch (DownloadTracker × Option Nat) := do
  if ← call (.pathExists partialPath) then
    match ← call (.metadata partialPath) with
    | .ok size =>
      return ({ tracker with state := .downloadResumed, bytesDownloaded := size }, some size)
    | .error _ => return (tracker, none)
  else
    return (tracker, none)

/-- How `download` begins: the call is recorded, a partial file is looked for, and the
directory of the destination is made. -/
def prepare (url : String) (destination : Path) (expectedDigest : PackageDigest)
    (expectedSize : Option Nat) (sourceId subject : String) :
    Fetch (DownloadTracker × Option Nat) := do
  let tracker := DownloadTracker.new expectedDigest url destination expectedSize
  auditDownload env tracker sourceId subject "download_started" .info
  let found ← findPartial tracker (manager.resumeManager.partialPath expectedDigest)
  PackageFetcher.ensureParent "cannot create directory: " destination
  return found

/-- How many more attempts the loop may make after the first one.  `max_attempts` is a
`u32`, and the first attempt is made in any case. -/
def retriesLeft : Nat := (manager.retryPolicy.maxRetries + 1).toNat - 1

/-- `DownloadManager::download`. -/
def download (url : String) (destination : Path) (expectedDigest : PackageDigest)
    (expectedSize : Option Nat) (sourceId subject : String) : Fetch Path := do
  let (tracker, existingSize) ←
    manager.prepare env url destination expectedDigest expectedSize sourceId subject
  manager.attempts env (manager.resumeManager.partialPath expectedDigest) existingSize
    sourceId subject manager.retriesLeft tracker

end DownloadManager

/-! ## A sample download -/

/-- The SHA-256 hash of the three bytes `abc`. -/
def abcHash : Bytes :=
  [0xba, 0x78, 0x16, 0xbf, 0x8f, 0x01, 0xcf, 0xea, 0x41, 0x41, 0x40, 0xde, 0x5d, 0xae, 0x22,
    0x23, 0xb0, 0x03, 0x61, 0xa3, 0x96, 0x17, 0x7a, 0x9c, 0xb4, 0x10, 0xff, 0x61, 0xf2, 0x00,
    0x15, 0xad]

/-- Surroundings in which no file operation fails, and the hash of `abc` is known. -/
def FetchEnv.serving (server : Nat → HttpRequest → Except HttpError HttpResponse) :
    FetchEnv where
  server := server
  hops _ _ := []
  fault _ := none
  written _ := 0
  now n := UInt64.ofNat n
  dirSize _ := 4096
  refused _ := "No such file or directory (os error 2)"
  hash := { sha256 := fun m => if m = utf8 "abc" then abcHash else [], blake3 := fun _ => [] }
  debugStr s := "\"" ++ s ++ "\""

/-- A server of the file `abc` that is overloaded at first, and answers range requests. -/
def busyServer (n : Nat) (r : HttpRequest) : Except HttpError HttpResponse :=
  if n < 6 then .error (.status 503)
  else if r.range = some "bytes=1-" then
    .ok ⟨206, r.url, some "2", none, some "bytes 1-2/3", [.ok (utf8 "b"), .ok (utf8 "c")]⟩
  else
    .ok ⟨200, r.url, some "3", none, none, [.ok (utf8 "abc")]⟩

/-- A manager with the default limits that keeps its partial files in the cache. -/
def DownloadManager.cached : DownloadManager where
  fetcher := ⟨.default⟩
  retryPolicy := .default
  resumeManager := ⟨Path.new "/var/cache/mission/driverd/partial"⟩

/-- A file system with a partial file of the package `abc`. -/
def abcFiles (part : Bytes) : FileSystem :=
  (FileSystem.empty.makeDirs (Path.new "/var/cache/mission/driverd/partial")).write
    (DownloadManager.cached.resumeManager.partialPath ⟨"sha256", abcHash⟩) part

/-- Where the package `abc` is downloaded to. -/
def abcPath : Path := Path.new "/var/cache/mission/driverd/packages/abc.ko"

/-- The download of `abc` from a busy server, with the byte `a` there already. -/
def abcDownload : Except ServiceError Path × Session :=
  (DownloadManager.cached.download (.serving busyServer) "https://packages.mission-os.org/abc.ko"
    abcPath ⟨"sha256", abcHash⟩ (some 3) "official" "root").run.run
      (FetchEnv.serving busyServer).handler ⟨abcFiles (utf8 "a"), []⟩

end MissionOs.Driverd
