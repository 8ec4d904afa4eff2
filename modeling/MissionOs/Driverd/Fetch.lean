import MissionOs.Driverd.Digest
import MissionOs.Lib.CallProg
import MissionOs.Rust.Path

/-!
# Fetching a package

`fetch.rs`: the secure download of a package into a temporary file, and the rename to its
destination.  The code is a program over `FetchCall`, the calls to the file system, the
network, the clock and the audit trail.

`FetchEnv` answers the calls: it decides what the server sends, which file operation fails,
and after how many bytes.  Each answer depends on the number of earlier calls, so a theorem
for every `FetchEnv` is a theorem for every behaviour of the server and every pattern of
local failures.

The `u64` counters of bytes are `Nat`: no file or response has `2 ^ 64` bytes.
-/

namespace MissionOs.Driverd

open MissionOs.Rust MissionOs.Lib

/-! ## Calls -/

/-- The text of an error of a file operation. -/
abbrev FileError := String

/-- A `GET` request: the address, the `Range` header, and how many redirects the agent may
follow. -/
structure HttpRequest where
  url : String
  range : Option String
  redirects : UInt32
deriving DecidableEq, Repr

/-- `ureq::Error`: a response with an error status, or none at all. -/
inductive HttpError where
  | status (code : Nat)
  | transport (text : String)
deriving DecidableEq, Repr

/-- A response; `url` is what `get_url` returns, the address that it came from.  `body`
lists what the reads of the body return, up to the first error or the end. -/
structure HttpResponse where
  status : Nat
  url : String
  contentLength : Option String
  contentType : Option String
  contentRange : Option String
  body : List (Except FileError Bytes)

/-- The calls that a download makes.  A file is open from its creation to the last write
to it, under the path that it was created or opened at. -/
inductive FetchCall where
  | now
  | audit (event : AuditEvent)
  | request (r : HttpRequest)
  | pathExists (p : Path)
  | metadata (p : Path)
  | createDirAll (p : Path)
  | createFile (p : Path)
  | openAppend (p : Path)
  | openRead (p : Path)
  | readChunks (p : Path)
  | writeAll (p : Path) (data : Bytes)
  | flush (p : Path)
  | rename (src dest : Path)
  | removeFile (p : Path)
deriving DecidableEq, Repr

/-- What a call is answered. -/
@[reducible] def FetchCall.Reply : FetchCall → Type
  | .now => UInt64
  | .audit _ => Unit
  | .request _ => Except HttpError HttpResponse
  | .pathExists _ => Bool
  | .metadata _ => Except FileError Nat
  | .readChunks _ => Except FileError (List Bytes)
  | _ => Except FileError Unit

/-- The surroundings of a download. -/
abbrev fetchInterface : Interface where
  Call := FetchCall
  Reply := FetchCall.Reply

/-- A program of the download code. -/
abbrev Fetch (α : Type) := Fallible fetchInterface ServiceError α

/-- Make one call. -/
abbrev call (c : FetchCall) : Fetch c.Reply := Fallible.perform (I := fetchInterface) c

/-! ## The surroundings -/

/-- What the download does not decide, by the number of earlier calls. -/
structure FetchEnv where
  /-- The answer to a request. -/
  server : Nat → HttpRequest → Except HttpError HttpResponse
  /-- The addresses to which the agent is redirected, one after the other, before that
  answer. -/
  hops : Nat → HttpRequest → List String
  /-- Whether a file operation fails. -/
  fault : Nat → Option FileError
  /-- How many bytes a write that fails has written. -/
  written : Nat → Nat
  /-- The clock, in seconds since the epoch. -/
  now : Nat → UInt64
  /-- The length that the metadata of a directory shows. -/
  dirSize : Path → Nat
  /-- The error of an access to a path at which it is not possible. -/
  refused : Path → FileError
  /-- The hash functions. -/
  hash : HashFunctions
  /-- The `{:?}` form of a string. -/
  debugStr : String → String

/-- The files, and the calls made so far. -/
structure Session where
  fs : FileSystem
  trace : List FetchCall

namespace FetchEnv

variable (env : FetchEnv)

/-- A file operation that fails if it is call number `n` and that one fails. -/
def faulty {α : Type} (n : Nat) (fs : FileSystem) (r : Except FileError α × FileSystem) :
    Except FileError α × FileSystem :=
  match env.fault n with
  | some e => (.error e, fs)
  | none => r

/-- The answer to call number `n`, and the files after it.  A rename of a file onto itself
does nothing. -/
def outcome (n : Nat) (fs : FileSystem) : (c : FetchCall) → c.Reply × FileSystem
  | .now => (env.now n, fs)
  | .audit _ => ((), fs)
  | .request r => (env.server n r, fs)
  | .pathExists p => ((env.fault n).isNone && fs.pathExists p, fs)
  | .metadata p => env.faulty n fs <|
      match fs.get? p with
      | some data => (.ok data.length, fs)
      | none => if fs.isDir p then (.ok (env.dirSize p), fs) else (.error (env.refused p), fs)
  | .createDirAll p => env.faulty n fs <|
      if fs.blocks p then (.error (env.refused p), fs) else (.ok (), fs.makeDirs p)
  | .createFile p => env.faulty n fs <|
      if fs.isDir p || !fs.parentIsDir p then (.error (env.refused p), fs)
      else (.ok (), fs.write p [])
  | .openAppend p => env.faulty n fs <|
      if (fs.get? p).isSome then (.ok (), fs) else (.error (env.refused p), fs)
  | .openRead p => env.faulty n fs <|
      if fs.pathExists p then (.ok (), fs) else (.error (env.refused p), fs)
  | .readChunks p => env.faulty n fs <|
      match fs.get? p with
      | some data => (.ok (data.toChunks 65536), fs)
      | none => (.error (env.refused p), fs)
  | .writeAll p data =>
      let old := (fs.get? p).getD []
      match env.fault n with
      | some e => (.error e, fs.write p (old ++ data.take (env.written n)))
      | none => (.ok (), fs.write p (old ++ data))
  | .flush _ => env.faulty n fs (.ok (), fs)
  | .rename src dest => env.faulty n fs <|
      match fs.get? src with
      | none => (.error (env.refused src), fs)
      | some data =>
        if fs.isDir dest || !fs.parentIsDir dest then (.error (env.refused dest), fs)
        else if src.resolve = dest.resolve then (.ok (), fs)
        else (.ok (), (fs.remove src).write dest data)
  | .removeFile p => env.faulty n fs <|
      if (fs.get? p).isSome then (.ok (), fs.remove p) else (.error (env.refused p), fs)

/-- The handler of the calls of a download. -/
def handler : Handler fetchInterface Session := fun c s =>
  ((env.outcome s.trace.length s.fs c).1,
    ⟨(env.outcome s.trace.length s.fs c).2, s.trace ++ [c]⟩)

end FetchEnv

/-! ## Hashing a file -/

/-- `StreamingHasher::hash_file`. -/
def StreamingHasher.hashFile (hash : HashFunctions) (algorithm : String) (path : Path) :
    Fetch Bytes := do
  let hasher ← Fallible.orFail id (StreamingHasher.new algorithm)
  call (.openRead path) >>= Fallible.orFail fun e =>
    .internal ("cannot open file for hashing: " ++ e)
  let chunks ← call (.readChunks path) >>= Fallible.orFail fun e =>
    .internal ("error reading file for hash: " ++ e)
  return (chunks.foldl StreamingHasher.update hasher).finalize hash

/-! ## The fetcher -/

/-- `DownloadConfig`, without the timeouts. -/
structure DownloadConfig where
  maxResponseSize : Nat
  followRedirects : Bool
  maxRedirects : UInt32
deriving DecidableEq, Repr

/-- `DownloadConfig::default`. -/
def DownloadConfig.default : DownloadConfig where
  maxResponseSize := 1000000000
  followRedirects := true
  maxRedirects := 5

/-- `DownloadResult`. -/
structure DownloadResult where
  path : Path
  actualSize : Nat
  contentType : Option String
deriving DecidableEq, Repr

/-- `PackageFetcher`. -/
structure PackageFetcher where
  config : DownloadConfig
deriving DecidableEq, Repr

/-- The start of an address with a scheme that the service accepts. -/
def isAcceptedScheme (url : List Char) : Bool :=
  "https://".toList.isPrefixOf url || "file://".toList.isPrefixOf url

/-- Write what the reads of a body return to the open file `path`, up to `limit` bytes of
which `total` are there.  A read of nothing is the end.  `atLimit` is done before a body
that is too long is given up. -/
def streamBody (limit : Nat) (atLimit : Fetch Unit) (path : Path) :
    List (Except FileError Bytes) → Nat → Fetch Nat
  | [], total => return total
  | .error e :: _, _ => throw (.downloadFailed ("read error: " ++ e))
  | .ok [] :: _, total => return total
  | .ok (b :: bs) :: body, total =>
    if limit < total + (b :: bs).length then do
      atLimit
      throw (.invalidArgument
        ("download exceeded maximum size of " ++ toString limit ++ " bytes"))
    else do
      call (.writeAll path (b :: bs)) >>= Fallible.orFail fun e =>
        .internal ("file write error: " ++ e)
      streamBody limit atLimit path body (total + (b :: bs).length)

namespace PackageFetcher

variable (fetcher : PackageFetcher)

/-- `PackageFetcher::validate_download_url`. -/
def validateDownloadUrl (url : String) : ServiceResult Unit :=
  let url := trim url.toList
  if url.isEmpty then
    .error (.invalidArgument "download URL must not be empty")
  else if !isAcceptedScheme url then
    .error (.invalidArgument ("download URL scheme must be HTTPS: " ++ String.ofList url))
  else if "https://".toList.isPrefixOf url && (url.drop 8).contains '@' then
    .error (.invalidArgument "URL must not contain embedded credentials")
  else if 2048 < (utf8 (String.ofList url)).length then
    .error (.invalidArgument "URL exceeds maximum length (2048)")
  else
    .ok ()

/-- The checks of `download_to_file` on a response before its body is read. -/
def checkResponse (response : HttpResponse) (expectedSize : Option Nat) :
    ServiceResult Unit := do
  if !isAcceptedScheme response.url.toList then
    throw (.invalidArgument "redirect to non-HTTPS URL rejected")
  -- A Content-Length that is no number is no check.
  let contentLength := response.contentLength.bind fun s =>
    (parseUnsigned (2 ^ 64) s.toList).toOption
  match contentLength with
  | none => return ()
  | some len => do
    if let some expected := expectedSize then
      if len ≠ expected then
        throw (.invalidArgument ("Content-Length mismatch: expected " ++ toString expected ++
          ", got " ++ toString len))
    if fetcher.config.maxResponseSize < len then
      throw (.invalidArgument ("response size " ++ toString len ++ " exceeds maximum " ++
        toString fetcher.config.maxResponseSize))

/-- `PackageFetcher::download_to_file`. -/
def downloadToFile (url : String) (tmpPath : Path) (expectedSize : Option Nat) :
    Fetch DownloadResult := do
  let response ← call (.request
      ⟨url, none, if fetcher.config.followRedirects then fetcher.config.maxRedirects else 0⟩)
    >>= Fallible.orFail fun
      | .status code => .downloadFailed ("HTTP " ++ toString code)
      | .transport text => .downloadFailed text
  Fallible.orFail id (fetcher.checkResponse response expectedSize)
  call (.createFile tmpPath) >>= Fallible.orFail fun e =>
    .internal ("cannot create temp file: " ++ e)
  let total ← streamBody fetcher.config.maxResponseSize
    (discard (call (.removeFile tmpPath))) tmpPath response.body 0
  call (.flush tmpPath) >>= Fallible.orFail fun e => .internal ("file flush error: " ++ e)
  return ⟨tmpPath, total, response.contentType⟩

/-- `PackageFetcher::verify_digest`. -/
def verifyDigest (hash : HashFunctions) (path : Path) (expected : PackageDigest) :
    Fetch Unit := do
  let actual ← StreamingHasher.hashFile hash expected.algorithm path
  if !expected.matches actual then
    throw (.verificationFailed ("package digest mismatch: expected " ++ expected.algorithm ++
      ":" ++ expected.toHex))

/-- The directory that a file is to stand in is made; `text` begins the message of a
failure. -/
def ensureParent (text : String) (p : Path) : Fetch Unit :=
  match p.parent with
  | some parent =>
    call (.createDirAll parent) >>= Fallible.orFail fun e => .internal (text ++ e)
  | none => pure ()

/-- The digest check of `PackageFetcher::download`, if a digest is expected. -/
def verifyExpected (hash : HashFunctions) (path : Path) : Option PackageDigest → Fetch Unit
  | some digest => verifyDigest hash path digest
  | none => pure ()

/-- `PackageFetcher::download`.  The path in the result is that of the temporary file. -/
def download (hash : HashFunctions) (url : String) (destination : Path)
    (expectedSize : Option Nat) (expectedDigest : Option PackageDigest) :
    Fetch DownloadResult := do
  Fallible.orFail id (validateDownloadUrl url)
  ensureParent "cannot create download directory: " destination
  let tmpPath := destination.withExtension "tmp"
  let result ← fetcher.downloadToFile url tmpPath expectedSize
  verifyExpected hash tmpPath expectedDigest
  call (.rename tmpPath destination) >>= Fallible.orFail fun e =>
    .internal ("atomic rename failed: " ++ e)
  return result

end PackageFetcher

/-! ## What the calls do -/

/-- A call that leaves the files as they are. -/
def FetchCall.isRead : FetchCall → Bool
  | .createDirAll _ | .createFile _ | .writeAll _ _ | .rename _ _ | .removeFile _ => false
  | _ => true

/-- The files that a call may change. -/
def FetchCall.changes : FetchCall → List Path
  | .createFile p | .writeAll p _ | .removeFile p => [p]
  | .rename src dest => [src, dest]
  | _ => []

namespace FetchEnv

variable {env : FetchEnv} {n : Nat} {fs : FileSystem}

/-- An operation that can fail fails and changes nothing, or is as if it could not. -/
theorem faulty_cases {α : Type} (env : FetchEnv) (n : Nat) (fs : FileSystem)
    (r : Except FileError α × FileSystem) :
    (∃ e, env.faulty n fs r = (.error e, fs)) ∨ env.faulty n fs r = r := by
  unfold faulty
  cases env.fault n with
  | some e => exact Or.inl ⟨e, rfl⟩
  | none => exact Or.inr rfl

theorem faulty_snd {α : Type} {r : Except FileError α × FileSystem} (h : r.2 = fs) :
    (env.faulty n fs r).2 = fs := by
  rcases faulty_cases env n fs r with ⟨e, he⟩ | hr
  · rw [he]
  · rw [hr, h]

theorem outcome_of_isRead {c : FetchCall} (h : c.isRead = true) :
    (env.outcome n fs c).2 = fs := by
  cases c with
  | now => rfl
  | audit e => rfl
  | request r => rfl
  | pathExists p => rfl
  | flush p => exact faulty_snd rfl
  | metadata p =>
      refine faulty_snd ?_
      split
      · rfl
      · split <;> rfl
  | openAppend p => exact faulty_snd (by split <;> rfl)
  | openRead p => exact faulty_snd (by split <;> rfl)
  | readChunks p => exact faulty_snd (by split <;> rfl)
  | createDirAll p => cases h
  | createFile p => cases h
  | writeAll p data => cases h
  | rename src dest => cases h
  | removeFile p => cases h

/-- A call changes no files but those that it is made to change. -/
theorem outcome_lookup {c : FetchCall} {l : List String} (h : ∀ p ∈ c.changes, l ≠ p.resolve) :
    (env.outcome n fs c).2.files.lookup l = fs.files.lookup l := by
  have hfaulty : ∀ {α : Type} {r : Except FileError α × FileSystem},
      r.2.files.lookup l = fs.files.lookup l →
      (env.faulty n fs r).2.files.lookup l = fs.files.lookup l := by
    intro α r hr
    rcases faulty_cases env n fs r with ⟨e, he⟩ | hr'
    · rw [he]
    · rw [hr', hr]
  cases c with
  | createDirAll p => exact hfaulty (by split <;> rfl)
  | createFile p =>
      have hp : l ≠ p.resolve := h p (by simp [FetchCall.changes])
      refine hfaulty ?_
      split
      · rfl
      · exact FileSystem.lookup_write_of_ne fs _ hp
  | writeAll p data =>
      have hp : l ≠ p.resolve := h p (by simp [FetchCall.changes])
      simp only [outcome]
      split
      · exact FileSystem.lookup_write_of_ne fs _ hp
      · exact FileSystem.lookup_write_of_ne fs _ hp
  | rename src dest =>
      have hsrc : l ≠ src.resolve := h src (by simp [FetchCall.changes])
      have hdest : l ≠ dest.resolve := h dest (by simp [FetchCall.changes])
      refine hfaulty ?_
      split
      · rfl
      · split_ifs
        · rfl
        · rfl
        · exact (FileSystem.lookup_write_of_ne _ _ hdest).trans
            (FileSystem.lookup_remove_of_ne fs hsrc)
  | removeFile p =>
      have hp : l ≠ p.resolve := h p (by simp [FetchCall.changes])
      refine hfaulty ?_
      split
      · exact FileSystem.lookup_remove_of_ne fs hp
      · rfl
  | now => rfl
  | audit e => rfl
  | request r => rfl
  | pathExists p => rfl
  | metadata p => rw [outcome_of_isRead rfl]
  | flush p => rw [outcome_of_isRead rfl]
  | openAppend p => rw [outcome_of_isRead rfl]
  | openRead p => rw [outcome_of_isRead rfl]
  | readChunks p => rw [outcome_of_isRead rfl]

theorem outcome_get? {c : FetchCall} {q : Path}
    (h : ∀ p ∈ c.changes, q.resolve ≠ p.resolve) :
    (env.outcome n fs c).2.get? q = fs.get? q := outcome_lookup h

/-- A file is created where none could be in the way, and is empty. -/
theorem createFile_cases (env : FetchEnv) (n : Nat) (fs : FileSystem) (p : Path) :
    (∃ e, env.outcome n fs (.createFile p) = (.error e, fs)) ∨
      fs.isDir p = false ∧ fs.parentIsDir p = true ∧
        env.outcome n fs (.createFile p) = (.ok (), fs.write p []) := by
  simp only [outcome]
  rcases faulty_cases env n fs (if fs.isDir p || !fs.parentIsDir p
      then (.error (env.refused p), fs) else (.ok (), fs.write p [])) with ⟨e, he⟩ | hr
  · exact Or.inl ⟨e, he⟩
  · rw [hr]
    by_cases hp : fs.isDir p || !fs.parentIsDir p
    · exact Or.inl ⟨env.refused p, by rw [if_pos hp]⟩
    · have hplace : fs.isDir p = false ∧ fs.parentIsDir p = true := by simpa using hp
      exact Or.inr ⟨hplace.1, hplace.2, by rw [if_neg hp]⟩

/-- A file is opened only if it is there. -/
theorem openAppend_cases (env : FetchEnv) (n : Nat) (fs : FileSystem) (p : Path) :
    (∃ e, env.outcome n fs (.openAppend p) = (.error e, fs)) ∨
      env.fault n = none ∧ ∃ data, fs.get? p = some data ∧
        env.outcome n fs (.openAppend p) = (.ok (), fs) := by
  simp only [outcome, faulty]
  cases env.fault n with
  | some e => exact Or.inl ⟨e, rfl⟩
  | none =>
      cases hp : fs.get? p with
      | none => exact Or.inl ⟨env.refused p, rfl⟩
      | some data => exact Or.inr ⟨rfl, data, rfl, rfl⟩

/-- A rename fails and changes nothing, or moves a file. -/
theorem rename_cases (env : FetchEnv) (n : Nat) (fs : FileSystem) (src dest : Path) :
    (∃ e, env.outcome n fs (.rename src dest) = (.error e, fs)) ∨
      ∃ data, fs.get? src = some data ∧ env.outcome n fs (.rename src dest) =
        (.ok (), if src.resolve = dest.resolve then fs else (fs.remove src).write dest data) := by
  simp only [outcome]
  rcases faulty_cases env n fs (match fs.get? src with
      | none => (.error (env.refused src), fs)
      | some data =>
        if fs.isDir dest || !fs.parentIsDir dest then (.error (env.refused dest), fs)
        else if src.resolve = dest.resolve then (.ok (), fs)
        else (.ok (), (fs.remove src).write dest data)) with ⟨e, he⟩ | hr
  · exact Or.inl ⟨e, he⟩
  · rw [hr]
    cases hsrc : fs.get? src with
    | none => exact Or.inl ⟨_, rfl⟩
    | some data =>
        by_cases hdir : fs.isDir dest || !fs.parentIsDir dest
        · exact Or.inl ⟨_, if_pos hdir⟩
        · refine Or.inr ⟨data, rfl, ?_⟩
          simp only [if_neg hdir]
          split_ifs <;> rfl

/-- After a rename the destination holds what the source held. -/
theorem rename_ok {src dest : Path} {u : Unit}
    (h : (env.outcome n fs (.rename src dest)).1 = .ok u) :
    (env.outcome n fs (.rename src dest)).2.get? dest = fs.get? src := by
  rcases rename_cases env n fs src dest with ⟨e, he⟩ | ⟨data, hdata, hmoved⟩
  · rw [he] at h
    cases h
  · rw [hmoved]
    by_cases hsame : src.resolve = dest.resolve
    · simp only [if_pos hsame]
      exact FileSystem.get?_congr fs hsame.symm
    · simp only [if_neg hsame]
      rw [FileSystem.get?_write_self, hdata]

/-- A removal fails and changes nothing, or removes the file. -/
theorem removeFile_cases (env : FetchEnv) (n : Nat) (fs : FileSystem) (p : Path) :
    (∃ e, env.outcome n fs (.removeFile p) = (.error e, fs)) ∨
      env.outcome n fs (.removeFile p) = (.ok (), fs.remove p) := by
  simp only [outcome]
  rcases faulty_cases env n fs (if (fs.get? p).isSome then (.ok (), fs.remove p)
      else (.error (env.refused p), fs)) with ⟨e, he⟩ | hr
  · exact Or.inl ⟨e, he⟩
  · rw [hr]
    by_cases hp : (fs.get? p).isSome
    · exact Or.inr (if_pos hp)
    · exact Or.inl ⟨_, if_neg hp⟩

/-- Without a failure a directory is made where no file is in the way. -/
theorem outcome_createDirAll (hfault : env.fault n = none) {p : Path}
    (h : fs.blocks p = false) :
    env.outcome n fs (.createDirAll p) = (.ok (), fs.makeDirs p) := by
  simp [outcome, faulty, hfault, h]

/-- Without a failure a file is created in a directory. -/
theorem outcome_createFile (hfault : env.fault n = none) {p : Path} (hdir : fs.isDir p = false)
    (hparent : fs.parentIsDir p = true) :
    env.outcome n fs (.createFile p) = (.ok (), fs.write p []) := by
  simp [outcome, faulty, hfault, hdir, hparent]

/-- Without a failure a file is moved to a directory. -/
theorem outcome_rename (hfault : env.fault n = none) {src dest : Path} {data : Bytes}
    (hdata : fs.get? src = some data) (hdir : fs.isDir dest = false)
    (hparent : fs.parentIsDir dest = true) (hne : src.resolve ≠ dest.resolve) :
    env.outcome n fs (.rename src dest) = (.ok (), (fs.remove src).write dest data) := by
  simp [outcome, faulty, hfault, hdata, hdir, hparent, hne]

/-- A file that is there is removed, unless the removal fails. -/
theorem outcome_removeFile (env : FetchEnv) (n : Nat) {p : Path} {data : Bytes}
    (h : fs.get? p = some data) :
    (env.outcome n fs (.removeFile p)).2 =
      if (env.fault n).isSome then fs else fs.remove p := by
  simp only [outcome, faulty, h]
  cases env.fault n <;> rfl

/-- A file that is there is opened, unless the opening fails. -/
theorem outcome_openRead (env : FetchEnv) (n : Nat) {p : Path} (h : fs.pathExists p = true) :
    env.outcome n fs (.openRead p) = ((env.fault n).elim (.ok ()) .error, fs) := by
  simp only [outcome, faulty, h, if_true]
  cases env.fault n <;> rfl

/-- A file that is there is read, unless a read fails. -/
theorem outcome_readChunks (env : FetchEnv) (n : Nat) {p : Path} {data : Bytes}
    (h : fs.get? p = some data) :
    env.outcome n fs (.readChunks p) =
      ((env.fault n).elim (.ok (data.toChunks 65536)) .error, fs) := by
  simp only [outcome, faulty, h]
  cases env.fault n <;> rfl

/-- Directories are made by one call only. -/
theorem outcome_dirs {c : FetchCall} (h : ∀ p, c ≠ .createDirAll p) :
    (env.outcome n fs c).2.dirs = fs.dirs := by
  cases c with
  | createDirAll p => exact absurd rfl (h p)
  | createFile p =>
      rcases createFile_cases env n fs p with ⟨e, he⟩ | ⟨-, -, hok⟩
      · rw [he]
      · rw [hok]
        rfl
  | writeAll p data =>
      simp only [outcome]
      split <;> rfl
  | rename src dest =>
      rcases rename_cases env n fs src dest with ⟨e, he⟩ | ⟨data, -, hok⟩
      · rw [he]
      · rw [hok]
        show (if src.resolve = dest.resolve then fs else (fs.remove src).write dest data).dirs = _
        split_ifs <;> rfl
  | removeFile p =>
      rcases removeFile_cases env n fs p with ⟨e, he⟩ | hok
      · rw [he]
      · rw [hok]
        rfl
  | now => rfl
  | audit e => rfl
  | request r => rfl
  | pathExists p => rfl
  | metadata p => rw [outcome_of_isRead rfl]
  | flush p => rw [outcome_of_isRead rfl]
  | openAppend p => rw [outcome_of_isRead rfl]
  | openRead p => rw [outcome_of_isRead rfl]
  | readChunks p => rw [outcome_of_isRead rfl]

/-- A directory that is made is one more. -/
theorem createDirAll_cases (env : FetchEnv) (n : Nat) (fs : FileSystem) (p : Path) :
    (∃ e, env.outcome n fs (.createDirAll p) = (.error e, fs)) ∨
      fs.blocks p = false ∧ env.outcome n fs (.createDirAll p) = (.ok (), fs.makeDirs p) := by
  simp only [outcome]
  rcases faulty_cases env n fs (if fs.blocks p then (.error (env.refused p), fs)
      else (.ok (), fs.makeDirs p)) with ⟨e, he⟩ | hr
  · exact Or.inl ⟨e, he⟩
  · rw [hr]
    cases hp : fs.blocks p with
    | true => exact Or.inl ⟨_, rfl⟩
    | false => exact Or.inr ⟨rfl, rfl⟩

/-- No directory goes away. -/
theorem outcome_dirs_subset (env : FetchEnv) (n : Nat) (fs : FileSystem) (c : FetchCall) :
    fs.dirs ⊆ (env.outcome n fs c).2.dirs := by
  by_cases hmakes : ∃ p, c = .createDirAll p
  · obtain ⟨p, rfl⟩ := hmakes
    rcases createDirAll_cases env n fs p with ⟨e, he⟩ | ⟨-, hok⟩
    · rw [he]
      exact fun _ h => h
    · rw [hok]
      exact List.subset_append_right _ _
  · rw [outcome_dirs fun p hp => hmakes ⟨p, hp⟩]
    exact fun _ h => h

/-- The chunks of a file are its bytes. -/
theorem flatten_toChunksGo (n : Nat) (xs : Bytes) (acc₁ : Array UInt8)
    (acc₂ : Array (List UInt8)) :
    (List.toChunks.go n xs acc₁ acc₂).flatten =
      acc₂.toList.flatten ++ acc₁.toList ++ xs := by
  induction xs generalizing acc₁ acc₂ with
  | nil => simp [List.toChunks.go]
  | cons x xs ih =>
      rw [List.toChunks.go]
      split_ifs <;> simp [ih]

theorem flatten_toChunks (n : Nat) (xs : Bytes) : (xs.toChunks n).flatten = xs := by
  match n, xs with
  | _, [] => rfl
  | 0, x :: xs => simp [List.toChunks]
  | n + 1, x :: xs => simp [List.toChunks, flatten_toChunksGo]

/-- The reads of a file return its bytes. -/
theorem readChunks_ok {p : Path} {chunks : List Bytes}
    (h : (env.outcome n fs (.readChunks p)).1 = .ok chunks) :
    fs.get? p = some chunks.flatten := by
  simp only [outcome] at h
  rcases faulty_cases env n fs (match fs.get? p with
      | some data => (.ok (data.toChunks 65536), fs)
      | none => (.error (env.refused p), fs)) with ⟨e, he⟩ | hr
  · rw [he] at h
    cases h
  · rw [hr] at h
    cases hp : fs.get? p with
    | none =>
        rw [hp] at h
        cases h
    | some data =>
        rw [hp] at h
        cases h
        rw [flatten_toChunks]

end FetchEnv

/-- The file at a path hashes, under the algorithm of a digest, to the value of it. -/
def HasDigest (hash : HashFunctions) (digest : PackageDigest) (fs : FileSystem)
    (p : Path) : Prop :=
  ∃ inner data, HashAlgorithm.ofName digest.algorithm = some inner ∧ fs.get? p = some data ∧
    hash.digest inner data = digest.value

/-- The hash that `hash_file` returns is that of the bytes at the path. -/
theorem StreamingHasher.hashFile_ensures (env : FetchEnv) (algorithm : String) (path : Path)
    (s : Session) :
    Fallible.Ensures env.handler Fallible.AnyCall (hashFile env.hash algorithm path)
      (fun digest s' => s'.fs = s.fs ∧ ∃ inner data,
        HashAlgorithm.ofName algorithm = some inner ∧ s.fs.get? path = some data ∧
          digest = env.hash.digest inner data)
      (fun _ s' => s'.fs = s.fs) s := by
  have hopen : ∀ s : Session, (env.handler (.openRead path) s).2.fs = s.fs :=
    fun s => FetchEnv.outcome_of_isRead rfl
  have hread : ∀ s : Session, (env.handler (.readChunks path) s).2.fs = s.fs :=
    fun s => FetchEnv.outcome_of_isRead rfl
  unfold hashFile
  refine Fallible.ensures_bind.mpr (Fallible.ensures_orFail.mpr
    ⟨fun hasher hnew => ?_, fun _ _ => rfl⟩)
  refine Fallible.ensures_bind.mpr (Fallible.ensures_bind.mpr (Fallible.ensures_perform.mpr
    ⟨trivial, Fallible.ensures_orFail.mpr ⟨fun _ _ => ?_, fun _ _ => hopen s⟩⟩))
  refine Fallible.ensures_bind.mpr (Fallible.ensures_bind.mpr (Fallible.ensures_perform.mpr
    ⟨trivial, Fallible.ensures_orFail.mpr ⟨fun chunks hchunks => ?_, fun _ _ => ?_⟩⟩))
  · obtain ⟨inner, hinner, rfl⟩ := StreamingHasher.eq_of_new hnew
    refine Fallible.ensures_pure.mpr ⟨?_, inner, chunks.flatten, hinner, ?_, ?_⟩
    · rw [hread, hopen]
    · have hdata := FetchEnv.readChunks_ok hchunks
      rwa [hopen] at hdata
    · rw [StreamingHasher.foldl_update]
      rfl
  · rw [hread, hopen]

end MissionOs.Driverd
