import MissionOs.Driverd.Download
import Mathlib.Data.List.Dedup

/-!
# The package cache

`cache.rs`: the cache of driver packages.  The package with the digest `d` is the file
`pkg-<hex>` of the cache directory, beside its metadata `pkg-<hex>.meta` and, while it is
written, the partial file `pkg-<hex>.part`.

The code is a program over `CacheCall`: the file calls of `FetchCall`, the listing of a
directory and the time at which a file was modified.  `CacheEnv` answers them for one
operation of the manager.  `serde_json::to_string` and the hash functions are in `CacheHost`.
-/

namespace MissionOs.Driverd

open MissionOs.Rust MissionOs.Lib

/-! ## Calls -/

/-- The calls that the cache makes. -/
inductive CacheCall where
  | file (c : FetchCall)
  | readDir (p : Path)
  | modified (p : Path)
deriving DecidableEq, Repr

/-- What a call is answered.  A listing is what is left of it after `flatten`. -/
@[reducible] def CacheCall.Reply : CacheCall → Type
  | .file c => c.Reply
  | .readDir _ => Except FileError (List String)
  | .modified _ => Except FileError Nat

/-- The surroundings of the cache. -/
abbrev cacheInterface : Interface where
  Call := CacheCall
  Reply := CacheCall.Reply

/-- A program of the cache. -/
abbrev CacheProg (α : Type) := Fallible cacheInterface ServiceError α

/-- Make one call. -/
abbrev cacheCall (c : CacheCall) : CacheProg c.Reply := Fallible.perform (I := cacheInterface) c

/-- Make one file call. -/
abbrev fileCall (c : FetchCall) : CacheProg c.Reply := cacheCall (.file c)

/-- A program of the download code, as a program of the cache. -/
def ofFetch {α : Type} (p : Fetch α) : CacheProg α :=
  ExceptT.mk (CallProg.translate (J := cacheInterface) CacheCall.file (fun _ r => r) p.run)

/-! ## Metadata -/

/-- `CacheEntryMeta`. -/
structure CacheEntryMeta where
  packageName : String
  packageVersion : String
  sourceId : String
  digestAlgorithm : String
  digestValue : String
  sizeBytes : UInt64
  cachedAt : UInt64
  digestVerified : Bool
deriving DecidableEq, Repr

/-- What the cache takes from its crates: the hash functions, and the text that `serde_json`
makes of the metadata. -/
structure CacheHost where
  hash : HashFunctions
  metaJson : CacheEntryMeta → Bytes

/-! ## The surroundings -/

/-- What an operation does not decide.  An operation makes each call that changes files once
at most, but for the removal of metadata that two entries share, so whether such a call fails
is asked of the call; of the other calls, of their number in the operation. -/
structure CacheEnv where
  /-- Whether a call that reads fails. -/
  fault : Nat → Option FileError
  /-- Whether a call that changes files fails. -/
  changeFault : FetchCall → Option FileError
  /-- How many bytes a write that fails has written. -/
  written : Nat
  /-- The clock. -/
  now : UInt64
  /-- The order in which a directory is listed, and what an error of an entry leaves out. -/
  listing : Nat → Path → List String
  /-- The time at which a file was modified. -/
  modified : Path → Except FileError Nat
  /-- The length that the metadata of a directory shows. -/
  dirSize : Path → Nat
  /-- The error of an access to a path at which it is not possible. -/
  refused : Path → FileError

/-- The files, and how many calls the operation has made. -/
structure CacheSession where
  fs : FileSystem
  made : Nat

/-- Whether a directory has an entry of a name. -/
def hasEntry (fs : FileSystem) (p : Path) (name : String) : Bool :=
  name ≠ ".." && ((fs.files.lookup (p.resolve ++ [name])).isSome ||
    p.resolve ++ [name] ∈ fs.dirs)

namespace CacheEnv

variable (host : CacheHost) (env : CacheEnv)

/-- The surroundings of the calls that read. -/
def reads : FetchEnv where
  server := fun _ _ => .error (.transport "")
  hops := fun _ _ => []
  fault := env.fault
  written := fun _ => env.written
  now := fun _ => env.now
  dirSize := env.dirSize
  refused := env.refused
  hash := host.hash
  debugStr := id

/-- The surroundings of a file call. -/
def answering (c : FetchCall) : FetchEnv :=
  if c.isRead then env.reads host else { env.reads host with fault := fun _ => env.changeFault c }

/-- The answer to a listing, in the `n`-th call. -/
def list (n : Nat) (fs : FileSystem) (p : Path) : Except FileError (List String) :=
  match env.fault n with
  | some e => .error e
  | none =>
    if fs.isDir p then .ok ((env.listing n p).filter (hasEntry fs p)).dedup
    else .error (env.refused p)

/-- The handler of the calls of one operation. -/
def handler : Handler cacheInterface CacheSession
  | .file c, s =>
    let r := (env.answering host c).outcome s.made s.fs c
    (r.1, ⟨r.2, s.made + 1⟩)
  | .readDir p, s => (env.list s.made s.fs p, ⟨s.fs, s.made + 1⟩)
  | .modified p, s => (env.modified p, ⟨s.fs, s.made + 1⟩)

end CacheEnv

/-! ## The manager -/

/-- `PARTIAL_EXTENSION`. -/
def partialExtension : String := "part"

/-- `META_EXTENSION`. -/
def metaExtension : String := "meta"

/-- `CacheConfig`. -/
structure CacheConfig where
  cachePath : Path
  maxSizeBytes : UInt64
  maxEntries : Nat
deriving DecidableEq, Repr

/-- `CacheConfig::new`. -/
def CacheConfig.new (cachePath : Path) : CacheConfig where
  cachePath := cachePath
  maxSizeBytes := 5000000000
  maxEntries := 50

/-- `CacheManager`. -/
structure CacheManager where
  config : CacheConfig
deriving DecidableEq, Repr

namespace CacheManager

variable (manager : CacheManager)

/-- `CacheManager::cache_path_for`. -/
def cachePathFor (digest : PackageDigest) : Path :=
  manager.config.cachePath.join ("pkg-" ++ digest.toHex)

/-- `CacheManager::partial_path_for`. -/
def partialPathFor (digest : PackageDigest) : Path :=
  manager.config.cachePath.join ("pkg-" ++ digest.toHex ++ "." ++ partialExtension)

/-- `CacheManager::meta_path_for`. -/
def metaPathFor (digest : PackageDigest) : Path :=
  manager.config.cachePath.join ("pkg-" ++ digest.toHex ++ "." ++ metaExtension)

/-- `CacheManager::contains`. -/
def contains (digest : PackageDigest) : CacheProg Bool :=
  fileCall (.pathExists (manager.cachePathFor digest))

/-- `CacheManager::get_cached_path`. -/
def getCachedPath (digest : PackageDigest) : CacheProg (Option Path) := do
  let path := manager.cachePathFor digest
  if ← fileCall (.pathExists path) then return some path else return none

/-- `CacheManager::stage_partial`. -/
def stagePartial (digest : PackageDigest) : CacheProg Path := do
  let partPath := manager.partialPathFor digest
  ofFetch (PackageFetcher.ensureParent "cannot create cache directory: " partPath)
  return partPath

/-- The arguments of `CacheManager::finalize`. -/
structure FinalizeArgs where
  sourceId : String
  packageName : String
  packageVersion : String
  sizeBytes : UInt64
  digestVerified : Bool
deriving DecidableEq, Repr

/-- The metadata that `finalize` writes. -/
def entryMeta (digest : PackageDigest) (args : FinalizeArgs) (now : UInt64) :
    CacheEntryMeta where
  packageName := args.packageName
  packageVersion := args.packageVersion
  sourceId := args.sourceId
  digestAlgorithm := digest.algorithm
  digestValue := digest.toHex
  sizeBytes := args.sizeBytes
  cachedAt := now
  digestVerified := args.digestVerified

/-- The end of `finalize`, which writes the metadata. -/
def writeMetadata (metaJson : CacheEntryMeta → Bytes) (digest : PackageDigest)
    (args : FinalizeArgs) : CacheProg Unit := do
  let now ← fileCall .now
  let metaPath := manager.metaPathFor digest
  fileCall (.createFile metaPath) >>= Fallible.orFail fun e =>
    .internal ("cache metadata write failed: " ++ e)
  fileCall (.writeAll metaPath (metaJson (entryMeta digest args now))) >>=
    Fallible.orFail fun e => .internal ("cache metadata write failed: " ++ e)

/-- `CacheManager::finalize`. -/
def finalize (metaJson : CacheEntryMeta → Bytes) (digest : PackageDigest)
    (args : FinalizeArgs) : CacheProg Path := do
  let partPath := manager.partialPathFor digest
  let finalPath := manager.cachePathFor digest
  if ← fileCall (.pathExists partPath) then
    fileCall (.rename partPath finalPath) >>= Fallible.orFail fun e =>
      .internal ("cache finalization failed: " ++ e)
    manager.writeMetadata metaJson digest args
    return finalPath
  else throw (.notFound "partial file not found for finalization")

/-- `CacheManager::verify_cache_entry`. -/
def verifyCacheEntry (hash : HashFunctions) (digest : PackageDigest) : CacheProg Bool := do
  let path := manager.cachePathFor digest
  if ← fileCall (.pathExists path) then
    let actualHash ←
      Fallible.attempt (ofFetch (StreamingHasher.hashFile hash digest.algorithm path)) >>=
        Fallible.orFail fun e => .internal ("cache verification failed: " ++ e.display)
    if digest.matches actualHash then return true
    else
      discard (fileCall (.removeFile path))
      discard (fileCall (.removeFile (manager.metaPathFor digest)))
      return false
  else return false

/-- The first half of `remove_entry`. -/
def removePackage (digest : PackageDigest) : CacheProg Unit := do
  let path := manager.cachePathFor digest
  if ← fileCall (.pathExists path) then
    fileCall (.removeFile path) >>= Fallible.orFail fun e =>
      .internal ("cache entry removal failed: " ++ e)

/-- The second half of `remove_entry`. -/
def removeMetadata (digest : PackageDigest) : CacheProg Unit := do
  let metaPath := manager.metaPathFor digest
  if ← fileCall (.pathExists metaPath) then
    discard (fileCall (.removeFile metaPath))

/-- `CacheManager::remove_entry`. -/
def removeEntry (digest : PackageDigest) : CacheProg Unit := do
  manager.removePackage digest
  manager.removeMetadata digest

/-- The paths that a listing of the cache directory shows; none if it fails. -/
def entries : CacheProg (List Path) := do
  match ← cacheCall (.readDir manager.config.cachePath) with
  | .ok names => return names.map manager.config.cachePath.entry
  | .error _ => return []

/-- The extension of a path of the cache. -/
def extensionOf (path : Path) : Option String := path.fileName.bind Path.extension

/-- Whether the loops over packages pass a path over. -/
def isAuxiliary (path : Path) : Bool :=
  extensionOf path = some partialExtension || extensionOf path = some metaExtension

/-- Remove the paths that `select` picks, and count those that went. -/
def removeAll (select : Path → Bool) : List Path → Nat → CacheProg Nat
  | [], removed => return removed
  | path :: rest, removed =>
    if select path then do
      match ← fileCall (.removeFile path) with
      | .ok _ => removeAll select rest (removed + 1)
      | .error _ => removeAll select rest removed
    else removeAll select rest removed

/-- `CacheManager::cleanup_partials`. -/
def cleanupPartials : CacheProg Nat := do
  removeAll (fun path => extensionOf path = some partialExtension) (← manager.entries) 0

/-- The loop of `current_cache_size`.  The code adds in `u64`: the files of a cache are taken to
have fewer than 2^64 bytes together, here and in the loops of `enforce_limits`. -/
def totalSize : List Path → Nat → CacheProg Nat
  | [], total => return total
  | path :: rest, total =>
    if isAuxiliary path then totalSize rest total
    else do
      match ← fileCall (.metadata path) with
      | .ok len => totalSize rest (total + len)
      | .error _ => totalSize rest total

/-- `CacheManager::current_cache_size`. -/
def currentCacheSize : CacheProg Nat := do totalSize (← manager.entries) 0

/-- Whether a name begins as that of a package does. -/
def isPackageName (name : String) : Bool := "pkg-".toList.isPrefixOf name.toList

/-- `CacheManager::cache_entry_count`. -/
def cacheEntryCount : CacheProg Nat := do
  let paths ← manager.entries
  return (paths.filter fun path => !isAuxiliary path && path.fileName.any isPackageName).length

/-- The loop of `enforce_limits` that collects the entries with their modification times. -/
def collectEntries : List Path → List (Path × Nat) → CacheProg (List (Path × Nat))
  | [], collected => return collected
  | path :: rest, collected =>
    if isAuxiliary path then collectEntries rest collected
    else do
      match ← fileCall (.metadata path) with
      | .ok _ =>
        match ← cacheCall (.modified path) with
        | .ok modified => collectEntries rest (collected ++ [(path, modified)])
        | .error _ => collectEntries rest collected
      | .error _ => collectEntries rest collected

/-- The loop of `enforce_limits` that removes entries, oldest first. -/
def evict : List Path → Nat → Nat → CacheProg Unit
  | [], _, _ => return ()
  | path :: rest, size, count =>
    if size ≤ manager.config.maxSizeBytes.toNat ∧ count ≤ manager.config.maxEntries then return ()
    else do
      let found ← fileCall (.metadata path)
      let size := match found with
        | .ok len => size - len
        | .error _ => size
      discard (fileCall (.removeFile path))
      discard (fileCall (.removeFile (path.withExtension metaExtension)))
      evict rest size (count - 1)

/-- The first check of `enforce_limits`. -/
def withinLimits (currentSize : Nat) : CacheProg Bool :=
  if currentSize ≤ manager.config.maxSizeBytes.toNat then do
    let count ← manager.cacheEntryCount
    return decide (count ≤ manager.config.maxEntries)
  else return false

/-- `CacheManager::enforce_limits`. -/
def enforceLimits : CacheProg Unit := do
  let currentSize ← manager.currentCacheSize
  if ← manager.withinLimits currentSize then return ()
  else do
    let collected ← collectEntries (← manager.entries) []
    let sorted := collected.mergeSort fun a b => a.2 ≤ b.2
    manager.evict (sorted.map (·.1)) currentSize sorted.length

/-- The files that `clear` removes. -/
def isCacheFile (path : Path) : Bool :=
  path.fileName.any fun name =>
    isPackageName name || ".part".toList.isSuffixOf name.toList ||
      ".meta".toList.isSuffixOf name.toList

/-- `CacheManager::clear`. -/
def clear : CacheProg Nat := do removeAll isCacheFile (← manager.entries) 0

end CacheManager

/-! ## Runs -/

/-- A call of an operation of the manager. -/
inductive CacheOp where
  | contains (digest : PackageDigest)
  | getCachedPath (digest : PackageDigest)
  | stagePartial (digest : PackageDigest)
  | finalize (digest : PackageDigest) (args : CacheManager.FinalizeArgs)
  | verifyCacheEntry (digest : PackageDigest)
  | removeEntry (digest : PackageDigest)
  | cleanupPartials
  | currentCacheSize
  | cacheEntryCount
  | enforceLimits
  | clear
deriving DecidableEq, Repr

/-- The program of an operation, without its result. -/
def CacheOp.program (host : CacheHost) (manager : CacheManager) : CacheOp → CacheProg Unit
  | .contains digest => discard (manager.contains digest)
  | .getCachedPath digest => discard (manager.getCachedPath digest)
  | .stagePartial digest => discard (manager.stagePartial digest)
  | .finalize digest args => discard (manager.finalize host.metaJson digest args)
  | .verifyCacheEntry digest => discard (manager.verifyCacheEntry host.hash digest)
  | .removeEntry digest => manager.removeEntry digest
  | .cleanupPartials => discard manager.cleanupPartials
  | .currentCacheSize => discard manager.currentCacheSize
  | .cacheEntryCount => discard manager.cacheEntryCount
  | .enforceLimits => manager.enforceLimits
  | .clear => discard manager.clear

/-- What happens to a cache: an operation of the manager, in the surroundings that it meets,
or that the user of `stage_partial` writes the partial file. -/
inductive CacheInput where
  | op (op : CacheOp) (env : CacheEnv)
  | writePartial (digest : PackageDigest) (data : Bytes)

/-- What a program returns and leaves behind, in the surroundings of one operation. -/
def CacheEnv.run {α : Type} (host : CacheHost) (env : CacheEnv) (p : CacheProg α)
    (fs : FileSystem) : ServiceResult α × FileSystem :=
  let r := CallProg.run (env.handler host) p.run ⟨fs, 0⟩
  (r.1, r.2.fs)

/-- The files after an input. -/
def CacheManager.next (host : CacheHost) (manager : CacheManager) :
    CacheInput → FileSystem → FileSystem
  | .op op env, fs => (env.run host (op.program host manager) fs).2
  | .writePartial digest data, fs =>
    let path := manager.partialPathFor digest
    if fs.isDir path || !fs.parentIsDir path then fs else fs.write path data

/-! ## A sample cache -/

/-- The text of metadata whose strings need no escapes. -/
def CacheEntryMeta.plainJson (m : CacheEntryMeta) : Bytes :=
  utf8 ("\x7b\"package_name\":\"" ++ m.packageName ++ "\",\"package_version\":\"" ++
    m.packageVersion ++ "\",\"source_id\":\"" ++ m.sourceId ++ "\",\"digest_algorithm\":\"" ++
    m.digestAlgorithm ++ "\",\"digest_value\":\"" ++ m.digestValue ++ "\",\"size_bytes\":" ++
    toString m.sizeBytes.toNat ++ ",\"cached_at\":" ++ toString m.cachedAt.toNat ++
    ",\"digest_verified\":" ++ (if m.digestVerified then "true" else "false") ++ "\x7d")

/-- A host that knows the hashes of the three bytes `abc`. -/
def CacheHost.plain : CacheHost where
  hash :=
    { sha256 := fun m => if m = utf8 "abc" then abcHash else []
      blake3 := fun m => if m = utf8 "abc" then
        [0x64, 0x37, 0xb3, 0xac, 0x38, 0x46, 0x51, 0x33, 0xff, 0xb6, 0x3b, 0x75, 0x27, 0x3a,
          0x8d, 0xb5, 0x48, 0xc5, 0x58, 0x46, 0x5d, 0x79, 0xdb, 0x03, 0xfd, 0x35, 0x9c, 0x6c,
          0xd5, 0xbd, 0x9d, 0x85] else [] }
  metaJson := CacheEntryMeta.plainJson

/-- Surroundings in which nothing fails. -/
def CacheEnv.quiet : CacheEnv where
  fault _ := none
  changeFault _ := none
  written := 0
  now := 1700000000
  listing _ _ := []
  modified _ := .ok 0
  dirSize _ := 4096
  refused _ := "No such file or directory (os error 2)"

/-- The cache of the service. -/
def CacheManager.system : CacheManager := ⟨.new (Path.new "/var/cache/mission/drivers")⟩

/-- The digest of the tests. -/
def testDigest : PackageDigest := ⟨"sha256", List.replicate 32 0⟩

/-- The arguments of `finalize` for three bytes. -/
def testArgs : CacheManager.FinalizeArgs := ⟨"test", "test-pkg", "1.0.0", 3, true⟩

/-- Stage a partial file and write `data` to it. -/
def stageInputs (digest : PackageDigest) (data : Bytes) : List CacheInput :=
  [.op (.stagePartial digest) .quiet, .writePartial digest data]

/-- Stage, write and finalize. -/
def cacheInputs (d : PackageDigest) (data : Bytes) : List CacheInput :=
  stageInputs d data ++ [.op (.finalize d testArgs) .quiet]

/-- The digest of the three bytes `abc`. -/
def abcDigest : PackageDigest := ⟨"sha256", abcHash⟩

end MissionOs.Driverd
