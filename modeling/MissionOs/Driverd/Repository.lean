import MissionOs.Driverd.Verification

/-!
# Repository manifests

`repository.rs`: the manifest in which a driver repository lists its packages, the checks
of its structure and its age, and the verification of its signature.

The clock readings of one verification are `env.now 0` for the freshness and `env.now 1`
for the audit event.  Sums of `u64` wrap around, as in a release build.
-/

namespace MissionOs.Driverd

open MissionOs.Rust

/-! ## Trust -/

/-- `TrustLevel`. -/
inductive TrustLevel where
  | trusted
  | untrusted
  | unknown
deriving DecidableEq, Repr

/-- `TrustConfig`. -/
structure TrustConfig where
  level : TrustLevel
  trustedKeys : List String
  keyIdentity : Option String
deriving DecidableEq, Repr

/-- `FreshnessPolicy`. -/
structure FreshnessPolicy where
  clockSkewSecs : UInt64
  maxAgeSecs : UInt64
deriving DecidableEq, Repr

/-- `FreshnessPolicy::default`. -/
def FreshnessPolicy.default : FreshnessPolicy := ⟨300, 86400⟩

/-! ## The manifest -/

/-- `RepositoryPackageEntry`. -/
structure RepositoryPackageEntry where
  name : String
  version : String
  url : String
  size : Option UInt64
  digestAlgorithm : String
  digestValue : String
  architecture : Option String
  kernelCompat : Option String
  modaliasPatterns : List String
  metadataVersion : UInt32
  channel : Option String
deriving DecidableEq, Repr

/-- `ManifestVerification`. -/
inductive ManifestVerification where
  | unverified
  | verified (keyId : String)
  | invalidSignature (msg : String)
  | unknownKey (msg : String)
deriving DecidableEq, Repr

/-- `RepositoryManifest`. -/
structure RepositoryManifest where
  repositoryId : String
  manifestVersion : UInt32
  issuedAt : UInt64
  expiresAt : UInt64
  signingKeyId : String
  packages : List RepositoryPackageEntry
  verification : ManifestVerification
deriving DecidableEq, Repr

/-! ## The structure of a manifest -/

/-- Fail with a metadata error if a check found something. -/
def refuseIf (found : Bool) (msg : String) : ServiceResult Unit :=
  if found then .error (.metadataError msg) else .ok ()

/-- `SUPPORTED_ARCHITECTURES`. -/
def supportedArchitectures : List String := ["x86_64", "amd64", "aarch64", "arm64"]

/-- `SUPPORTED_DIGEST_ALGORITHMS`.  A digest of either has 64 hexadecimal digits. -/
def supportedDigestAlgorithms : List String := ["sha256", "blake3"]

namespace RepositoryPackageEntry

variable (unicode : String → String) (entry : RepositoryPackageEntry)

/-- `validate_url` of an entry. -/
def validateUrl : ServiceResult Unit := do
  let url := trim entry.url.toList
  refuseIf url.isEmpty "package URL must not be empty"
  refuseIf (containsText (String.ofList url) "..")
    "package URL must not contain path traversal sequences"
  refuseIf (url.contains '\\') "package URL must not contain backslashes"
  refuseIf (!("http://".toList.isPrefixOf url || "https://".toList.isPrefixOf url ||
      url.head? == some '/'))
    ("package URL must be http/https or absolute path: '" ++ String.ofList url ++ "'")

/-- `RepositoryPackageEntry::validate`; `unicode` lowers the strings that are not ASCII. -/
def validate : ServiceResult Unit := do
  refuseIf (trimIsEmpty entry.name) "package name must not be empty"
  refuseIf (256 < byteLen entry.name) "package name exceeds maximum length"
  refuseIf (trimIsEmpty entry.version) "package version must not be empty"
  let _ ← (DriverVersion.parse entry.version).mapError fun e =>
    .metadataError ("invalid package version '" ++ entry.version ++ "': " ++ e.display)
  entry.validateUrl
  refuseIf (entry.size == some 0) "package size must be positive if specified"
  let algoLower := toLowercase unicode entry.digestAlgorithm
  refuseIf (!supportedDigestAlgorithms.contains algoLower)
    ("unsupported digest algorithm '" ++ entry.digestAlgorithm ++ "'")
  refuseIf (byteLen entry.digestValue != 64)
    ("digest value length " ++ toString (byteLen entry.digestValue) ++
      " does not match expected 64 for algorithm '" ++ entry.digestAlgorithm ++ "'")
  refuseIf (!entry.digestValue.toList.all isHexDigit) "digest value must be valid hexadecimal"
  match entry.architecture with
  | none => pure ()
  | some arch =>
    refuseIf (!supportedArchitectures.contains (toLowercase unicode arch))
      ("unsupported architecture '" ++ arch ++ "'")
  match entry.channel with
  | none => pure ()
  | some channel =>
    refuseIf (!(["stable", "beta", "testing", "nightly", "rc"].contains channel))
      ("invalid release channel '" ++ channel ++ "'")

end RepositoryPackageEntry

/-- The loop over the packages of a manifest, with the names and versions seen so far. -/
def validatePackages (unicode : String → String) :
    List (String × String) → List RepositoryPackageEntry → ServiceResult Unit
  | _, [] => .ok ()
  | seen, pkg :: rest => do
      pkg.validate unicode
      refuseIf (seen.contains (pkg.name, pkg.version))
        ("duplicate package entry '" ++ pkg.name ++ "' version " ++ pkg.version)
      validatePackages unicode ((pkg.name, pkg.version) :: seen) rest

/-- `a.saturating_sub(b)`. -/
def saturatingSub (a b : UInt64) : UInt64 := if b ≤ a then a - b else 0

namespace RepositoryManifest

variable (manifest : RepositoryManifest)

/-- `RepositoryManifest::validate`. -/
def validate (unicode : String → String) : ServiceResult Unit := do
  refuseIf (trimIsEmpty manifest.repositoryId) "repository_id must not be empty"
  refuseIf (manifest.manifestVersion != 1)
    ("unsupported manifest version: " ++ toString manifest.manifestVersion)
  refuseIf (trimIsEmpty manifest.signingKeyId) "signing_key_id must not be empty"
  refuseIf (manifest.issuedAt == 0) "issued_at must not be zero"
  refuseIf (manifest.expiresAt == 0) "expires_at must not be zero"
  refuseIf (manifest.expiresAt ≤ manifest.issuedAt) "expires_at must be after issued_at"
  validatePackages unicode [] manifest.packages

/-- `check_freshness` at the time `now`. -/
def checkFreshness (policy : FreshnessPolicy) (now : UInt64) : ServiceResult Unit := do
  refuseIf (now + policy.clockSkewSecs < manifest.issuedAt)
    ("manifest issued_at " ++ toString manifest.issuedAt ++
      " is in the future (skew tolerance: " ++ toString policy.clockSkewSecs ++ "s)")
  refuseIf (manifest.expiresAt < saturatingSub now policy.clockSkewSecs)
    ("manifest expired at " ++ toString manifest.expiresAt ++ " (current time: " ++
      toString now ++ ", skew tolerance: " ++ toString policy.clockSkewSecs ++ "s)")
  let age := saturatingSub now manifest.issuedAt
  refuseIf (policy.maxAgeSecs < age)
    ("manifest age " ++ toString age ++ "s exceeds maximum " ++ toString policy.maxAgeSecs ++
      "s")

end RepositoryManifest

/-! ## Hexadecimal text -/

/-- `char::to_digit(16)`. -/
def hexValue (c : Char) : Option Nat :=
  if c.isDigit then some (c.toNat - '0'.toNat)
  else if 'a' ≤ c && c ≤ 'f' then some (c.toNat - 'a'.toNat + 10)
  else if 'A' ≤ c && c ≤ 'F' then some (c.toNat - 'A'.toNat + 10)
  else none

/-- `u8::from_str_radix` of two characters, of which the first may be a sign. -/
def byteOfHex (a b : Char) : Option UInt8 :=
  if a = '+' then (hexValue b).map UInt8.ofNat
  else do
    let hi ← hexValue a
    let lo ← hexValue b
    return UInt8.ofNat (16 * hi + lo)

/-- The loop of `hex_decode` over slices of two bytes. -/
def decodePairs : List Char → Panics (Option Bytes)
  | [] => .ok (some [])
  | [c] => if c.utf8Size = 2 then .ok none else .error .charBoundary
  | a :: b :: rest =>
      if a.utf8Size = 2 then .ok none
      else if a.utf8Size ≠ 1 || b.utf8Size ≠ 1 then .error .charBoundary
      else
        match byteOfHex a b with
        | none => .ok none
        | some byte => (decodePairs rest).map fun bytes => bytes.map (byte :: ·)

/-- `hex_decode` of `repository.rs`. -/
def hexDecode (hex : String) : Panics (Option Bytes) :=
  let hex := trim hex.toList
  if (hex.map Char.utf8Size).sum % 2 ≠ 0 then .ok none else decodePairs hex

/-! ## The signature -/

/-- The loop of `verify_manifest_signature` over the trusted keys. -/
def tryKeys (env : Env) (manifestJson signature : Bytes) : List String → Panics (Option String)
  | [] => .ok none
  | keyHex :: rest => do
      match ← hexDecode keyHex with
      | some key =>
        if key.length = 32 && verify env key manifestJson signature = .ok .valid then
          return some keyHex
        else tryKeys env manifestJson signature rest
      | none => tryKeys env manifestJson signature rest

/-- `verify_manifest_signature`. -/
def verifyManifestSignature (env : Env) (manifestJson : Bytes) (signatureHex : String)
    (trustedKeys : List String) : Panics ManifestVerification := do
  let malformed := ManifestVerification.invalidSignature
    "signature is not valid hex or wrong length (expected 64 bytes)"
  match ← hexDecode signatureHex with
  | none => return malformed
  | some signature =>
    if signature.length ≠ 64 then return malformed
    match ← tryKeys env manifestJson signature trustedKeys with
    | some keyHex => return .verified keyHex
    | none =>
      if trustedKeys.isEmpty then return .unknownKey "no trusted keys configured"
      else return .invalidSignature "signature does not match any trusted key"

/-- `verify_manifest_signature_audited`, with the audit events. -/
def verifyManifestSignatureAudited (env : Env) (manifestJson : Bytes) (signatureHex : String)
    (trustedKeys : List String) (subject repositoryId : String) :
    Panics (ManifestVerification × List AuditEvent) := do
  let result ← verifyManifestSignature env manifestJson signatureHex trustedKeys
  let event (severity : EventSeverity) (action details : String) : List AuditEvent :=
    [AuditEvent.new (env.now 1) .integrity severity action subject
      ("Repository '" ++ repositoryId ++ "'" ++ details)]
  match result with
  | .verified keyId => do
    let shown ← firstBytes 16 keyId.toList
    return (result, event .info "metadata_authentication_success"
      (" metadata authenticated with key " ++ String.ofList shown))
  | .invalidSignature msg =>
    return (result, event .error "metadata_authentication_failure" (": " ++ msg))
  | .unknownKey msg => return (result, event .error "metadata_unknown_key" (": " ++ msg))
  | .unverified => return (result, [])

/-! ## The manager -/

/-- `RepositoryManager`. -/
structure RepositoryManager where
  freshnessPolicy : FreshnessPolicy
deriving DecidableEq, Repr

namespace RepositoryManager

variable (env : Env) (manager : RepositoryManager)

/-- The structural and the freshness check of `verify_manifest`, with the audit events. -/
def checkManifest (manifest : RepositoryManifest) (subject : String) :
    ServiceResult Unit × List AuditEvent :=
  match manifest.validate env.unicodeLowercase with
  | .error e =>
    (.error (.metadataError ("manifest validation failed for '" ++ manifest.repositoryId ++
      "': " ++ e.display)), [])
  | .ok () =>
    match manifest.checkFreshness manager.freshnessPolicy (env.now 0) with
    | .error e =>
      (.error (.metadataError ("manifest freshness check failed for '" ++
          manifest.repositoryId ++ "': " ++ e.display)),
        [AuditEvent.new (env.now 1) .integrity .warning "metadata_freshness_rejected" subject
          ("Repository '" ++ manifest.repositoryId ++ "': " ++ e.display)])
    | .ok () => (.ok (), [])

/-- `verify_manifest`, with the audit events. -/
def verifyManifest (manifestJson : Bytes) (manifest : RepositoryManifest)
    (signatureHex : String) (trustedKeys : List String) (subject : String) :
    Panics (ServiceResult RepositoryManifest × List AuditEvent) := do
  match checkManifest env manager manifest subject with
  | (.error e, events) => return (.error e, events)
  | (.ok (), _) =>
    let (verification, events) ← verifyManifestSignatureAudited env manifestJson signatureHex
      trustedKeys subject manifest.repositoryId
    match verification with
    | .verified _ => return (.ok { manifest with verification := verification }, events)
    | .invalidSignature msg =>
      return (.error (.verificationFailed ("manifest signature verification failed for '" ++
        manifest.repositoryId ++ "': " ++ msg)), events)
    | .unknownKey msg =>
      return (.error (.sourceError ("unknown signing key for repository '" ++
        manifest.repositoryId ++ "': " ++ msg)), events)
    | .unverified =>
      return (.error (.internal "manifest not verified after verification call"), events)

end RepositoryManager

end MissionOs.Driverd
