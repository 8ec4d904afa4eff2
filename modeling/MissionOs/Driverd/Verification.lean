import MissionOs.Driverd.World

/-!
# Signature verification

`SignatureVerifier::verify_package` of `verification.rs`, with `verify` of the
crypto library.  The keys of the store are listed in the order in which the
hash map yields them; every result holds for every order.

`verifyPackage_quiet` says that verification only looks, and
`verifyPackage_valid` what a valid outcome stands for when unsigned packages
are not allowed: the bytes of the package file carry a good signature of an
enabled key.
-/

namespace MissionOs.Driverd

open MissionOs.Rust MissionOs.Lib

/-! ## The crypto library -/

/-- `CryptoError`, as far as `verify` fails with it. -/
inductive CryptoError where
  | invalidKey
  | invalidSignature
deriving DecidableEq, Repr

/-- `VerificationResult`. -/
inductive VerificationResult where
  | valid
  | invalid
deriving DecidableEq, Repr

/-- `verify`: an Ed25519 key has 32 bytes, a signature 64. -/
def verify (env : Env) (publicKey message signature : Bytes) :
    Except CryptoError VerificationResult :=
  if publicKey.length ≠ 32 then .error .invalidKey
  else if signature.length ≠ 64 then .error .invalidSignature
  else if !env.isVerifyingKey publicKey then .error .invalidKey
  else if env.ed25519Verify publicKey message signature then .ok .valid
  else .ok .invalid

theorem ed25519Verify_of_verify {env : Env} {publicKey message signature : Bytes}
    (h : verify env publicKey message signature = .ok .valid) :
    env.ed25519Verify publicKey message signature = true := by
  rw [verify] at h
  split_ifs at h with _ _ _ hgood
  · exact hgood
  · cases h

/-! ## Keys and outcomes -/

/-- `TrustedKey`. -/
structure TrustedKey where
  id : String
  name : String
  publicKey : Bytes
  enabled : Bool
deriving DecidableEq, Repr

/-- `TrustedKeyStore`: a map from ids to keys. -/
structure TrustedKeyStore where
  keys : List TrustedKey
  nodup : (keys.map (·.id)).Nodup

/-- `TrustedKeyStore::enabled_keys`. -/
def TrustedKeyStore.enabledKeys (store : TrustedKeyStore) : List TrustedKey :=
  store.keys.filter (·.enabled)

/-- `TrustedKeyStore::get_key`. -/
def TrustedKeyStore.getKey (store : TrustedKeyStore) (id : String) : Option TrustedKey :=
  store.keys.find? (·.id == id)

/-- `VerificationOutcome`. -/
inductive VerificationOutcome where
  | valid
  | invalid
  | missingSignature
  | untrustedKey
  | error (msg : String)
deriving DecidableEq, Repr

/-- `VerificationOutcome::is_valid`. -/
@[simp] def VerificationOutcome.isValid (o : VerificationOutcome) : Bool := o = .valid

/-- `SignatureCheckResult`. -/
structure SignatureCheckResult where
  outcome : VerificationOutcome
  keyId : Option String
  description : String
deriving DecidableEq, Repr

/-- `SignatureVerifier`. -/
structure SignatureVerifier where
  keyStore : TrustedKeyStore
  allowUnsigned : Bool

/-! ## Verification -/

/-- `audit_verification`, with the callback that records the event. -/
def auditVerification (env : Env) (result : SignatureCheckResult) : StateM World Unit :=
  let (severity, action) := match result.outcome with
    | .valid => (EventSeverity.info, "verification_passed")
    | .invalid => (.warning, "verification_failed_invalid")
    | .missingSignature => (.warning, "verification_failed_missing_signature")
    | .untrustedKey => (.warning, "verification_failed_untrusted_key")
    | .error _ => (.error, "verification_error")
  audit env .driverVerification severity action "verification_service" result.description

/-- A result of `verify_package`, recorded. -/
def concludeVerification (env : Env) (result : SignatureCheckResult) :
    StateM World SignatureCheckResult := do
  auditVerification env result
  return result

/-- Whether a call reads a file. -/
def Event.isReadFile : Event → Bool
  | .readFile _ => true
  | _ => false

/-- `SignatureVerifier::verify_package`, in a release build.  The `verified`
event stands for the fact that the signature of a key was found good. -/
def verifyPackage (env : Env) (verifier : SignatureVerifier) (packagePath : Path)
    (signatureBytes : Bytes) (signingKeyId : Option String) :
    StateM World SignatureCheckResult := do
  if signatureBytes.isEmpty then
    if !verifier.allowUnsigned then
      concludeVerification env ⟨.missingSignature, none,
        "No signature found on driver package and unsigned drivers are not permitted"⟩
    else
      concludeVerification env ⟨.valid, none,
        "No signature present — accepted per policy " ++
          "(unsigned drivers allowed in development mode)"⟩
  else
    let w ← get
    match ← readFile env (env.readFault (w.calls Event.isReadFile)) packagePath with
    | .error e =>
      concludeVerification env ⟨.error ("cannot read package file: " ++ e), none,
        "Failed to read package file for verification"⟩
    | .ok packageData =>
      -- A key that verifies nothing, or fails to verify, leaves the turn to the next.
      let good (key : TrustedKey) : Bool :=
        verify env key.publicKey packageData signatureBytes = .ok .valid
      match verifier.keyStore.enabledKeys.find? good with
      | some key => do
        emit (.verified packagePath packageData key.id)
        concludeVerification env ⟨.valid, some key.id,
          "Signature verified with trusted key '" ++ key.id ++ "' (" ++ key.name ++ ")"⟩
      | none =>
        match signingKeyId.filter fun id => (verifier.keyStore.getKey id).isNone with
        | some keyId =>
          concludeVerification env ⟨.untrustedKey, some keyId,
            "Signing key '" ++ keyId ++ "' is not in the trusted key store"⟩
        | none =>
          concludeVerification env ⟨.invalid, signingKeyId,
            "Signature does not match any trusted key or package " ++
              "content has been tampered with"⟩

/-! ## What verification does -/

/-- The bytes `data`, read from `path`, carry a good signature of an enabled key
of the store, and the trace says so. -/
def SignatureVerifier.Vouches (verifier : SignatureVerifier) (env : Env)
    (trace : List Event) (path : Path) (data : Bytes) : Prop :=
  ∃ key ∈ verifier.keyStore.enabledKeys, ∃ signature : Bytes,
    verify env key.publicKey data signature = .ok .valid ∧
      .verified path data key.id ∈ trace

theorem concludeVerification_quiet (env : Env) (result : SignatureCheckResult) :
    Keeps Quiet (concludeVerification env result) :=
  Keeps.bind (quiet_audit ..) fun _ => Keeps.pure _

/-- To conclude is to return the result, after a quiet step. -/
theorem concludeVerification_wp {env : Env} {result : SignatureCheckResult}
    {Q : SignatureCheckResult → World → Prop} {w : World}
    (h : ∀ w', Quiet w w' → Q result w') : wp (concludeVerification env result) Q w := by
  exact (quiet_audit ..).wp_bind fun _ w' hq => h w' hq

/-- Verification changes neither the kernel nor the files. -/
theorem verifyPackage_quiet (env : Env) (verifier : SignatureVerifier) (packagePath : Path)
    (signatureBytes : Bytes) (signingKeyId : Option String) :
    Keeps Quiet (verifyPackage env verifier packagePath signatureBytes signingKeyId) := by
  unfold verifyPackage
  refine Keeps.ite (Keeps.ite ?_ ?_) (Keeps.bind Keeps.get fun w => ?_)
  · exact concludeVerification_quiet ..
  · exact concludeVerification_quiet ..
  refine Keeps.bind (quiet_readFile ..) fun r => ?_
  cases r with
  | error e => exact concludeVerification_quiet ..
  | ok packageData =>
      dsimp only
      split
      · exact Keeps.bind (Logs.emit rfl) fun _ => concludeVerification_quiet ..
      · split <;> exact concludeVerification_quiet ..

/-- A package that is found valid by a verifier that insists on a signature has
one, of an enabled key and over the bytes that stand at its path. -/
theorem verifyPackage_valid (env : Env) (verifier : SignatureVerifier) (packagePath : Path)
    (signatureBytes : Bytes) (signingKeyId : Option String)
    (hstrict : verifier.allowUnsigned = false) (w : World) :
    wp (verifyPackage env verifier packagePath signatureBytes signingKeyId)
      (fun r w' => r.outcome.isValid = true →
        ∃ data, w.fs.get? packagePath = some data ∧
          verifier.Vouches env w'.trace packagePath data) w := by
  rw [verifyPackage, wp_ite]
  refine ⟨fun _ => ?_, fun _ => ?_⟩
  · rw [hstrict, wp_ite]
    refine ⟨fun _ => ?_, fun h => absurd rfl h⟩
    exact concludeVerification_wp fun _ _ hvalid => by simp at hvalid
  rw [wp_bind, wp_get, wp_bind]
  simp only [readFile, wp_bind, emit, wp_modify, wp_get, wp_pure, World.record_fs]
  cases hread : readOutcome env _ w.fs packagePath with
  | error e => exact concludeVerification_wp fun _ _ hvalid => by simp at hvalid
  | ok packageData =>
      dsimp only
      split
      · rename_i key hfind
        rw [wp_bind, wp_modify]
        refine concludeVerification_wp fun w' hq _ => ?_
        refine ⟨packageData, get?_of_readOutcome hread, key, List.mem_of_find?_eq_some hfind,
          signatureBytes, by simpa using List.find?_some hfind, ?_⟩
        obtain ⟨es, htrace, _⟩ := hq.trace_eq
        rw [htrace]
        simp
      · split
        · exact concludeVerification_wp fun _ _ hvalid => by simp at hvalid
        · exact concludeVerification_wp fun _ _ hvalid => by simp at hvalid

end MissionOs.Driverd
