import MissionOs.Driverd.Operations
import MissionOs.Driverd.Repository

/-!
# What a verified manifest is bound to

`verify_manifest` checks the structure and the age of one argument and the signature of
another.  `accepts_iff` says exactly what it accepts; that the manifest is what the signed
bytes say, and that its key is the one that verified, is nowhere among it.
-/

namespace MissionOs.Driverd

open MissionOs.Rust MissionOs.Lib

/-! ## Keys that verify -/

/-- A trusted key verifies a message under a signature. -/
def KeyVerifies (env : Env) (message signature : Bytes) (keyHex : String) : Prop :=
  ∃ key, hexDecode keyHex = .ok (some key) ∧ key.length = 32 ∧
    verify env key message signature = .ok .valid

/-- `keyHex` is the first of the trusted keys that verifies a message under a signature, and
no key that was tried before it is text that cannot be sliced. -/
def SignedBy (env : Env) (message : Bytes) (signatureHex : String) (trustedKeys : List String)
    (keyHex : String) : Prop :=
  ∃ signature, hexDecode signatureHex = .ok (some signature) ∧ signature.length = 64 ∧
    ∃ pre post, trustedKeys = pre ++ keyHex :: post ∧
      (∀ other ∈ pre, (∃ decoded, hexDecode other = .ok decoded) ∧
        ¬KeyVerifies env message signature other) ∧
      KeyVerifies env message signature keyHex ∧
      ∃ shown, firstBytes 16 keyHex.toList = .ok shown

section Signatures

variable {env : Env} {message signature : Bytes} {signatureHex keyHex : String}
  {trustedKeys : List String}

/-- A key that verifies ends the search. -/
theorem tryKeys_cons_of_verifies (h : KeyVerifies env message signature keyHex) :
    tryKeys env message signature (keyHex :: trustedKeys) = .ok (some keyHex) := by
  obtain ⟨key, hkey, hlength, hverify⟩ := h
  simp only [tryKeys, hkey, bind, Except.bind]
  rw [hlength, hverify]
  rfl

/-- A key that can be read and does not verify is passed over. -/
theorem tryKeys_cons_of_not_verifies (h : ¬KeyVerifies env message signature keyHex)
    {decoded : Option Bytes} (hdecoded : hexDecode keyHex = .ok decoded) :
    tryKeys env message signature (keyHex :: trustedKeys) =
      tryKeys env message signature trustedKeys := by
  rw [tryKeys, hdecoded]
  cases decoded with
  | none => rfl
  | some key =>
      have hbad : (decide (key.length = 32) &&
          decide (verify env key message signature = .ok .valid)) = false := by
        rw [Bool.and_eq_false_iff, decide_eq_false_iff_not, decide_eq_false_iff_not,
          ← not_and_or]
        intro hright
        obtain ⟨hlength, hverify⟩ := hright
        exact h ⟨key, hdecoded, hlength, hverify⟩
      simp only [bind, Except.bind, hbad]
      rfl

theorem tryKeys_eq_iff :
    tryKeys env message signature trustedKeys = .ok (some keyHex) ↔
      ∃ pre post, trustedKeys = pre ++ keyHex :: post ∧
        (∀ other ∈ pre, (∃ decoded, hexDecode other = .ok decoded) ∧
          ¬KeyVerifies env message signature other) ∧
        KeyVerifies env message signature keyHex := by
  constructor
  · intro h
    induction trustedKeys with
    | nil => cases h
    | cons key rest ih =>
        by_cases hkey : KeyVerifies env message signature key
        · rw [tryKeys_cons_of_verifies hkey] at h
          cases h
          exact ⟨[], rest, rfl, by simp, hkey⟩
        · cases hdecoded : hexDecode key with
          | error e =>
              rw [tryKeys, hdecoded] at h
              cases h
          | ok decoded =>
              rw [tryKeys_cons_of_not_verifies hkey hdecoded] at h
              obtain ⟨pre, post, hrest, hpre, hverifies⟩ := ih h
              refine ⟨key :: pre, post, by rw [hrest]; rfl, ?_, hverifies⟩
              rw [List.forall_mem_cons]
              exact ⟨⟨⟨decoded, hdecoded⟩, hkey⟩, hpre⟩
  · intro hright
    obtain ⟨pre, post, rfl, hpre, hverifies⟩ := hright
    induction pre with
    | nil => exact tryKeys_cons_of_verifies hverifies
    | cons key pre ih =>
        rw [List.forall_mem_cons] at hpre
        obtain ⟨⟨⟨decoded, hdecoded⟩, hkey⟩, hpre⟩ := hpre
        rw [List.cons_append, tryKeys_cons_of_not_verifies hkey hdecoded]
        exact ih hpre

theorem verifyManifestSignature_eq_iff :
    verifyManifestSignature env message signatureHex trustedKeys = .ok (.verified keyHex) ↔
      ∃ signature, hexDecode signatureHex = .ok (some signature) ∧ signature.length = 64 ∧
        tryKeys env message signature trustedKeys = .ok (some keyHex) := by
  rw [verifyManifestSignature]
  cases hexDecode signatureHex with
  | error e => simp [bind, Except.bind]
  | ok decoded =>
      cases decoded with
      | none => simp [bind, Except.bind, pure, Except.pure]
      | some signature =>
          by_cases hlength : signature.length = 64
          · cases hfound : tryKeys env message signature trustedKeys with
            | error e => simp [bind, Except.bind, hlength, hfound]
            | ok found =>
                cases found with
                | none =>
                    simp only [bind, Except.bind, pure, Except.pure, hlength, hfound]
                    split_ifs <;> simp [hfound]
                | some key => simp [bind, Except.bind, pure, Except.pure, hlength, hfound]
          · simp [bind, Except.bind, pure, Except.pure, hlength]

theorem verifyManifestSignatureAudited_eq_iff {subject repositoryId : String} :
    (∃ events, verifyManifestSignatureAudited env message signatureHex trustedKeys subject
        repositoryId = .ok (.verified keyHex, events)) ↔
      SignedBy env message signatureHex trustedKeys keyHex := by
  have hsigned : SignedBy env message signatureHex trustedKeys keyHex ↔
      verifyManifestSignature env message signatureHex trustedKeys = .ok (.verified keyHex) ∧
        ∃ shown, firstBytes 16 keyHex.toList = .ok shown := by
    simp only [verifyManifestSignature_eq_iff, tryKeys_eq_iff, SignedBy]
    constructor
    · intro h
      obtain ⟨signature, hdecoded, hlength, pre, post, hkeys, hpre, hverifies, hshown⟩ := h
      exact ⟨⟨signature, hdecoded, hlength, pre, post, hkeys, hpre, hverifies⟩, hshown⟩
    · intro h
      obtain ⟨⟨signature, hdecoded, hlength, pre, post, hkeys, hpre, hverifies⟩, hshown⟩ := h
      exact ⟨signature, hdecoded, hlength, pre, post, hkeys, hpre, hverifies, hshown⟩
  rw [hsigned, verifyManifestSignatureAudited]
  cases verifyManifestSignature env message signatureHex trustedKeys with
  | error e => simp [bind, Except.bind]
  | ok result =>
      cases result with
      | verified key =>
          simp only [bind, Except.bind]
          cases hshown : firstBytes 16 key.toList with
          | error e =>
              simp only [reduceCtorEq, exists_false, Except.ok.injEq, false_iff, not_and,
                ManifestVerification.verified.injEq]
              intro heq
              subst heq
              simp [hshown]
          | ok shown =>
              simp only [pure, Except.pure, Except.ok.injEq, Prod.mk.injEq,
                ManifestVerification.verified.injEq]
              constructor
              · intro h
                obtain ⟨events, rfl, -⟩ := h
                exact ⟨rfl, shown, hshown⟩
              · intro h
                obtain ⟨rfl, -⟩ := h
                exact ⟨_, rfl, rfl⟩
      | invalidSignature msg => simp [bind, Except.bind, pure, Except.pure]
      | unknownKey msg => simp [bind, Except.bind, pure, Except.pure]
      | unverified => simp [bind, Except.bind, pure, Except.pure]

end Signatures

/-! ## What is accepted -/

theorem checkManifest_ok_iff {env : Env} {manager : RepositoryManager}
    {manifest : RepositoryManifest} {subject : String} :
    (manager.checkManifest env manifest subject).1 = .ok () ↔
      manifest.validate env.unicodeLowercase = .ok () ∧
        manifest.checkFreshness manager.freshnessPolicy (env.now 0) = .ok () := by
  rw [RepositoryManager.checkManifest]
  cases manifest.validate env.unicodeLowercase with
  | error e => simp
  | ok _ =>
      cases manifest.checkFreshness manager.freshnessPolicy (env.now 0) with
      | error e => simp
      | ok _ => simp

/-- One call of `verify_manifest`: the clock at that time, and the arguments. -/
structure VerifyCall where
  now : UInt64
  manifestJson : Bytes
  manifest : RepositoryManifest
  signatureHex : String
  trustedKeys : List String
  subject : String

namespace VerifyCall

variable (env : Env) (manager : RepositoryManager) (call : VerifyCall)

/-- The environment at the time of a call. -/
def moment : Env := { env with now := fun _ => call.now }

/-- The outcome of a call, with the audit events. -/
def outcome : Panics (ServiceResult RepositoryManifest × List AuditEvent) :=
  manager.verifyManifest (call.moment env) call.manifestJson call.manifest call.signatureHex
    call.trustedKeys call.subject

/-- The call returns a manifest. -/
def Accepts (m : RepositoryManifest) : Prop :=
  ∃ events, call.outcome env manager = .ok (.ok m, events)

/-- The manifest of a call is well formed and fresh, and a trusted key verifies the bytes of
the call. -/
structure Genuine (keyHex : String) : Prop where
  wellFormed : call.manifest.validate env.unicodeLowercase = .ok ()
  fresh : call.manifest.checkFreshness manager.freshnessPolicy call.now = .ok ()
  signed : SignedBy env call.manifestJson call.signatureHex call.trustedKeys keyHex

variable {env manager call}

/-- A manifest is accepted exactly if it is well formed and fresh and a trusted key verifies
the bytes beside it, and then it is the argument, marked with that key. -/
theorem accepts_iff {m : RepositoryManifest} :
    call.Accepts env manager m ↔ ∃ keyHex, call.Genuine env manager keyHex ∧
      m = { call.manifest with verification := .verified keyHex } := by
  have hgenuine (keyHex : String) : call.Genuine env manager keyHex ↔
      (manager.checkManifest (call.moment env) call.manifest call.subject).1 = .ok () ∧
        ∃ events, verifyManifestSignatureAudited (call.moment env) call.manifestJson
          call.signatureHex call.trustedKeys call.subject call.manifest.repositoryId =
            .ok (.verified keyHex, events) := by
    rw [checkManifest_ok_iff, verifyManifestSignatureAudited_eq_iff]
    exact ⟨fun h => ⟨⟨h.wellFormed, h.fresh⟩, h.signed⟩, fun h => ⟨h.1.1, h.1.2, h.2⟩⟩
  simp only [hgenuine]
  rw [Accepts, outcome, RepositoryManager.verifyManifest]
  obtain ⟨checked, checkEvents⟩ :=
    manager.checkManifest (call.moment env) call.manifest call.subject
  cases checked with
  | error e => simp [pure, Except.pure]
  | ok _ =>
      simp only [true_and]
      cases verifyManifestSignatureAudited (call.moment env) call.manifestJson
          call.signatureHex call.trustedKeys call.subject call.manifest.repositoryId with
      | error e => simp [bind, Except.bind]
      | ok result =>
          obtain ⟨verification, events⟩ := result
          cases verification <;> simp [bind, Except.bind, pure, Except.pure, eq_comm]

/-! ## Binding -/

/-- A manifest is what some bytes decode to, apart from the mark of its verification, and
that mark is of the key that it names. -/
def Bound (decode : Bytes → Option RepositoryManifest) (identifies : String → String → Prop)
    (bytes : Bytes) (m : RepositoryManifest) : Prop :=
  (∃ signed, decode bytes = some signed ∧
    { m with verification := signed.verification } = signed) ∧
  ∃ keyHex, m.verification = .verified keyHex ∧ identifies m.signingKeyId keyHex

/-- What is accepted is bound to the signed bytes exactly if a genuine argument is what they
decode to and names the key that verifies them. -/
theorem bound_iff (env : Env) (decode : Bytes → Option RepositoryManifest)
    (identifies : String → String → Prop) (manager : RepositoryManager) (call : VerifyCall) :
    (∀ m, call.Accepts env manager m → Bound decode identifies call.manifestJson m) ↔
      ∀ keyHex, call.Genuine env manager keyHex →
        (∃ signed, decode call.manifestJson = some signed ∧
          { call.manifest with verification := signed.verification } = signed) ∧
        identifies call.manifest.signingKeyId keyHex := by
  constructor
  · intro hbound keyHex hgenuine
    obtain ⟨hsigned, key, hkey, hidentifies⟩ := hbound _ (accepts_iff.mpr ⟨keyHex, hgenuine, rfl⟩)
    cases hkey
    exact ⟨hsigned, hidentifies⟩
  · intro hgood m haccepts
    obtain ⟨keyHex, hgenuine, rfl⟩ := accepts_iff.mp haccepts
    obtain ⟨hsigned, hidentifies⟩ := hgood keyHex hgenuine
    exact ⟨hsigned, keyHex, rfl, hidentifies⟩

end VerifyCall

/-! ## A forged argument -/

/-- A manifest of the official repository, without packages. -/
def officialManifest (issuedAt expiresAt : UInt64) : RepositoryManifest where
  repositoryId := "mission"
  manifestVersion := 1
  issuedAt := issuedAt
  expiresAt := expiresAt
  signingKeyId := String.ofList (List.replicate 64 '0')
  packages := []
  verification := .unverified

/-- The text of `officialManifest`. -/
def officialJson (issuedAt expiresAt : String) : Bytes :=
  utf8 ("\x7b\"repository_id\":\"mission\",\"manifest_version\":1,\"issued_at\":" ++ issuedAt ++
    ",\"expires_at\":" ++ expiresAt ++ ",\"signing_key_id\":\"" ++
    String.ofList (List.replicate 64 '0') ++ "\",\"packages\":[]\x7d")

/-- Decoding, as far as these texts go. -/
def decodeOfficial (bytes : Bytes) : Option RepositoryManifest :=
  if bytes = officialJson "1000" "2000" then some (officialManifest 1000 2000)
  else if bytes = officialJson "900" "2000" then some (officialManifest 900 2000)
  else none

/-- The release key signed those texts, with a signature of zeros, and nothing else. -/
def officialEnv : Env :=
  { Env.smooth with
    ed25519Verify := fun key message signature =>
      key = List.replicate 32 0 && (decodeOfficial message).isSome &&
        signature = List.replicate 64 0 }

/-- A call at the time `now` with the signature of the release key. -/
def officialCall (now : UInt64) (json : Bytes) (manifest : RepositoryManifest) : VerifyCall where
  now := now
  manifestJson := json
  manifest := manifest
  signatureHex := String.ofList (List.replicate 128 '0')
  trustedKeys := [String.ofList (List.replicate 64 '0')]
  subject := "driverd"

/-- Every text of the repository carries the signature of the release key. -/
theorem officialCall_signed (now : UInt64) {json : Bytes} (manifest : RepositoryManifest)
    (h : (decodeOfficial json).isSome = true) :
    SignedBy officialEnv (officialCall now json manifest).manifestJson
      (officialCall now json manifest).signatureHex
      (officialCall now json manifest).trustedKeys
      (String.ofList (List.replicate 64 '0')) := by
  have hverify : verify officialEnv (List.replicate 32 0) json (List.replicate 64 0) =
      .ok .valid := by
    simp [verify, officialEnv, Env.smooth, h]
  have hsignature : hexDecode (String.ofList (List.replicate 128 '0')) =
      .ok (some (List.replicate 64 0)) := by decide +kernel
  have hkey : hexDecode (String.ofList (List.replicate 64 '0')) =
      .ok (some (List.replicate 32 0)) := by decide
  have hshown : firstBytes 16 (String.ofList (List.replicate 64 '0')).toList =
      .ok (List.replicate 16 '0') := by decide
  exact ⟨_, hsignature, by decide, [], [], rfl, by simp, ⟨_, hkey, by decide, hverify⟩, _, hshown⟩

/-- A package that the official repository does not have. -/
def forgedEntry : RepositoryPackageEntry where
  name := "e1000e"
  version := "9.9.9"
  url := "https://packages.example.org/e1000e.ko"
  size := some 1000
  digestAlgorithm := "sha256"
  digestValue := String.ofList (List.replicate 64 'f')
  architecture := some "x86_64"
  kernelCompat := none
  modaliasPatterns := []
  metadataVersion := 1
  channel := some "stable"

/-- The signed text of the official manifest, beside a manifest with a package in it. -/
def forgedCall : VerifyCall :=
  officialCall 1000 (officialJson "1000" "2000")
    { officialManifest 1000 2000 with packages := [forgedEntry] }

/-- The signature of the signed text is accepted for the forged manifest. -/
theorem forged_manifest_accepted :
    ¬∀ m, forgedCall.Accepts officialEnv ⟨.default⟩ m →
      VerifyCall.Bound decodeOfficial (· = ·) forgedCall.manifestJson m := by
  intro h
  have hgenuine : forgedCall.Genuine officialEnv ⟨.default⟩
      (String.ofList (List.replicate 64 '0')) :=
    ⟨by decide, by decide, officialCall_signed _ _ (by decide +kernel)⟩
  obtain ⟨⟨signed, hdecode, hsame⟩, -⟩ :=
    h _ (VerifyCall.accepts_iff.mpr ⟨_, hgenuine, rfl⟩)
  have hofficial : decodeOfficial forgedCall.manifestJson = some (officialManifest 1000 2000) := by
    decide +kernel
  rw [hofficial] at hdecode
  cases hdecode
  have hpackages := congrArg RepositoryManifest.packages hsame
  cases hpackages

end MissionOs.Driverd
