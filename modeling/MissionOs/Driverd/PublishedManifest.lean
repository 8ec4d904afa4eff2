import MissionOs.Driverd.DigestText
import MissionOs.Driverd.FreshnessWindow
import MissionOs.Driverd.SignatureText

/-!
# Publishing a manifest

The other end of `verify_manifest`: `ManifestBuilder`, with which the tools of a repository make
its manifest, and what they send with it, the bytes of the JSON form and the hexadecimal text of
the signature over them.

Which manifest a builder makes is said by its calls: of each setter the last one counts.  Under
the law of the signature scheme (`Ed25519KeyPair.Works`) this says what clients accept, and for how
long.  The JSON form is a parameter, as the client verifies the bytes that it received.
-/

namespace MissionOs.Driverd

open MissionOs.Rust

/-! ## The builder -/

/-- `DEFAULT_FRESHNESS_SECS`. -/
def defaultFreshnessSecs : UInt64 := 86400

/-- `ManifestBuilder`. -/
structure ManifestBuilder where
  repositoryId : String
  manifestVersion : UInt32
  issuedAt : UInt64
  expiresAt : UInt64
  signingKeyId : String
  packages : List RepositoryPackageEntry
deriving DecidableEq, Repr

/-- A key pair, with which messages are signed. -/
structure Ed25519KeyPair where
  publicKey : Bytes
  sign : Bytes → Bytes

namespace ManifestBuilder

/-- `ManifestBuilder::new` at the time `now`. -/
def new (repositoryId : String) (now : UInt64) : ManifestBuilder where
  repositoryId := repositoryId
  manifestVersion := 1
  issuedAt := now
  expiresAt := now + defaultFreshnessSecs
  signingKeyId := ""
  packages := []

/-- The setters. -/
inductive Call where
  | version (version : UInt32)
  | issuedAt (ts : UInt64)
  | expiresAt (ts : UInt64)
  | signingKey (keyId : String)
  | addPackage (pkg : RepositoryPackageEntry)
deriving DecidableEq, Repr

def apply (builder : ManifestBuilder) : Call → ManifestBuilder
  | .version version => { builder with manifestVersion := version }
  | .issuedAt ts => { builder with issuedAt := ts }
  | .expiresAt ts => { builder with expiresAt := ts }
  | .signingKey keyId => { builder with signingKeyId := keyId }
  | .addPackage pkg => { builder with packages := builder.packages ++ [pkg] }

variable (builder : ManifestBuilder)

/-- `build`. -/
def build : RepositoryManifest where
  repositoryId := builder.repositoryId
  manifestVersion := builder.manifestVersion
  issuedAt := builder.issuedAt
  expiresAt := builder.expiresAt
  signingKeyId := builder.signingKeyId
  packages := builder.packages
  verification := .unverified

/-- `build_and_sign`, with the JSON form as a parameter. -/
def buildAndSign (toVec : RepositoryManifest → Bytes) (pair : Ed25519KeyPair) :
    RepositoryManifest × Bytes × String :=
  let manifest := builder.build
  let json := toVec manifest
  (manifest, json, hexEncode (pair.sign json))

end ManifestBuilder

/-! ## What the calls say -/

namespace ManifestBuilder.Call

def version? : Call → Option UInt32
  | version v => some v
  | _ => none

def issuedAt? : Call → Option UInt64
  | issuedAt ts => some ts
  | _ => none

def expiresAt? : Call → Option UInt64
  | expiresAt ts => some ts
  | _ => none

def signingKey? : Call → Option String
  | signingKey keyId => some keyId
  | _ => none

def addPackage? : Call → Option RepositoryPackageEntry
  | addPackage pkg => some pkg
  | _ => none

/-- What was set last, or what was there. -/
def last {α : Type} (read : Call → Option α) (calls : List Call) (was : α) : α :=
  (calls.filterMap read).getLastD was

end ManifestBuilder.Call

open ManifestBuilder (Call)

/-- A field that one setter sets has what that set last. -/
theorem field_of_calls {α : Type} (read : Call → Option α) (field : ManifestBuilder → α)
    (h : ∀ builder call, field (builder.apply call) = (read call).getD (field builder))
    (calls : List Call) (builder : ManifestBuilder) :
    field (calls.foldl ManifestBuilder.apply builder) = Call.last read calls (field builder) := by
  induction calls generalizing builder with
  | nil => rfl
  | cons call calls ih =>
      rw [List.foldl_cons, ih, h, Call.last, Call.last, List.filterMap_cons]
      cases read call with
      | none => rfl
      | some a => exact List.getLastD_cons.symm

theorem packages_of_calls (calls : List Call) (builder : ManifestBuilder) :
    (calls.foldl ManifestBuilder.apply builder).packages =
      builder.packages ++ calls.filterMap Call.addPackage? := by
  induction calls generalizing builder with
  | nil => exact (List.append_nil _).symm
  | cons call calls ih =>
      rw [List.foldl_cons, ih, List.filterMap_cons]
      cases call with
      | addPackage pkg => exact List.append_assoc builder.packages [pkg] _
      | _ => rfl

/-- What a new builder makes after the calls. -/
def published (repositoryId : String) (now : UInt64) (calls : List Call) : RepositoryManifest where
  repositoryId := repositoryId
  manifestVersion := Call.last Call.version? calls 1
  issuedAt := Call.last Call.issuedAt? calls now
  expiresAt := Call.last Call.expiresAt? calls (now + defaultFreshnessSecs)
  signingKeyId := Call.last Call.signingKey? calls ""
  packages := calls.filterMap Call.addPackage?
  verification := .unverified

theorem build_of_calls (repositoryId : String) (now : UInt64) (calls : List Call) :
    (calls.foldl ManifestBuilder.apply (.new repositoryId now)).build =
      published repositoryId now calls := by
  have hrepository := field_of_calls (fun _ => none) ManifestBuilder.repositoryId
    (fun _ call => by cases call <;> rfl) calls (.new repositoryId now)
  have hversion := field_of_calls Call.version? ManifestBuilder.manifestVersion
    (fun _ call => by cases call <;> rfl) calls (.new repositoryId now)
  have hissued := field_of_calls Call.issuedAt? ManifestBuilder.issuedAt
    (fun _ call => by cases call <;> rfl) calls (.new repositoryId now)
  have hexpires := field_of_calls Call.expiresAt? ManifestBuilder.expiresAt
    (fun _ call => by cases call <;> rfl) calls (.new repositoryId now)
  have hkey := field_of_calls Call.signingKey? ManifestBuilder.signingKeyId
    (fun _ call => by cases call <;> rfl) calls (.new repositoryId now)
  rw [Call.last, List.filterMap_none] at hrepository
  rw [ManifestBuilder.build, hrepository, hversion, hissued, hexpires, hkey, packages_of_calls]
  rfl

/-! ## What clients accept -/

/-- What `validate` checks of a manifest. -/
structure RepositoryManifest.Proper (unicode : String → String) (manifest : RepositoryManifest) :
    Prop where
  repository : trimIsEmpty manifest.repositoryId = false
  version : manifest.manifestVersion = 1
  signingKey : trimIsEmpty manifest.signingKeyId = false
  issued : manifest.issuedAt ≠ 0
  expires : manifest.issuedAt < manifest.expiresAt
  entries : ∀ pkg ∈ manifest.packages, pkg.WellFormed unicode
  distinct : (manifest.packages.map RepositoryPackageEntry.key).Nodup

theorem validate_iff_proper {unicode : String → String} {manifest : RepositoryManifest} :
    manifest.validate unicode = .ok () ↔ manifest.Proper unicode := by
  simp only [RepositoryManifest.validate, bind_unit_eq_ok_iff, refuseIf_eq_ok_iff,
    validatePackages_eq_ok_iff]
  constructor
  · rintro ⟨hrepository, hversion, hkey, hissued, -, hexpires, hentries, hdistinct, -⟩
    refine ⟨hrepository, by simpa using hversion, hkey, by simpa using hissued, ?_, hentries,
      hdistinct⟩
    simpa using hexpires
  · intro h
    have hexpires : manifest.expiresAt ≠ 0 := by
      intro hzero
      have hlt := UInt64.lt_iff_toNat_lt.mp h.expires
      rw [hzero] at hlt
      exact Nat.not_lt_zero _ hlt
    refine ⟨h.repository, by simpa using h.version, h.signingKey, by simpa using h.issued,
      by simpa using hexpires, by simpa using h.expires, h.entries, h.distinct, ?_⟩
    intro pkg _
    exact List.not_mem_nil

section Signed

variable {env : Env} {message signature : Bytes} {signatureHex keyHex : String}
  {trustedKeys : List String}

/-- Every character of a hexadecimal text is one byte. -/
theorem utf8Size_of_isHex {text : List Char} {bytes : Bytes} (h : IsHex text bytes) :
    ∀ c ∈ text, c.utf8Size = 1 := by
  intro c hc
  obtain ⟨n, hn⟩ := isHexDigit_iff.mp (isHexDigit_of_isHex h c hc)
  exact utf8Size_of_hexValue hn

theorem not_cutsCharacter_of_isHex {s : String} {bytes : Bytes} (h : IsHex s.toList bytes) :
    ¬ CutsCharacter (trim s.toList) := by
  intro hcut
  have hread := hexDecode_eq_some_iff.mpr (trim_of_isHex h ▸ h.readsAs)
  have herror := (hexDecode_eq_error_iff (e := .charBoundary)).mpr hcut
  rw [hread] at herror
  cases herror

theorem not_cutsAt_of_isHex {text : List Char} {bytes : Bytes} (h : IsHex text bytes) (n : Nat) :
    ¬ CutsAt n text := by
  rintro ⟨pre, c, post, rfl, hbefore, hafter⟩
  have hone := utf8Size_of_isHex h c (by simp)
  omega

/-- Of hexadecimal texts, the first key is found under which the signature is good. -/
theorem signedBy_iff_of_isHex (hsignature : IsHex signatureHex.toList signature)
    (hlength : signature.length = 64)
    (hkeys : ∀ keyHex ∈ trustedKeys, ∃ key, IsHex keyHex.toList key) :
    SignedBy env message signatureHex trustedKeys keyHex ↔
      IsFirst (Genuine env message signature) trustedKeys keyHex := by
  have hplain : PlainTexts env message signatureHex trustedKeys := by
    refine ⟨not_cutsCharacter_of_isHex hsignature, ?_⟩
    rintro signature' - - pre keyHex post rfl -
    obtain ⟨key, hkey⟩ := hkeys keyHex (by simp)
    refine ⟨not_cutsCharacter_of_isHex hkey, fun _ => ?_⟩
    rw [trim_of_isHex hsignature, trim_of_isHex hkey]
    exact ⟨hsignature.not_mem_plus, hkey.not_mem_plus, not_cutsAt_of_isHex hkey 16⟩
  obtain ⟨result, -, haudited, hresult⟩ := checksFaithfully_of_plain hplain
  obtain ⟨events, hevents⟩ := haudited "" ""
  have hverified : VerifiedBy env message signatureHex trustedKeys keyHex ↔
      IsFirst (Genuine env message signature) trustedKeys keyHex := by
    rw [VerifiedBy, trim_of_isHex hsignature]
    constructor
    · rintro ⟨signature', hsignature', -, hfirst⟩
      rwa [hsignature'.readsAs.unique hsignature.readsAs] at hfirst
    · exact fun hfirst => ⟨signature, hsignature, hlength, hfirst⟩
  have hfound : SignedBy env message signatureHex trustedKeys keyHex ↔
      ∃ events, verifyManifestSignatureAudited env message signatureHex trustedKeys "" "" =
        .ok (.verified keyHex, events) := verifyManifestSignatureAudited_eq_iff.symm
  rw [← hverified, ← hresult, hfound, hevents]
  constructor
  · rintro ⟨events', heq⟩
    exact (Prod.mk.inj (Except.ok.inj heq)).1
  · rintro rfl
    exact ⟨events, rfl⟩

end Signed

/-- The law of the signature scheme: what is signed with the pair is good under its public key. -/
structure Ed25519KeyPair.Works (pair : Ed25519KeyPair) (env : Env) : Prop where
  good : ∀ message, GoodKey env message (pair.sign message) pair.publicKey
  length : ∀ message, (pair.sign message).length = 64

/-- A client that trusts the key of a publisher accepts what that makes exactly if it is proper,
and as long as the clock of the client is in its window.  It gets what was said last by the calls of
the builder, marked with a key under which the signature is good. -/
theorem published_accepted_iff {env : Env} {pair : Ed25519KeyPair} (hpair : pair.Works env)
    (toVec : RepositoryManifest → Bytes) {trustedKeys : List String}
    (hkeys : ∀ keyHex ∈ trustedKeys, ∃ key, IsHex keyHex.toList key)
    (htrusted : ∃ keyHex ∈ trustedKeys, IsHex keyHex.toList pair.publicKey)
    (policy : FreshnessPolicy) (repositoryId subject : String) (issued now : UInt64)
    (calls : List Call) (hclock : now.toNat + policy.clockSkewSecs.toNat < 2 ^ 64) :
    let manifest := published repositoryId issued calls
    let sent := (calls.foldl ManifestBuilder.apply (.new repositoryId issued)).buildAndSign toVec
      pair
    let call : VerifyCall := ⟨now, sent.2.1, sent.1, sent.2.2, trustedKeys, subject⟩
    ((∃ m, call.Accepts env ⟨policy⟩ m) ↔
      manifest.Proper env.unicodeLowercase ∧ manifest.InWindow policy now) ∧
    ∀ m, call.Accepts env ⟨policy⟩ m → ∃ keyHex ∈ trustedKeys,
      m = { manifest with verification := .verified keyHex } ∧
        Genuine env sent.2.1 (pair.sign sent.2.1) keyHex := by
  intro manifest sent call
  have hsent : sent = (manifest, toVec manifest, hexEncode (pair.sign (toVec manifest))) := by
    show ManifestBuilder.buildAndSign _ toVec pair = _
    rw [ManifestBuilder.buildAndSign, build_of_calls]
  have hcall : call = ⟨now, toVec manifest, manifest,
      hexEncode (pair.sign (toVec manifest)), trustedKeys, subject⟩ := by
    show VerifyCall.mk _ _ _ _ _ _ = _
    rw [hsent]
  have hsigned (keyHex : String) : SignedBy env (toVec manifest)
      (hexEncode (pair.sign (toVec manifest))) trustedKeys keyHex ↔
        IsFirst (Genuine env (toVec manifest) (pair.sign (toVec manifest))) trustedKeys keyHex :=
    signedBy_iff_of_isHex (isHex_hexEncode _) (hpair.length _) hkeys
  have hgenuine (keyHex : String) : call.Genuine env ⟨policy⟩ keyHex ↔
      (manifest.Proper env.unicodeLowercase ∧ manifest.InWindow policy now) ∧
        IsFirst (Genuine env (toVec manifest) (pair.sign (toVec manifest))) trustedKeys
          keyHex := by
    have hfresh : manifest.checkFreshness policy now = .ok () ↔ manifest.InWindow policy now :=
      RepositoryManifest.checkFreshness_iff_inWindow.mpr fun hwraps => by
        have hwrap := hwraps.1
        omega
    rw [hcall, ← hsigned, ← hfresh, ← validate_iff_proper]
    exact ⟨fun h => ⟨⟨h.wellFormed, h.fresh⟩, h.signed⟩, fun h => ⟨h.1.1, h.1.2, h.2⟩⟩
  have hmanifest : call.manifest = manifest := by rw [hcall]
  have hjson : sent.2.1 = toVec manifest := by rw [hsent]
  constructor
  · constructor
    · rintro ⟨m, hm⟩
      obtain ⟨keyHex, hkey, -⟩ := VerifyCall.accepts_iff.mp hm
      exact ((hgenuine keyHex).mp hkey).1
    · intro hgood
      obtain ⟨keyHex, hmem, hhex⟩ := htrusted
      have hfirst : Genuine env (toVec manifest) (pair.sign (toVec manifest)) keyHex :=
        ⟨pair.publicKey, by rwa [trim_of_isHex hhex], hpair.good _⟩
      obtain ⟨first, hfirst⟩ := exists_isFirst hmem hfirst
      exact ⟨_, VerifyCall.accepts_iff.mpr ⟨first, (hgenuine first).mpr ⟨hgood, hfirst⟩, rfl⟩⟩
  · intro m hm
    obtain ⟨keyHex, hkey, rfl⟩ := VerifyCall.accepts_iff.mp hm
    have hfirst := ((hgenuine keyHex).mp hkey).2
    rw [hmanifest, hjson]
    exact ⟨keyHex, hfirst.mem, rfl, hfirst.holds⟩

/-- A pair that signs with the beginning of the message. -/
def plainPair : Ed25519KeyPair where
  publicKey := List.replicate 32 0
  sign message := (message ++ List.replicate 64 0).take 64

/-- Where exactly these signatures are good. -/
def plainEnv : Env :=
  { Env.smooth with
    ed25519Verify := fun key message signature =>
      key = plainPair.publicKey && signature = plainPair.sign message }

theorem plainPair_works : plainPair.Works plainEnv where
  good message := ⟨by decide, rfl, by simp [plainEnv]⟩
  length message := by simp [plainPair]

/-- The JSON form of a manifest of the official repository without packages. -/
def officialToVec (manifest : RepositoryManifest) : Bytes :=
  officialJson (toString manifest.issuedAt) (toString manifest.expiresAt)

/-- What is sent for a manifest that was made at 1000. -/
def officialSent : RepositoryManifest × Bytes × String :=
  (([.signingKey (String.ofList (List.replicate 64 '0'))] : List Call).foldl ManifestBuilder.apply
    (.new "mission" 1000)).buildAndSign officialToVec plainPair

/-- It is accepted until the end of a day, and not any longer. -/
theorem published_accepted_official :
    (∃ m, VerifyCall.Accepts plainEnv ⟨.default⟩ ⟨87400, officialSent.2.1, officialSent.1,
      officialSent.2.2, [hexEncode plainPair.publicKey], "driverd"⟩ m) ∧
    ¬ ∃ m, VerifyCall.Accepts plainEnv ⟨.default⟩ ⟨87401, officialSent.2.1, officialSent.1,
      officialSent.2.2, [hexEncode plainPair.publicKey], "driverd"⟩ m := by
  have hkey := isHex_hexEncode plainPair.publicKey
  have haccepted (now : UInt64) (hclock : now.toNat + 300 < 2 ^ 64) :=
    (published_accepted_iff plainPair_works officialToVec
      (List.forall_mem_singleton.mpr ⟨_, hkey⟩) ⟨_, List.mem_singleton_self _, hkey⟩ .default
      "mission" "driverd" 1000 now [.signingKey (String.ofList (List.replicate 64 '0'))] hclock).1
  constructor
  · refine (haccepted 87400 (by decide)).mpr ⟨?_, by rw [RepositoryManifest.InWindow]; decide⟩
    exact ⟨by decide, by decide, by decide, by decide, by decide, List.forall_mem_nil _,
      List.nodup_nil⟩
  · intro h
    have hwindow := ((haccepted 87401 (by decide)).mp h).2
    rw [RepositoryManifest.InWindow] at hwindow
    revert hwindow
    decide

end MissionOs.Driverd
