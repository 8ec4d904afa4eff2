import MissionOs.Driverd.Operations

/-!
# What a valid signature stands for

`verify_package` finds a package valid if any enabled key of the store accepts its signature.  The
key that the caller expects is looked at only after every key has refused.

`verifyPackage_wp` says when the outcome is valid, whatever key is expected, and
`expectsSigner_iff` when a valid outcome means that the expected key has signed.
-/

namespace MissionOs.Driverd

open MissionOs.Rust MissionOs.Lib

/-! ## Keys -/

/-- The signature over the data is good under the key. -/
def TrustedKey.Accepts (key : TrustedKey) (env : Env) (data signature : Bytes) : Prop :=
  verify env key.publicKey data signature = .ok .valid

instance (key : TrustedKey) (env : Env) (data signature : Bytes) :
    Decidable (key.Accepts env data signature) :=
  inferInstanceAs (Decidable (_ = _))

namespace TrustedKeyStore

variable {store : TrustedKeyStore} {key : TrustedKey} {id : String}

/-- An id names the one key of the store that has it. -/
theorem getKey_eq_some_iff : store.getKey id = some key ↔ key ∈ store.keys ∧ key.id = id := by
  constructor
  · intro h
    exact ⟨List.mem_of_find?_eq_some h, by simpa using List.find?_some h⟩
  · intro hright
    obtain ⟨hmem, rfl⟩ := hright
    obtain ⟨key', hfind⟩ : ∃ key', store.getKey key.id = some key' := by
      apply Option.isSome_iff_exists.mp
      exact List.find?_isSome.mpr ⟨key, hmem, beq_self_eq_true key.id⟩
    have hid : key'.id = key.id := by simpa using List.find?_some hfind
    have hsame : key' = key :=
      List.inj_on_of_nodup_map store.nodup (List.mem_of_find?_eq_some hfind) hmem hid
    rw [hfind, hsame]

theorem mem_enabledKeys_iff : key ∈ store.enabledKeys ↔ key ∈ store.keys ∧ key.enabled = true :=
  List.mem_filter

/-- `id` names an enabled key under which the signature over the data is good. -/
def SignedBy (store : TrustedKeyStore) (env : Env) (id : String) (data signature : Bytes) : Prop :=
  ∃ key, store.getKey id = some key ∧ key.enabled = true ∧ key.Accepts env data signature

/-- Some enabled key accepts the signature over the data. -/
def Accepts (store : TrustedKeyStore) (env : Env) (data signature : Bytes) : Prop :=
  ∃ key ∈ store.enabledKeys, key.Accepts env data signature

theorem accepts_iff {env : Env} {data signature : Bytes} :
    store.Accepts env data signature ↔ ∃ id, store.SignedBy env id data signature := by
  constructor
  · intro h
    obtain ⟨key, hmem, hgood⟩ := h
    obtain ⟨hkey, henabled⟩ := mem_enabledKeys_iff.mp hmem
    exact ⟨key.id, key, getKey_eq_some_iff.mpr ⟨hkey, rfl⟩, henabled, hgood⟩
  · intro h
    obtain ⟨id, key, hget, henabled, hgood⟩ := h
    exact ⟨key, mem_enabledKeys_iff.mpr ⟨(getKey_eq_some_iff.mp hget).1, henabled⟩, hgood⟩

end TrustedKeyStore

/-! ## Outcomes -/

/-- What the next read of a file in a world yields. -/
def World.nextRead (w : World) (env : Env) (p : Path) : Except IoError Bytes :=
  readOutcome env (env.readFault (w.calls Event.isReadFile)) w.fs p

/-- A package passes: unsigned as far as that is allowed, and with a signature if the package can
be read and an enabled key accepts it. -/
def SignatureVerifier.Passes (verifier : SignatureVerifier) (env : Env) (w : World) (path : Path)
    (signature : Bytes) : Prop :=
  if signature = [] then verifier.allowUnsigned = true
  else ∃ data, w.nextRead env path = .ok data ∧ verifier.keyStore.Accepts env data signature

/-- The outcome is valid exactly if the package passes, whatever key is expected. -/
theorem verifyPackage_wp (env : Env) (verifier : SignatureVerifier) (path : Path)
    (signature : Bytes) (signingKeyId : Option String) (w : World) :
    wp (verifyPackage env verifier path signature signingKeyId)
      (fun r w' => Quiet w w' ∧
        (r.outcome = .valid ↔ verifier.Passes env w path signature)) w := by
  refine wp_and ((verifyPackage_quiet env verifier path signature signingKeyId).wp w) ?_
  have hconclude : ∀ (result : SignatureCheckResult) (w₁ : World),
      (result.outcome = .valid ↔ verifier.Passes env w path signature) →
      wp (concludeVerification env result)
        (fun r _ => r.outcome = .valid ↔ verifier.Passes env w path signature) w₁ :=
    fun _ _ h => concludeVerification_wp fun _ _ => h
  unfold verifyPackage
  by_cases hempty : signature = []
  · rw [if_pos (by simpa using hempty), wp_ite]
    constructor
    · intro hstrict
      exact hconclude _ _ (by simp [SignatureVerifier.Passes, hempty, by simpa using hstrict])
    · intro hlenient
      exact hconclude _ _ (by simp [SignatureVerifier.Passes, hempty, by simpa using hlenient])
  rw [if_neg (by simpa using hempty), wp_bind, wp_get, wp_bind]
  simp only [readFile, wp_bind, emit, wp_modify, wp_get, wp_pure, World.record_fs]
  have hpasses : verifier.Passes env w path signature ↔
      ∃ data, w.nextRead env path = .ok data ∧
        verifier.keyStore.Accepts env data signature := by
    rw [SignatureVerifier.Passes, if_neg hempty]
  rw [World.nextRead] at hpasses
  cases hread : readOutcome env (env.readFault (w.calls Event.isReadFile)) w.fs path with
  | error e => exact hconclude _ _ (by simp [hpasses, hread])
  | ok packageData =>
      have hfinds : verifier.Passes env w path signature ↔
          verifier.keyStore.Accepts env packageData signature := by
        simp [hpasses, hread]
      dsimp only
      split
      · rename_i key hfind
        rw [wp_bind, wp_modify]
        have hgood : verify env key.publicKey packageData signature = .ok .valid := by
          simpa using List.find?_some hfind
        exact hconclude _ _
          (iff_of_true rfl (hfinds.mpr ⟨key, List.mem_of_find?_eq_some hfind, hgood⟩))
      · rename_i hnone
        have hrefused : ¬ verifier.Passes env w path signature := by
          rw [hfinds]
          intro hright
          obtain ⟨key, hmem, hgood⟩ := hright
          have hbad : verify env key.publicKey packageData signature ≠ .ok .valid := by
            simpa using List.find?_eq_none.mp hnone key hmem
          exact hbad hgood
        split
        · exact hconclude _ _ (iff_of_false (by simp) hrefused)
        · exact hconclude _ _ (iff_of_false (by simp) hrefused)

/-! ## The expected signer -/

/-- A valid outcome of a verification that expects the key `id` means that this key is enabled
and that the signature over the bytes of the package is good under it. -/
def SignatureVerifier.ExpectsSigner (verifier : SignatureVerifier) (env : Env) (w : World)
    (path : Path) (signature : Bytes) (id : String) : Prop :=
  wp (verifyPackage env verifier path signature (some id))
    (fun r _ => r.outcome = .valid →
      ∃ data, w.fs.get? path = some data ∧ verifier.keyStore.SignedBy env id data signature) w

/-- A valid outcome stands for the expected signer exactly if the package cannot be read, or no
other key accepts a signature that the expected key has not made. -/
theorem expectsSigner_iff (verifier : SignatureVerifier) (env : Env) (w : World) (path : Path)
    (signature : Bytes) (hsignature : signature ≠ []) (id : String) :
    verifier.ExpectsSigner env w path signature id ↔
      ∀ data, w.nextRead env path = .ok data →
        ∀ other, other ≠ id → verifier.keyStore.SignedBy env other data signature →
          verifier.keyStore.SignedBy env id data signature := by
  have hspec := verifyPackage_wp env verifier path signature (some id) w
  rw [wp_def] at hspec
  have hvalid := hspec.2
  rw [SignatureVerifier.Passes, if_neg hsignature] at hvalid
  rw [SignatureVerifier.ExpectsSigner, wp_def, hvalid]
  constructor
  · intro h data hread other _ hother
    obtain ⟨data', hget, hsigned⟩ :=
      h ⟨data, hread, TrustedKeyStore.accepts_iff.mpr ⟨other, hother⟩⟩
    cases hget.symm.trans (get?_of_readOutcome hread)
    exact hsigned
  · intro h hpost
    obtain ⟨data, hread, haccepts⟩ := hpost
    refine ⟨data, get?_of_readOutcome hread, ?_⟩
    obtain ⟨signer, hsigner⟩ := TrustedKeyStore.accepts_iff.mp haccepts
    by_cases hid : signer = id
    · exact hid ▸ hsigner
    · exact h data hread signer hid hsigner

/-! ## A signature of another key -/

/-- Two enabled keys. -/
def twoKeys : SignatureVerifier :=
  ⟨⟨[⟨"mission", "Mission release key", List.replicate 32 0, true⟩,
    ⟨"vendor", "Vendor key", List.replicate 32 1, true⟩], by decide⟩, false⟩

/-- Every signature is one of the vendor. -/
def Env.vendorSigns : Env :=
  { Env.smooth with ed25519Verify := fun publicKey _ _ => publicKey == List.replicate 32 1 }

/-- A machine with one package. -/
def World.withPackage (path : Path) : World :=
  .boot ⟨[], [], 0⟩ 0 (.ofNames []) inTreeModules (FileSystem.empty.write path [0])

theorem vendor_signature_expected :
    List.replicate 64 (0 : UInt8) ≠ [] ∧
      twoKeys.ExpectsSigner .vendorSigns (.withPackage (Path.new "/p.ko")) (Path.new "/p.ko")
        (List.replicate 64 0) "vendor" := by
  refine ⟨by decide, (expectsSigner_iff _ _ _ _ _ (by decide) _).mpr ?_⟩
  intro data _ other _ hother
  exact ⟨⟨"vendor", "Vendor key", List.replicate 32 1, true⟩, by decide, rfl, rfl⟩

/-- The key of the release is expected, and a signature of the vendor is valid. -/
theorem vendor_signature_valid :
    ¬ ∀ (verifier : SignatureVerifier) (env : Env) (w : World) (path : Path) (signature : Bytes),
      signature ≠ [] → ∀ id, verifier.ExpectsSigner env w path signature id := by
  intro h
  have hexpects := h twoKeys .vendorSigns (.withPackage (Path.new "/p.ko")) (Path.new "/p.ko")
    (List.replicate 64 0) (by decide) "mission"
  have hvalid : wp (verifyPackage .vendorSigns twoKeys (Path.new "/p.ko") (List.replicate 64 0)
      (some "mission")) (fun r _ => r.outcome = .valid) (.withPackage (Path.new "/p.ko")) := by
    rw [wp_def]
    decide
  obtain ⟨data, -, key, hkey, -, hgood⟩ := hexpects hvalid
  have hmission : key = ⟨"mission", "Mission release key", List.replicate 32 0, true⟩ := by
    cases hkey
    rfl
  rw [hmission] at hgood
  cases hgood

end MissionOs.Driverd
