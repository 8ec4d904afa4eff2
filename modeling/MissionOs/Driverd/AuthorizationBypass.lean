import MissionOs.Driverd.BadSignatures

/-!
# The authorization bypass

`main` makes the engine from the configuration and from `MISSION_ALLOW_UNAUTHORIZED`.  The
variable is meant for the authorizer, but `main` gives it to the engine as its flag for unsigned
packages, too, and `require_signature` is shown in the log and used nowhere.

`bypassIsNeutral_iff` says when the variable makes no difference to the signature check, and
`require_signature` is kept.
-/

namespace MissionOs.Driverd

open MissionOs.Rust MissionOs.Lib

/-- `VerificationConfig`, with the keys that are loaded from its directory. -/
structure VerificationConfig where
  keyStore : TrustedKeyStore
  requireSignature : Bool
  allowUnsigned : Bool

/-- What `main` makes the engine from, apart from the environment. -/
structure EngineSetup where
  verification : VerificationConfig
  packageStore : PackageStore
  conflictDetector : ConflictDetector

namespace EngineSetup

/-- The engine that `main` makes, where `MISSION_ALLOW_UNAUTHORIZED` is set or not. -/
def engine (setup : EngineSetup) (allowUnauthorized : Bool) : DriverExecutionEngine where
  authorizer := ⟨allowUnauthorized, some ⟨true, allowUnauthorized⟩⟩
  packageStore := setup.packageStore
  signatureVerifier := ⟨setup.verification.keyStore, setup.verification.allowUnsigned⟩
  conflictDetector := setup.conflictDetector
  allowUnsigned := allowUnauthorized

variable (setup : EngineSetup) (env : Env) (request : InstallRequest) (caller : String)
  (devices : List HardwareDevice) (w : World)

/-- The package of a driver is staged with a signature that an enabled key accepts. -/
def WellSigned (d : DriverEntry) : Prop :=
  ∃ data signature, w.fs.get? ((setup.engine false).findPackagePath w d) = some data ∧
    w.fs.get? ((setup.engine false).signaturePath d) = some signature ∧ signature ≠ [] ∧
    setup.verification.keyStore.Accepts env data signature

/-- An installation that is authorized without the bypass passes its checks, the last of which is
that of the signature, with the bypass exactly if it does without.  Where signatures are required,
no package passes that is not well signed. -/
def BypassIsNeutral : Prop :=
  (setup.engine false).GrantsNext env w.fresh .installDriver caller → ∀ d,
    ((setup.engine true).Admits env (.install request caller devices) w.fresh d ↔
      (setup.engine false).Admits env (.install request caller devices) w.fresh d) ∧
    (setup.verification.requireSignature = true → ∀ allowUnauthorized,
      (setup.engine allowUnauthorized).Admits env (.install request caller devices) w.fresh d →
        setup.WellSigned env w d)

/-- An installation gets to the signature check of a driver. -/
structure GetsToSignature (d : DriverEntry) : Prop
    extends (setup.engine false).GetsToSignature env request caller devices w d where
  found : w.inventory.findDriver request.driverName request.provider = some d

variable {setup env request caller devices w} {d : DriverEntry}

/-- With the bypass the signature is not looked at. -/
theorem admits_bypass_iff
    (hgranted : (setup.engine false).GrantsNext env w.fresh .installDriver caller) :
    (setup.engine true).Admits env (.install request caller devices) w.fresh d ↔
      setup.GetsToSignature env request caller devices w d := by
  rw [DriverExecutionEngine.admits_install_iff]
  constructor
  · intro h
    exact ⟨⟨hgranted, h.valid, h.unblocked⟩, h.found⟩
  · intro h
    have hbypass : (setup.engine true).GrantsNext env w.fresh .installDriver caller := by
      simp [DriverExecutionEngine.GrantsNext, Authorizer.grants, engine]
    exact ⟨hbypass, h.valid, h.found, h.unblocked, fun _ => Or.inl rfl⟩

/-- Without the bypass the package has to pass. -/
theorem admits_strict_iff :
    (setup.engine false).Admits env (.install request caller devices) w.fresh d ↔
      setup.GetsToSignature env request caller devices w d ∧
        (setup.engine false).SignaturePasses env w.fresh d := by
  rw [DriverExecutionEngine.admits_install_iff]
  constructor
  · intro h
    exact ⟨⟨⟨h.granted, h.valid, h.unblocked⟩, h.found⟩, h.signed⟩
  · intro h
    exact ⟨h.1.granted, h.1.valid, h.1.found, h.1.unblocked, h.2⟩

/-- The bypass is neutral exactly if the package of a driver that gets to the signature check
passes it without the bypass, and is well signed where that is required. -/
theorem bypassIsNeutral_iff (setup : EngineSetup) (env : Env) (request : InstallRequest)
    (caller : String) (devices : List HardwareDevice) (w : World) :
    setup.BypassIsNeutral env request caller devices w ↔
      ∀ d, setup.GetsToSignature env request caller devices w d →
        (setup.engine false).SignaturePasses env w.fresh d ∧
          (setup.verification.requireSignature = true → setup.WellSigned env w d) := by
  constructor
  · intro h d hgets
    obtain ⟨hsame, hrequired⟩ := h hgets.granted d
    have hbypass := (admits_bypass_iff hgets.granted).mpr hgets
    exact ⟨(admits_strict_iff.mp (hsame.mp hbypass)).2, fun hrequire =>
      hrequired hrequire true hbypass⟩
  · intro h hgranted d
    have hgets : ∀ {allow}, (setup.engine allow).Admits env (.install request caller devices)
        w.fresh d → setup.GetsToSignature env request caller devices w d := by
      intro allow hadmits
      cases allow with
      | true => exact (admits_bypass_iff hgranted).mp hadmits
      | false => exact (admits_strict_iff.mp hadmits).1
    refine ⟨⟨fun hbypass => ?_, fun hstrict => ?_⟩, fun hrequire allow hadmits => ?_⟩
    · exact admits_strict_iff.mpr ⟨hgets hbypass, (h d (hgets hbypass)).1⟩
    · exact (admits_bypass_iff hgranted).mpr (hgets hstrict)
    · exact (h d (hgets hadmits)).2 hrequire

end EngineSetup

/-- The default configuration, with the key and the package store of the strict engine. -/
def EngineSetup.default : EngineSetup where
  verification := ⟨DriverExecutionEngine.strict.signatureVerifier.keyStore, true, false⟩
  packageStore := DriverExecutionEngine.strict.packageStore
  conflictDetector := DriverExecutionEngine.strict.conflictDetector

/-- Signatures are required, and with `MISSION_ALLOW_UNAUTHORIZED` an unsigned `e1000e` passes. -/
theorem unsigned_passes_with_bypass :
    ¬ ∀ (setup : EngineSetup) (env : Env) (request : InstallRequest) (caller : String)
      (devices : List HardwareDevice) (w : World),
      setup.BypassIsNeutral env request caller devices w := by
  intro h
  let w : World := .boot ⟨[e1000eDriver .available], [], 0⟩ 0 (.ofNames []) inTreeModules .empty
  have hgranted : (EngineSetup.default.engine false).GrantsNext .smooth w.fresh .installDriver
      ":1.5" := by decide
  have hbypass : (EngineSetup.default.engine true).Admits .smooth
      (.install ⟨"e1000e", "linux", none, true⟩ ":1.5" []) w.fresh (e1000eDriver .available) :=
    (EngineSetup.admits_bypass_iff hgranted).mpr
      ⟨⟨hgranted, by decide, Or.inl rfl⟩, by decide⟩
  obtain ⟨data, signature, hdata, -⟩ :=
    (h .default .smooth _ ":1.5" [] w hgranted _).2 rfl true hbypass
  cases hdata

end MissionOs.Driverd
