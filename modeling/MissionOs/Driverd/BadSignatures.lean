import MissionOs.Driverd.KernelTruth
import MissionOs.Driverd.OperationChecks
import MissionOs.Driverd.PathContainment

/-!
# Packages with a bad signature

A verifier that allows unsigned packages still refuses a signature that no key accepts.  The engine
has a flag of the same name, and with it goes on whatever the verifier has found.

`rejectsBadSignatures_iff` says when an installation of a badly signed package fails, and neither
hands a file to the kernel nor copies one.
-/

namespace MissionOs.Driverd

open MissionOs.Rust MissionOs.Lib

/-! ## Loads and copies -/

/-- A call that hands a file to the kernel, or copies one. -/
def Event.isTransfer : Event → Bool
  | .loadModule _ _ _ | .initModule _ _ | .copyFile _ _ _ => true
  | _ => false

theorem Event.isTransfer_of_isQuiet {e : Event} (h : e.isQuiet = true) : e.isTransfer = false := by
  cases e <;> simp_all [isQuiet, isWrite, isLoadModule, isTransfer]

/-- A file was handed to the kernel or copied. -/
def World.Transfers (w : World) : Prop := ∃ e ∈ w.trace, e.isTransfer = true

/-- Nothing more was handed to the kernel or copied. -/
abbrev Holds : World → World → Prop := Adds fun e => e.isTransfer = false

theorem Adds.transfers {w w' : World} (h : Grows w w') (hw : w.Transfers) : w'.Transfers := by
  obtain ⟨e, he, htransfer⟩ := hw
  exact ⟨e, h.mem he, htransfer⟩

theorem Logs.holds {w w' : World} (h : Quiet w w') : Holds w w' := by
  obtain ⟨es, htrace, hes⟩ := h.trace_eq
  exact ⟨es, htrace, fun e he => Event.isTransfer_of_isQuiet (hes e he)⟩

theorem loadModule_transfers (env : Env) (name : String) (path : Path) (params : List String)
    (w : World) : wp (loadModule env name path params) (fun _ w' => w'.Transfers) w := by
  refine wp_mono (loadModule_spec env name path params w) ?_
  intro r _ hpost
  obtain ⟨-, es, rfl, -⟩ := hpost
  exact ⟨_, List.mem_append_right _ List.mem_cons_self, rfl⟩

namespace DriverExecutionEngine

variable {engine : DriverExecutionEngine} {env : Env} {d : DriverEntry}

/-- A module of which the package is there is handed to the kernel, and firmware is copied. -/
theorem executeInstall_transfers {w : World}
    (htype : d.id.moduleType = .kernelModule ∨ d.id.moduleType = .firmware)
    (hpackage : w.pathExists (engine.findPackagePath w d) = true) :
    wp (engine.executeInstall env d) (fun _ w' => w'.Transfers) w := by
  rcases htype with hmodule | hfirmware
  · unfold executeInstall
    rw [wp_bind, wp_get, hmodule]
    dsimp only
    rw [if_pos hpackage]
    exact loadModule_transfers ..
  · refine wp_mono (executeInstall_touches hfirmware w) ?_
    intro r w' hpost
    obtain ⟨staged, hmem⟩ := hpost
    exact ⟨_, hmem, rfl⟩

/-- An overlay is not supported, and nothing is done. -/
theorem executeInstall_overlay (htype : d.id.moduleType = .deviceTreeOverlay) (w : World) :
    wp (engine.executeInstall env d) (fun r w' => w' = w ∧ ∃ e, r = .error e) w := by
  unfold executeInstall
  rw [wp_bind, wp_get, htype]
  exact ⟨rfl, _, rfl⟩

/-- Of a driver in user space nothing is done. -/
theorem executeInstall_userspace (htype : d.id.moduleType = .userspace) (w : World) :
    wp (engine.executeInstall env d) (fun r _ => r = .ok ()) w := by
  unfold executeInstall
  rw [wp_bind, wp_get, htype]
  exact rfl

/-- A rollback hands a file to the kernel exactly if the driver was loaded. -/
theorem rollbackOperation_transfers {saved : SavedState} {correlationId caller : String}
    {w : World} (hfind : w.tracker.findState correlationId = some saved) :
    wp (engine.rollbackOperation env correlationId caller)
      (fun _ w' => (saved.wasLoaded = true → w'.Transfers) ∧
        (saved.wasLoaded = false → Holds w w')) w := by
  unfold rollbackOperation
  rw [wp_bind, wp_get, hfind]
  dsimp only
  rw [wp_bind, wp_modify]
  cases hloaded : saved.wasLoaded with
  | false =>
      simp only [Bool.false_eq_true, if_false, wp_bind]
      refine audit_wp fun e => ⟨(fun h => nomatch h), fun _ => ⟨[.audit e], rfl, ?_⟩⟩
      rw [List.forall_mem_singleton]
      rfl
  | true =>
      simp only [if_true, wp_bind, wp_get, wp_discard]
      refine wp_mono (loadModule_transfers env saved.driver.id.name _ _ _) ?_
      intro _ w₁ htransfers
      refine audit_wp fun e => ⟨fun _ => ?_, (fun h => nomatch h)⟩
      obtain ⟨e', he', htransfer⟩ := htransfers
      exact ⟨e', List.mem_append_left _ he', htransfer⟩

/-- The second stage for an overlay hands a file to the kernel exactly if a module of its name is
loaded. -/
theorem transact_overlay (htype : d.id.moduleType = .deviceTreeOverlay) {caller : String}
    {commit : StateM World Unit} {success : OperationResult} {driverName failure : String}
    {w : World} (htracker : w.tracker = .new) :
    wp (engine.transact env d caller (engine.executeInstall env d) commit success driverName
        failure)
      (fun r w' => (∃ error, r = .failed driverName failure error) ∧
        (isLoaded w d.id.name = true → w'.Transfers) ∧
        (isLoaded w d.id.name = false → Holds w w')) w := by
  unfold transact
  rw [wp_bind, saveState_wp]
  refine wp_bind_of (executeInstall_overlay htype _) ?_
  intro _ _ hpost
  obtain ⟨rfl, e, rfl⟩ := hpost
  dsimp only
  refine wp_bind_of (rollbackOperation_transfers (findState_saving htracker d)) ?_
  intro _ w₁ hpost
  obtain ⟨hloaded, hnot⟩ := hpost
  exact ⟨⟨e.display, rfl⟩, hloaded, hnot⟩

/-! ## Badly signed packages -/

variable (engine env) in
/-- The package of a driver is staged with a signature that no enabled key accepts. -/
structure BadlySigned (w : World) (d : DriverEntry) : Prop where
  staged : w.pathExists (engine.findPackagePath w d) = true
  signed : ∃ data signature, w.fs.get? (engine.findPackagePath w d) = some data ∧
    w.fs.get? (engine.signaturePath d) = some signature ∧ signature ≠ [] ∧
    ¬ engine.signatureVerifier.keyStore.Accepts env data signature

variable (engine env) in
/-- The engine looks at the signature of a driver, and goes by it.  A signature that cannot be read
is none, and then the verifier must not allow unsigned packages. -/
structure GoesBySignature (d : DriverEntry) : Prop where
  type : d.id.moduleType = .kernelModule ∨ d.id.moduleType = .firmware
  engineFlag : engine.allowUnsigned = false
  read : env.readFault 0 = none ∨ engine.signatureVerifier.allowUnsigned = false

/-- A badly signed package passes the signature check exactly if the engine does not go by it. -/
theorem signaturePasses_iff {w : World} (h : engine.BadlySigned env w d) :
    engine.SignaturePasses env w.fresh d ↔ ¬ engine.GoesBySignature env d := by
  obtain ⟨data, signature, hdata, hsignature, hne, hrefused⟩ := h.signed
  have hpath : engine.findPackagePath w.fresh d = engine.findPackagePath w d :=
    findPackagePath_congr engine d rfl rfl
  have hfound : engine.foundSignature env w.fresh d =
      if env.readFault 0 = none then signature else [] := by
    show (readOutcome env (env.readFault 0) w.fs (engine.signaturePath d)).toOption.getD [] = _
    unfold readOutcome
    rw [hsignature]
    cases env.readFault 0 <;> rfl
  have hpasses : engine.signatureVerifier.Passes env
      (w.fresh.record (.readFile (engine.signaturePath d))) (engine.findPackagePath w.fresh d)
      (engine.foundSignature env w.fresh d) ↔
      ¬ (env.readFault 0 = none ∨ engine.signatureVerifier.allowUnsigned = false) := by
    rw [hpath, hfound, not_or]
    unfold SignatureVerifier.Passes
    by_cases hfault : env.readFault 0 = none
    · rw [if_pos hfault, if_neg hne]
      refine iff_of_false ?_ fun hno => hno.1 hfault
      intro hright
      obtain ⟨data', hread, haccepts⟩ := hright
      cases hdata.symm.trans (get?_of_readOutcome hread)
      exact hrefused haccepts
    · rw [if_neg hfault, if_pos rfl]
      simp [hfault]
  unfold SignaturePasses
  rw [hpasses]
  constructor
  · intro hpass hgoes
    rcases hpass hgoes.type with hlenient | hread
    · rw [hgoes.engineFlag] at hlenient
      cases hlenient
    · exact hread hgoes.read
  · intro hnot htype
    by_contra hno
    rw [not_or, Bool.not_eq_true, not_not] at hno
    exact hnot ⟨htype, hno.1, hno.2⟩

/-! ## Installations -/

variable (engine env) in
/-- An installation is granted and valid, and no conflict stops it. -/
structure GetsToSignature (request : InstallRequest) (caller : String)
    (devices : List HardwareDevice) (w : World) (d : DriverEntry) : Prop where
  granted : engine.GrantsNext env w.fresh .installDriver caller
  valid : request.validate = .ok ()
  unblocked : request.force = true ∨
    (engine.conflictDetector.checkInstall d w.inventory.drivers (liveModules env w.kernel)
      devices).hasConflicts = false

variable (engine env) in
/-- An installation of a badly signed package fails, and hands nothing to the kernel and copies
nothing. -/
def RejectsBadSignatures (request : InstallRequest) (caller : String)
    (devices : List HardwareDevice) (w : World) : Prop :=
  ∀ d, w.inventory.findDriver request.driverName request.provider = some d →
    engine.BadlySigned env w d →
    (engine.result env (.install request caller devices) w).status = .failed ∧
      ¬ (engine.next (.call env (.install request caller devices)) w).Transfers

variable {request : InstallRequest} {caller : String} {devices : List HardwareDevice} {w : World}

theorem admits_badlySigned_iff
    (hfound : w.inventory.findDriver request.driverName request.provider = some d)
    (hbad : engine.BadlySigned env w d) :
    engine.Admits env (.install request caller devices) w.fresh d ↔
      engine.GetsToSignature env request caller devices w d ∧
        ¬ engine.GoesBySignature env d := by
  rw [engine.admits_install_iff env, ← signaturePasses_iff hbad]
  constructor
  · intro h
    exact ⟨⟨h.granted, h.valid, h.unblocked⟩, h.signed⟩
  · intro hright
    obtain ⟨h, hsigned⟩ := hright
    exact ⟨h.granted, h.valid, hfound, h.unblocked, hsigned⟩

/-- An installation that is refused fails, and hands nothing on. -/
theorem rejects_of_refused (htracker : w.tracker = .new)
    (hrefused : ∀ d, ¬ engine.Admits env (.install request caller devices) w.fresh d) :
    (engine.result env (.install request caller devices) w).status = .failed ∧
      ¬ (engine.next (.call env (.install request caller devices)) w).Transfers := by
  cases engine.performed_of_tracker env (.install request caller devices) htracker with
  | refused r w' hquiet hfailed _ =>
      refine ⟨hfailed.1, ?_⟩
      obtain ⟨es, htrace, hes⟩ := hquiet.holds
      intro h
      obtain ⟨e, he, htransfer⟩ := h
      rw [htrace] at he
      rw [hes e he] at htransfer
      cases htransfer
  | executed d w₁ r w' hadmits => exact absurd hadmits (hrefused d)

/-- An installation of which the checks pass is its second stage. -/
theorem install_wp_of_admits {Q : OperationResult → World → Prop}
    (hadmits : engine.Admits env (.install request caller devices) w.fresh d)
    (h : ∀ w₁ (commit : StateM World Unit), Keeps Grows commit → Quiet w.fresh w₁ →
      wp (engine.transact env d caller (engine.executeInstall env d) commit
        (.success d.id.name ("Driver '" ++ d.id.name ++ "' installed successfully"))
        d.id.name "Installation failed and was rolled back") Q w₁) :
    Q (engine.result env (.install request caller devices) w)
      (engine.next (.call env (.install request caller devices)) w) := by
  have hspec : wp (engine.installDriver env request caller devices) Q w.fresh := by
    have hchecks := engine.installChecks_wp env request caller devices w.fresh
    rw [wp_def] at hchecks
    have hpass : ((engine.installChecks env request caller devices).run w.fresh).1 = .ok d :=
      hadmits
    unfold installDriver
    rw [wp_bind, wp_def, hpass]
    refine h _ _ (adds_commit (fun _ => trivial) ?_) hchecks.1
    exact fun _ => rfl
  exact hspec

/-- A badly signed package that is not refused is rejected only if it is an overlay, and no module
of its name is loaded. -/
theorem rejects_of_admits_iff (htracker : w.tracker = .new)
    (hadmits : engine.Admits env (.install request caller devices) w.fresh d)
    (hbad : engine.BadlySigned env w d) :
    ((engine.result env (.install request caller devices) w).status = .failed ∧
      ¬ (engine.next (.call env (.install request caller devices)) w).Transfers) ↔
      d.id.moduleType = .deviceTreeOverlay ∧ isLoaded w d.id.name = false := by
  have htransfers : d.id.moduleType = .kernelModule ∨ d.id.moduleType = .firmware →
      (engine.next (.call env (.install request caller devices)) w).Transfers := by
    intro htype
    refine install_wp_of_admits (Q := fun _ w' => w'.Transfers) hadmits
      fun w₁ commit hcommit hquiet => ?_
    refine transact_grows (fun _ _ => Adds.transfers) (executeInstall_transfers htype ?_) hcommit
    have hkernel : (w₁.saving d).kernel = w.kernel := hquiet.kernel_eq
    have hfs : (w₁.saving d).fs = w.fs := hquiet.fs_eq
    rw [findPackagePath_congr engine d hkernel hfs, World.pathExists_congr hkernel hfs]
    exact hbad.staged
  cases htype : d.id.moduleType with
  | kernelModule => exact iff_of_false (fun h => h.2 (htransfers (.inl htype))) nofun
  | firmware => exact iff_of_false (fun h => h.2 (htransfers (.inr htype))) nofun
  | userspace =>
      refine iff_of_false (fun h => ?_) nofun
      have hcompleted : (engine.result env (.install request caller devices) w).status =
          .completed := by
        refine install_wp_of_admits (Q := fun r _ => r.status = .completed) hadmits
          fun w₁ commit _ _ => ?_
        unfold transact
        rw [wp_bind, saveState_wp]
        refine wp_bind_of (executeInstall_userspace htype _) ?_
        intro _ w₂ heq
        subst heq
        exact rfl
      cases h.1.symm.trans hcompleted
  | deviceTreeOverlay =>
      refine install_wp_of_admits (Q := fun r w' => (r.status = .failed ∧ ¬ w'.Transfers) ↔
        _ ∧ isLoaded w d.id.name = false) hadmits fun w₁ commit _ hquiet => ?_
      have htracker₁ : w₁.tracker = .new := hquiet.tracker_eq.trans htracker
      refine wp_mono (transact_overlay htype htracker₁) ?_
      intro _ w' hpost
      obtain ⟨⟨error, rfl⟩, hloaded, hnot⟩ := hpost
      rw [isLoaded_congr hquiet.kernel_eq hquiet.fs_eq] at hloaded hnot
      cases hlisted : isLoaded w.fresh d.id.name with
      | true =>
          refine iff_of_false (fun h => h.2 (hloaded hlisted)) fun h => ?_
          cases hlisted.symm.trans h.2
      | false =>
          refine iff_of_true ⟨rfl, ?_⟩ ⟨rfl, hlisted⟩
          obtain ⟨es, htrace, hes⟩ := IsTrans.trans _ _ _ hquiet.holds (hnot hlisted)
          intro hright
          obtain ⟨e, he, htransfer⟩ := hright
          rw [htrace] at he
          rw [hes e he] at htransfer
          cases htransfer

end DriverExecutionEngine

/-- An installation rejects a badly signed package exactly if it does not get to the signature, or
the engine goes by the signature, or the package is an overlay and no module of its name is
loaded. -/
theorem rejectsBadSignatures_iff (engine : DriverExecutionEngine) (env : Env)
    (request : InstallRequest) (caller : String) (devices : List HardwareDevice)
    (inventory : DriverInventory) (sequence : UInt64) (kernel : Kernel) (moduleDirs : ModuleDirs)
    (fs : FileSystem) :
    engine.RejectsBadSignatures env request caller devices
        (.boot inventory sequence kernel moduleDirs fs) ↔
      ∀ d, inventory.findDriver request.driverName request.provider = some d →
        engine.BadlySigned env (.boot inventory sequence kernel moduleDirs fs) d →
        engine.GetsToSignature env request caller devices
          (.boot inventory sequence kernel moduleDirs fs) d →
        engine.GoesBySignature env d ∨ d.id.moduleType = .deviceTreeOverlay ∧
          isLoaded (.boot inventory sequence kernel moduleDirs fs) d.id.name = false := by
  have htracker : (World.boot inventory sequence kernel moduleDirs fs).tracker = .new := rfl
  constructor
  · intro h d hfound hbad hgets
    by_contra hno
    rw [not_or] at hno
    have hadmits := (DriverExecutionEngine.admits_badlySigned_iff hfound hbad).mpr ⟨hgets, hno.1⟩
    exact hno.2 ((DriverExecutionEngine.rejects_of_admits_iff htracker hadmits hbad).mp
      (h d hfound hbad))
  · intro h d hfound hbad
    by_cases hadmits : engine.Admits env (.install request caller devices)
        (World.boot inventory sequence kernel moduleDirs fs).fresh d
    · obtain ⟨hgets, hignores⟩ :=
        (DriverExecutionEngine.admits_badlySigned_iff hfound hbad).mp hadmits
      exact (DriverExecutionEngine.rejects_of_admits_iff htracker hadmits hbad).mpr
        ((h d hfound hbad hgets).resolve_left hignores)
    · refine DriverExecutionEngine.rejects_of_refused htracker fun d' hadmits' => ?_
      have hfound' := ((engine.admits_install_iff env).mp hadmits').found
      cases hfound.symm.trans hfound'
      exact hadmits hadmits'

/-! ## The flag of the engine -/

/-- The strict engine, with its flag for unsigned packages set and that of its verifier not. -/
def DriverExecutionEngine.unsignedAllowed : DriverExecutionEngine :=
  { DriverExecutionEngine.strict with allowUnsigned := true }

/-- A package of `e1000e` and a file that is no signature of it. -/
def badlySignedFiles : FileSystem :=
  (FileSystem.empty.write (Path.new "/var/cache/mission/driverd/packages/e1000e.ko") [1]).write
    (Path.new "/var/cache/mission/driverd/packages/e1000e.sig") [2]

theorem badlySigned_e1000e (env : Env) :
    DriverExecutionEngine.unsignedAllowed.BadlySigned env
      (.boot ⟨[e1000eDriver .available], [], 0⟩ 0 (.ofNames []) inTreeModules badlySignedFiles)
      (e1000eDriver .available) := by
  refine ⟨by decide, [1], [2], by decide, by decide, by decide, ?_⟩
  intro h
  obtain ⟨key, hkey, hgood⟩ := h
  have hlength : key.publicKey.length = 32 := by
    have hkey' : key ∈ [(⟨"mission", "Mission release key", List.replicate 32 0, true⟩ :
      TrustedKey)] := hkey
    rw [List.mem_singleton.mp hkey']
    rfl
  simp [TrustedKey.Accepts, verify, hlength] at hgood

/-- The engine with the flag loads a badly signed `e1000e`, and says that it is installed. -/
theorem bad_signature_installed :
    ¬ ∀ (engine : DriverExecutionEngine) (env : Env) (request : InstallRequest)
      (caller : String) (devices : List HardwareDevice) (inventory : DriverInventory)
      (sequence : UInt64) (kernel : Kernel) (moduleDirs : ModuleDirs) (fs : FileSystem),
      engine.RejectsBadSignatures env request caller devices
        (.boot inventory sequence kernel moduleDirs fs) := by
  intro h
  have hfailed := (h .unsignedAllowed { Env.smooth with imageName := fun _ => some e1000eModule }
    ⟨"e1000e", "linux", none, false⟩ ":1.5" [] ⟨[e1000eDriver .available], [], 0⟩ 0 (.ofNames [])
    inTreeModules badlySignedFiles _ (by decide) (badlySigned_e1000e _)).1
  revert hfailed
  decide

end MissionOs.Driverd
