import MissionOs.Driverd.Package

/-!
# Staging and installation

The store names a package after its file and leaves the signature where it was; the engine
looks in the store for files that are named after the driver.  `staging_agrees_iff` says when
an installation that follows a staging verifies the bytes and the signature that were staged.
-/

namespace MissionOs.Driverd

open MissionOs.Rust MissionOs.Lib

/-! ## What the signature check is made on -/

/-- The calls that `install_driver` makes before it checks the signature. -/
def Event.precedesCheck (e : Event) : Bool := e.isReport || e = .readProcModules

/-- The signature of the driver is checked when it is installed. -/
def DriverEntry.IsChecked (d : DriverEntry) : Prop :=
  d.id.moduleType = .kernelModule ∨ d.id.moduleType = .firmware

namespace DriverExecutionEngine

variable (engine : DriverExecutionEngine) (env : Env)

/-- The package bytes and the signature bytes that the check gives to `verify_package`. -/
def checkedBytes (w : World) (driver : DriverEntry) : Option Bytes × Bytes :=
  (w.fs.get? (engine.findPackagePath w driver),
    ((engine.readPackageSignature env driver).run w).1)

/-- Before the check `install_driver` reports, and reads `/proc/modules`. -/
theorem beforeCheck_logs (request : InstallRequest) (caller : String)
    (hardwareDevices : List HardwareDevice) :
    Keeps (Logs Event.precedesCheck)
      (engine.beforeCheck env request caller hardwareDevices) := by
  have hreport : ∀ e : AuditEvent, Event.precedesCheck (.audit e) = true := fun _ => rfl
  have hfail : ∀ driverName message error,
      Keeps (Logs Event.precedesCheck) (failOperation (α := DriverEntry) env driverName message
        error caller .driverInstall) := fun _ _ _ =>
    Keeps.bind (Logs.audit hreport ..) fun _ => Keeps.pure _
  unfold beforeCheck startOperation
  refine Keeps.bind Logs.nextSequence fun _ => ?_
  refine Keeps.bind (Logs.audit hreport ..) fun _ => ?_
  have hauthorize : Keeps (Logs Event.precedesCheck)
      (engine.authorizer.authorize env .installDriver caller) := by
    constructor
    intro w
    apply wp_mono (engine.authorizer.authorize_wp env .installDriver caller w)
    intro r w' hpost
    obtain ⟨⟨seq, es, rfl, hes⟩, -⟩ := hpost
    refine ⟨seq, es, rfl, ?_⟩
    intro e he
    simp [Event.precedesCheck, hes e he]
  refine Keeps.bind hauthorize fun auth => Keeps.ite (hfail ..) ?_
  cases request.validate with
  | error e => exact hfail ..
  | ok u =>
      refine Keeps.bind Keeps.get fun w => ?_
      cases w.inventory.findDriver request.driverName request.provider with
      | none => exact hfail ..
      | some driver =>
          have hmodules : Keeps (Logs Event.precedesCheck) (getLoadedModules env) := by
            refine Keeps.bind (Keeps.bind (Logs.emit rfl) fun _ => Keeps.bind Keeps.get fun _ => ?_)
              fun _ => Keeps.pure _
            cases env.procModulesFault with
            | none => exact Keeps.pure _
            | some e => exact Keeps.pure _
          exact Keeps.bind hmodules fun _ => Keeps.ite (hfail ..) (Keeps.pure _)

/-! ## Where the engine looks -/

/-- The engine takes the file staged at `staged` for the package of `d`: it has the name of the
driver and `.ko`, or the name alone while no file has the other name. -/
def FindsStaged (w : World) (d : DriverEntry) (staged : Path) : Prop :=
  staged.resolve = (engine.packageStore.stagedPath (d.id.name ++ ".ko")).resolve ∨
    staged.resolve = (engine.packageStore.stagedPath d.id.name).resolve ∧
      w.pathExists (engine.packageStore.stagedPath (d.id.name ++ ".ko")) = false

variable {engine env} {w w₁ : World} {staged : Path} {data : Bytes} {d : DriverEntry}

/-- A staged file is there, and the others as before. -/
theorem pathExists_staged (hkernel : w₁.kernel = w.kernel) (hfs : w₁.fs = w.fs.write staged data)
    (hplace : isKernelEntry staged = false) (q : Path) :
    w₁.pathExists q = (decide (q.resolve = staged.resolve) || w.pathExists q) := by
  unfold World.pathExists
  split
  next name hq =>
    have hne : q.resolve ≠ staged.resolve := by
      intro hsame
      rw [isKernelEntry, ← hsame, hq] at hplace
      simp at hplace
    simp [hkernel, hne]
  next =>
    rw [hfs, FileSystem.pathExists, FileSystem.pathExists, FileSystem.get?_write]
    by_cases hsame : q.resolve = staged.resolve
    · simp [hsame]
    · rw [if_neg hsame, decide_eq_false hsame, Bool.false_or]
      rfl

theorem resolve_findPackagePath_of_findsStaged (hkernel : w₁.kernel = w.kernel)
    (hfs : w₁.fs = w.fs.write staged data) (hplace : isKernelEntry staged = false)
    (hfinds : engine.FindsStaged w d staged) :
    (engine.findPackagePath w₁ d).resolve = staged.resolve := by
  unfold findPackagePath
  dsimp only
  rw [pathExists_staged hkernel hfs hplace, pathExists_staged hkernel hfs hplace]
  rcases hfinds with hko | ⟨hplain, habsent⟩
  · simp [hko]
  · rw [habsent]
    by_cases hko : staged.resolve =
        (engine.packageStore.stagedPath (d.id.name ++ ".ko")).resolve
    · simp [hko]
    · have hfound : (decide ((engine.packageStore.stagedPath d.id.name).resolve =
          staged.resolve) || w.pathExists (engine.packageStore.stagedPath d.id.name)) = true := by
        simp [hplain]
      rw [decide_eq_false (Ne.symm hko), Bool.false_or, if_neg Bool.false_ne_true,
        if_pos hfound]
      exact hplain.symm

theorem findPackagePath_of_not_findsStaged (hkernel : w₁.kernel = w.kernel)
    (hfs : w₁.fs = w.fs.write staged data) (hplace : isKernelEntry staged = false)
    (hfinds : ¬engine.FindsStaged w d staged) :
    engine.findPackagePath w₁ d = engine.findPackagePath w d ∧
      (engine.findPackagePath w d).resolve ≠ staged.resolve := by
  obtain ⟨hko, hplain⟩ := not_or.mp hfinds
  unfold findPackagePath
  dsimp only
  rw [pathExists_staged hkernel hfs hplace, pathExists_staged hkernel hfs hplace,
    decide_eq_false (Ne.symm hko), Bool.false_or]
  by_cases hexists : w.pathExists (engine.packageStore.stagedPath (d.id.name ++ ".ko")) = true
  · rw [if_pos hexists, if_pos hexists]
    exact ⟨rfl, Ne.symm hko⟩
  · have habsent := eq_false_of_ne_true hexists
    have hne : staged.resolve ≠ (engine.packageStore.stagedPath d.id.name).resolve :=
      fun hsame => hplain ⟨hsame, habsent⟩
    rw [if_neg hexists, if_neg hexists, decide_eq_false (Ne.symm hne), Bool.false_or]
    refine ⟨rfl, ?_⟩
    split_ifs
    · exact Ne.symm hne
    · exact Ne.symm hko

/-! ## Agreement -/

variable (engine)

/-- The package that the engine finds has the bytes `data` of the source: the engine finds the
staged file, and that is not the source copied onto itself, or it finds another file with these
bytes. -/
def FindsPackage (w : World) (d : DriverEntry) (source staged : Path) (data : Bytes) : Prop :=
  engine.FindsStaged w d staged ∧ (source.resolve ≠ staged.resolve ∨ data = []) ∨
    ¬engine.FindsStaged w d staged ∧ w.fs.get? (engine.findPackagePath w d) = some data

/-- The store has the signature `signature` under the name of the driver, and it can be read;
or there is no signature on either side. -/
def FindsSignature (env : Env) (files : FileSystem) (d : DriverEntry) (signature : Bytes) :
    Prop :=
  env.readFault 0 = none ∧
      files.get? (engine.packageStore.stagedPath (d.id.name ++ ".sig")) = some signature ∨
    signature = [] ∧ (env.readFault 0 ≠ none ∨
      files.get? (engine.packageStore.stagedPath (d.id.name ++ ".sig")) = none)

/-- What has to hold of the source, the store and the driver before the staging.  One of the
signature files may be the staged file itself, so they are read with that in place. -/
def StagesFor (senv : StagingEnv) (env : Env) (w : World) (source : Path) (d : DriverEntry) :
    Prop :=
  ∃ fileName data, source.fileName = some fileName ∧ w.fs.get? source = some data ∧
    let staged := engine.packageStore.stagedPath fileName
    let files := w.fs.write staged (copiedBytes source staged data)
    engine.FindsPackage w d source staged data ∧
      engine.FindsSignature env files d (signatureOf senv files (signaturePaths source))

variable {engine}

theorem get?_findPackagePath (hkernel : w₁.kernel = w.kernel) {source : Path}
    (hfs : w₁.fs = w.fs.write staged (copiedBytes source staged data))
    (hplace : isKernelEntry staged = false) :
    w₁.fs.get? (engine.findPackagePath w₁ d) = some data ↔
      engine.FindsPackage w d source staged data := by
  by_cases hfinds : engine.FindsStaged w d staged
  · have hpath := resolve_findPackagePath_of_findsStaged hkernel hfs hplace hfinds
    have hbytes : copiedBytes source staged data = data ↔
        source.resolve ≠ staged.resolve ∨ data = [] := by
      unfold copiedBytes
      split_ifs with hsame
      · simp [hsame, eq_comm]
      · simp [hsame]
    rw [FileSystem.get?_congr _ hpath, hfs, FileSystem.get?_write_self, Option.some.injEq, hbytes]
    simp [FindsPackage, hfinds]
  · obtain ⟨hpath, hne⟩ := findPackagePath_of_not_findsStaged hkernel hfs hplace hfinds
    rw [hpath, hfs, FileSystem.get?_write_of_ne _ _ hne]
    simp [FindsPackage, hfinds]

theorem readPackageSignature_iff {signature : Bytes}
    (hreads : w.calls Event.isReadFile = 0) :
    ((engine.readPackageSignature env d).run w).1 = signature ↔
      engine.FindsSignature env w.fs d signature := by
  have hrun : ((engine.readPackageSignature env d).run w).1 =
      (readOutcome env (env.readFault 0) w.fs
        (engine.packageStore.stagedPath (d.id.name ++ ".sig"))).toOption.getD [] := by
    rw [← hreads]
    rfl
  rw [hrun, FindsSignature]
  cases hfault : env.readFault 0 with
  | some e => simp [readOutcome, Except.toOption, eq_comm]
  | none =>
      cases hfile : w.fs.get? (engine.packageStore.stagedPath (d.id.name ++ ".sig")) with
      | some found => simp [readOutcome, hfile, Except.toOption]
      | none => simp [readOutcome, hfile, Except.toOption, eq_comm]

/-- After a package was staged, an installation of a driver checks the bytes and the signature
that were staged exactly if the store has them under the names that belong to the driver. -/
theorem staging_agrees_iff {senv : StagingEnv} {sourcePath : String}
    {moduleType : DriverModuleType} {pkg : DriverPackage} {request : InstallRequest}
    {caller : String} {hardwareDevices : List HardwareDevice} {w₂ : World}
    (hstaged : (engine.packageStore.stageLocal senv sourcePath moduleType).run w = (.ok pkg, w₁))
    (hreached : (engine.beforeCheck env request caller hardwareDevices).run w₁.fresh =
      (.ok d, w₂)) :
    (d.IsChecked →
        engine.checkedBytes env w₂ d = (w.fs.get? (Path.new sourcePath), pkg.signature)) ↔
      (d.IsChecked → engine.StagesFor senv env w (Path.new sourcePath) d) := by
  apply imp_congr_right
  intro _
  have hstage := stageLocal_wp engine.packageStore senv sourcePath moduleType w
  rw [wp_def, hstaged] at hstage
  obtain ⟨data, h⟩ := hstage pkg rfl
  have hlogs := (engine.beforeCheck_logs env request caller hardwareDevices).wp w₁.fresh
  rw [wp_def, hreached] at hlogs
  have hfs : w₂.fs = w₁.fs := hlogs.fs_eq
  have hkernel : w₂.kernel = w.kernel := hlogs.kernel_eq.trans h.kernel
  have hreads : w₂.calls Event.isReadFile = 0 := by
    apply hlogs.calls_eq
    intro e he
    cases e <;> simp_all [Event.precedesCheck, Event.isReport, Event.isReadFile]
  have hfiles := hfs.trans h.files
  rw [checkedBytes, h.content, Prod.mk.injEq, get?_findPackagePath hkernel hfiles h.place,
    readPackageSignature_iff hreads, hfs, h.signature, h.files, h.path]
  constructor
  · intro hfinds
    exact ⟨pkg.fileName, data, h.name, h.content, hfinds⟩
  · intro hright
    obtain ⟨fileName, data', hname, hcontent, hfinds⟩ := hright
    cases h.name.symm.trans hname
    cases h.content.symm.trans hcontent
    exact hfinds

end DriverExecutionEngine

/-! ## A signed package -/

/-- Staging that meets no fault. -/
def StagingEnv.smooth : StagingEnv :=
  { Env.smooth with
    metadataFault := fun _ => none
    signatureFault := fun _ => none
    dirSize := fun _ => 4096 }

/-- The package of `e1000e`, with a signature beside it. -/
def signedSource : FileSystem :=
  ((FileSystem.empty.makeDirs (Path.new "/var/cache/mission/driverd/packages")).write
    (Path.new "/tmp/e1000e.ko") [0x7f, 0x45, 0x4c, 0x46]).write
    (Path.new "/tmp/e1000e.ko.sig") (List.replicate 64 1)

/-- The same files, and the signature in the store. -/
def signedStore : FileSystem :=
  signedSource.write (Path.new "/var/cache/mission/driverd/packages/e1000e.sig")
    (List.replicate 64 1)

/-- What staging makes of the package. -/
def stagedE1000e : DriverPackage where
  fileName := "e1000e.ko"
  stagedPath := Path.new "/var/cache/mission/driverd/packages/e1000e.ko"
  sizeBytes := 4
  expectedHash := none
  signature := List.replicate 64 1
  signingKeyId := none
  moduleType := .kernelModule

/-- A machine on which `e1000e` can be installed, with the files `fs`. -/
def installable (fs : FileSystem) : World :=
  .boot ⟨[e1000eDriver .available], [], 0⟩ 0 ⟨[]⟩ ⟨none, none, none⟩ fs

/-- The same machine after the package was staged. -/
def staged (fs : FileSystem) : World :=
  ((DriverExecutionEngine.strict.packageStore.stageLocal .smooth "/tmp/e1000e.ko"
    .kernelModule).run (installable fs)).2

/-- The same machine when the signature comes to be checked. -/
def atCheck (fs : FileSystem) : World :=
  ((DriverExecutionEngine.strict.beforeCheck .smooth ⟨"e1000e", "linux", none, false⟩ ":1.5" []).run
    (staged fs).fresh).2

/-- Where the signature was put into the store, too, an installation checks what was staged. -/
theorem staged_e1000e_agrees :
    DriverExecutionEngine.strict.checkedBytes .smooth (atCheck signedStore)
        (e1000eDriver .available) =
      (some [0x7f, 0x45, 0x4c, 0x46], List.replicate 64 1) := by
  have hstaged : ((DriverExecutionEngine.strict.packageStore.stageLocal .smooth
      "/tmp/e1000e.ko" .kernelModule).run (installable signedStore)).1 =
      .ok stagedE1000e := by
    decide +kernel
  have hreached : ((DriverExecutionEngine.strict.beforeCheck .smooth
      ⟨"e1000e", "linux", none, false⟩ ":1.5" []).run (staged signedStore).fresh).1 =
      .ok (e1000eDriver .available) := by
    decide +kernel
  have hcontent : signedStore.get? (Path.new "/tmp/e1000e.ko") =
      some [0x7f, 0x45, 0x4c, 0x46] := by
    decide
  unfold staged at hreached
  unfold atCheck staged
  rw [← hcontent]
  apply (DriverExecutionEngine.staging_agrees_iff (run_of_fst hstaged)
    (run_of_fst hreached)).mpr
  · intro _
    refine ⟨"e1000e.ko", [0x7f, 0x45, 0x4c, 0x46], by decide, hcontent, ?_, ?_⟩
    · refine Or.inl ⟨Or.inl ?_, Or.inl ?_⟩
      · decide
      · decide
    · refine Or.inl ⟨rfl, ?_⟩
      decide
  · exact Or.inl rfl

/-- The signature beside the source does not come to the engine. -/
theorem staged_signature_lost :
    ¬∀ (engine : DriverExecutionEngine) (senv : StagingEnv) (env : Env) (sourcePath : String)
      (moduleType : DriverModuleType) (request : InstallRequest) (caller : String)
      (hardwareDevices : List HardwareDevice) (w w₁ w₂ : World) (pkg : DriverPackage)
      (d : DriverEntry),
      (engine.packageStore.stageLocal senv sourcePath moduleType).run w = (.ok pkg, w₁) →
      (engine.beforeCheck env request caller hardwareDevices).run w₁.fresh = (.ok d, w₂) →
      d.IsChecked →
        engine.checkedBytes env w₂ d = (w.fs.get? (Path.new sourcePath), pkg.signature) := by
  intro h
  have hstaged : ((DriverExecutionEngine.strict.packageStore.stageLocal .smooth
      "/tmp/e1000e.ko" .kernelModule).run (installable signedSource)).1 =
      .ok stagedE1000e := by
    decide +kernel
  have hreached : ((DriverExecutionEngine.strict.beforeCheck .smooth
      ⟨"e1000e", "linux", none, false⟩ ":1.5" []).run (staged signedSource).fresh).1 =
      .ok (e1000eDriver .available) := by
    decide +kernel
  unfold staged at hreached
  have hchecked := h _ _ _ _ _ _ _ _ _ _ _ _ _ (run_of_fst hstaged) (run_of_fst hreached)
    (Or.inl rfl)
  have hsignature : (DriverExecutionEngine.strict.checkedBytes .smooth (atCheck signedSource)
      (e1000eDriver .available)).2 = [] := by
    decide +kernel
  unfold atCheck staged at hsignature
  rw [hchecked] at hsignature
  exact absurd hsignature (by decide)

end MissionOs.Driverd
