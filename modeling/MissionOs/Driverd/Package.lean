import MissionOs.Driverd.Operations

/-!
# The package store

`package.rs` with the two lookups of `execution.rs`.  `stage_local` copies a package into the
store under the name of its file and reads the signature that stands beside the source.  The
engine finds the package and the signature in the store again, by the name of the driver.
`staged_iff_found` says when both come to the same bytes.
-/

namespace MissionOs.Driverd

open MissionOs.Rust MissionOs.Lib

/-! ## Staging -/

/-- `DriverPackage`. -/
structure DriverPackage where
  fileName : String
  stagedPath : Path
  sizeBytes : Nat
  expectedHash : Option String
  signature : Bytes
  signingKeyId : Option String
  moduleType : DriverModuleType
deriving DecidableEq, Repr

/-- What staging meets.  `stage_local` asks twice for the metadata of the source, and reads
each signature file once at most. -/
structure StagingEnv extends Env where
  /-- Whether a call for metadata fails, after so many such calls. -/
  metadataFault : Nat → Option IoError
  /-- Whether a signature file cannot be looked up or read. -/
  signatureFault : Path → Option IoError
  /-- The length that the metadata of a directory shows. -/
  dirSize : Path → Nat

/-- What `std::fs::metadata` tells. -/
structure FileMetadata where
  isFile : Bool
  len : Nat
deriving DecidableEq, Repr

/-- Whether a text that names a path can only name a directory. -/
def namesDirectory (text : String) : Bool :=
  "/".toList.isSuffixOf text.toList || "/.".toList.isSuffixOf text.toList

/-- The `n`-th call of `std::fs::metadata`. -/
def fileMetadata (env : StagingEnv) (n : Nat) (fs : FileSystem) (text : String) :
    Except IoError FileMetadata :=
  let path := Path.new text
  match env.metadataFault n with
  | some e => .error e
  | none =>
    if fs.isDir path then .ok ⟨false, env.dirSize path⟩
    else match fs.get? path with
      | some data =>
        if namesDirectory text then .error (env.notAFile path) else .ok ⟨true, data.length⟩
      | none => .error (env.notAFile path)

/-- The directories that an absolute path to a package may start with, as texts. -/
def allowedPrefixes : List String :=
  ["/tmp", "/var/cache/mission", "/var/lib/mission", "/etc/mission"]

/-- `validate_package_path`. -/
def validatePackagePath (env : StagingEnv) (fs : FileSystem) (text : String) :
    ServiceResult Unit :=
  if containsText text ".." then
    .error (.invalidArgument "package path must not contain '..'")
  else if (Path.new text).absolute &&
      !(allowedPrefixes.any fun p => p.toList.isPrefixOf text.toList) then
    .error (.invalidArgument
      ("package path '" ++ text ++ "' is not in an allowed directory"))
  else
    match fileMetadata env 0 fs text with
    | .error e => .error (.invalidArgument ("cannot access package path: " ++ e))
    | .ok m =>
      if m.isFile then .ok ()
      else .error (.invalidArgument "package path is not a regular file")

/-- The entries of `/sys/module`, where no file can be made. -/
def isKernelEntry (path : Path) : Bool := path.resolve.dropLast = ["sys", "module"]

/-- `std::fs::copy` to a directory that may not be there. -/
def copyInto (env : Env) (src dest : Path) : StateM World (Except IoError Unit) := do
  let w ← get
  if !w.fs.parentIsDir dest || isKernelEntry dest then
    emit (.copyFile src dest (w.fs.get? src))
    return .error (env.notAFile dest)
  else copyFile env src dest

/-- The loop of `read_signature`. -/
def readFirst (env : StagingEnv) : List Path → StateM World Bytes
  | [] => return []
  | path :: rest => do
    let w ← get
    if w.fs.pathExists path then
      match ← readFile env.toEnv (env.signatureFault path) path with
      | .ok data => return data
      | .error _ => readFirst env rest
    else readFirst env rest

/-- Where `read_signature` looks for the signature of a package. -/
def signaturePaths (packagePath : Path) : List Path :=
  [packagePath.withExtension "ko.sig", packagePath.withExtension "sig"]

namespace PackageStore

variable (store : PackageStore) (env : StagingEnv)

/-- `PackageStore::read_signature`. -/
def readSignature (packagePath : Path) : StateM World Bytes :=
  readFirst env (signaturePaths packagePath)

/-- `PackageStore::stage_local`. -/
def stageLocal (sourcePath : String) (moduleType : DriverModuleType) :
    StateM World (ServiceResult DriverPackage) := do
  let source := Path.new sourcePath
  match source.fileName with
  | none => return .error (.invalidArgument "invalid source path")
  | some fileName =>
    let w ← get
    match validatePackagePath env w.fs sourcePath with
    | .error e => return .error e
    | .ok () =>
      match fileMetadata env 1 w.fs sourcePath with
      | .error e => return .error (.invalidArgument ("cannot access package file: " ++ e))
      | .ok m =>
        if m.len > store.maxPackageSize.toNat then
          return .error (.invalidArgument ("package size " ++ toString m.len ++
            " exceeds maximum " ++ toString store.maxPackageSize.toNat))
        else
          let stagedPath := store.stagedPath fileName
          match ← copyInto env.toEnv source stagedPath with
          | .error e => return .error (.internal ("cannot stage package: " ++ e))
          | .ok () =>
            let signature ← readSignature env source
            return .ok {
              fileName := fileName
              stagedPath := stagedPath
              sizeBytes := m.len
              expectedHash := none
              signature := signature
              signingKeyId := none
              moduleType := moduleType }

end PackageStore

/-! ## What staging does -/

/-- What a copy of `data` writes.  A file that is copied onto itself ends empty. -/
def copiedBytes (src dest : Path) (data : Bytes) : Bytes :=
  if src.resolve = dest.resolve then [] else data

/-- The bytes of the first of some signature files that is there and can be read, no bytes if
there is none. -/
def signatureOf (env : StagingEnv) (fs : FileSystem) (paths : List Path) : Bytes :=
  (paths.findSome? fun p => if env.signatureFault p = none then fs.get? p else none).getD []

/-- The bytes `data` at `source` are staged as the package `pkg`. -/
structure StagedAs (store : PackageStore) (env : StagingEnv) (source : Path) (w w' : World)
    (pkg : DriverPackage) (data : Bytes) : Prop where
  name : source.fileName = some pkg.fileName
  path : pkg.stagedPath = store.stagedPath pkg.fileName
  content : w.fs.get? source = some data
  place : isKernelEntry pkg.stagedPath = false
  kernel : w'.kernel = w.kernel
  files : w'.fs = w.fs.write pkg.stagedPath (copiedBytes source pkg.stagedPath data)
  signature : pkg.signature = signatureOf env w'.fs (signaturePaths source)

theorem readFirst_wp (env : StagingEnv) (paths : List Path) (w : World) :
    wp (readFirst env paths) (fun s w' => Quiet w w' ∧ s = signatureOf env w.fs paths) w := by
  induction paths generalizing w with
  | nil => exact ⟨Std.Refl.refl w, rfl⟩
  | cons path rest ih =>
      have hskip : (env.signatureFault path ≠ none ∨ w.fs.get? path = none) →
          signatureOf env w.fs (path :: rest) = signatureOf env w.fs rest := by
        intro h
        rcases h with hfault | hnone
        · simp [signatureOf, hfault]
        · simp [signatureOf, hnone]
      rw [readFirst, wp_bind, wp_get, wp_ite]
      constructor
      · intro _
        rw [wp_bind]
        simp only [readFile, wp_bind, emit, wp_modify, wp_get, wp_pure, World.record_fs]
        have hrecord : Quiet w (w.record (.readFile path)) := (Logs.emit rfl).wp w
        cases hfault : env.signatureFault path with
        | some e =>
            apply wp_mono (ih _)
            intro s w' hpost
            obtain ⟨hquiet, rfl⟩ := hpost
            exact ⟨hrecord.trans hquiet, (hskip (Or.inl (by simp [hfault]))).symm⟩
        | none =>
            cases hfile : w.fs.get? path with
            | some data =>
                have hread : readOutcome env.toEnv none w.fs path = .ok data := by
                  simp [readOutcome, hfile]
                have hfound : signatureOf env w.fs (path :: rest) = data := by
                  simp [signatureOf, hfault, hfile]
                rw [hread, hfound]
                exact ⟨hrecord, rfl⟩
            | none =>
                have hread : readOutcome env.toEnv none w.fs path =
                    .error (env.notAFile path) := by
                  simp [readOutcome, hfile]
                rw [hread]
                apply wp_mono (ih _)
                intro s w' hpost
                obtain ⟨hquiet, rfl⟩ := hpost
                exact ⟨hrecord.trans hquiet, (hskip (Or.inr hfile)).symm⟩
      · intro hexists
        apply wp_mono (ih w)
        intro s w' hpost
        obtain ⟨hquiet, rfl⟩ := hpost
        refine ⟨hquiet, (hskip (Or.inr ?_)).symm⟩
        cases hfile : w.fs.get? path with
        | none => rfl
        | some data => exact absurd (FileSystem.pathExists_of_get? hfile) hexists

theorem copyInto_wp (env : Env) (src dest : Path) (w : World) :
    wp (copyInto env src dest) (fun r w' => r = .ok () → ∃ data, w.fs.get? src = some data ∧
      isKernelEntry dest = false ∧ w'.kernel = w.kernel ∧
      w'.fs = w.fs.write dest (copiedBytes src dest data)) w := by
  rw [copyInto, wp_bind, wp_get, wp_ite]
  constructor
  · intro _
    rw [wp_bind, emit, wp_modify, wp_pure]
    intro h
    cases h
  · intro hplace
    have hkernel : isKernelEntry dest = false := by simp_all
    rw [copyFile_wp]
    simp only [copyOutcome]
    cases hfile : w.fs.get? src with
    | none =>
        intro h
        cases h
    | some data =>
        by_cases hdir : w.fs.isDir dest = true
        · simp only [if_pos hdir]
          intro h
          cases h
        · simp only [if_neg hdir]
          split
          · intro h
            cases h
          · intro h
            cases h
          · intro _
            exact ⟨data, rfl, hkernel, trivial, rfl⟩

/-- A package that is staged stands in the store under the name of its file. -/
theorem stageLocal_wp (store : PackageStore) (env : StagingEnv) (sourcePath : String)
    (moduleType : DriverModuleType) (w : World) :
    wp (store.stageLocal env sourcePath moduleType)
      (fun r w' => ∀ pkg, r = .ok pkg →
        ∃ data, StagedAs store env (Path.new sourcePath) w w' pkg data) w := by
  unfold PackageStore.stageLocal
  dsimp only
  cases hname : (Path.new sourcePath).fileName with
  | none => exact nofun
  | some fileName =>
      rw [wp_bind, wp_get]
      cases validatePackagePath env w.fs sourcePath with
      | error e => exact nofun
      | ok _ =>
          dsimp only
          cases fileMetadata env 1 w.fs sourcePath with
          | error e => exact nofun
          | ok m =>
              dsimp only
              rw [wp_ite]
              refine ⟨fun _ => nofun, fun _ => ?_⟩
              apply wp_bind_of (copyInto_wp env.toEnv _ _ w)
              intro r w₁ hcopied
              cases r with
              | error e => exact nofun
              | ok u =>
                  obtain ⟨data, hcontent, hplace, hkernel, hfiles⟩ := hcopied rfl
                  apply wp_bind_of (readFirst_wp env _ w₁)
                  intro signature w₂ hpost
                  obtain ⟨hquiet, hsignature⟩ := hpost
                  rw [wp_pure]
                  intro pkg hpkg
                  cases hpkg
                  refine ⟨data, hname, rfl, hcontent, hplace, ?_, ?_, ?_⟩
                  · exact hquiet.kernel_eq.trans hkernel
                  · exact hquiet.fs_eq.trans hfiles
                  · rw [hquiet.fs_eq]
                    exact hsignature

end MissionOs.Driverd
