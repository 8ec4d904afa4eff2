import MissionOs.Driverd.Metadata
import MissionOs.Driverd.Source
import MissionOs.Lib.LastMax

/-!
# The driver selector

The selection pipeline of `selector.rs`.  Every driver yields its candidates: one that
is rejected if the driver does not fit the device or has no package, and else one for
each package of its name from an enabled source, rejected or not.  The best of those that
are not rejected is selected.
-/

namespace MissionOs.Driverd

open Std MissionOs.Rust MissionOs.Lib

/-! ## The order of versions -/

namespace DriverVersion

instance : TransCmp cmpPreRelease where
  eq_swap {a b} := by
    cases a <;> cases b <;> simp only [cmpPreRelease, Ordering.swap]
    exact OrientedCmp.eq_swap
  isLE_trans {a b c} hab hbc := by
    cases a <;> cases b <;> cases c <;> simp_all [cmpPreRelease]
    exact TransCmp.isLE_trans hab hbc

instance : TransCmp cmp :=
  have : TransCmp fun a b : DriverVersion => cmpPreRelease a.preRelease b.preRelease :=
    transCmp_on cmpPreRelease preRelease
  inferInstanceAs (TransCmp (compareLex (compareOn major) (compareLex (compareOn minor)
    (compareLex (compareOn patch) fun a b => cmpPreRelease a.preRelease b.preRelease))))

instance : Ord DriverVersion := ⟨cmp⟩

instance : TransOrd DriverVersion := inferInstanceAs (TransCmp cmp)

end DriverVersion

/-! ## Candidates -/

/-- `SelectionCandidate`. -/
structure SelectionCandidate where
  driver : DriverEntry
  metadata : Option PackageMetadata
  sourceId : String
  score : Rat
  trusted : Bool
  rejectionReason : Option String
deriving DecidableEq, Repr

/-- `SelectionResult`. -/
structure SelectionResult where
  selected : Option SelectionCandidate
  candidates : List SelectionCandidate
  foundAny : Bool
deriving DecidableEq, Repr

/-- A driver that no package is selected for. -/
def SelectionCandidate.rejected (driver : DriverEntry) (score : Rat) (reason : String) :
    SelectionCandidate where
  driver := driver
  metadata := none
  sourceId := ""
  score := score
  trusted := false
  rejectionReason := some reason

/-! ## The selector -/

/-- `DriverSelector`. -/
structure DriverSelector where
  matcher : HardwareMatcher
  sourceRegistry : SourceRegistry
  verifiedManifests : AList fun _ : String => ManifestVerification

namespace DriverSelector

/-- `DriverSelector::with_matcher`. -/
def withMatcher (matcher : HardwareMatcher) (sourceRegistry : SourceRegistry) : DriverSelector :=
  ⟨matcher, sourceRegistry, ∅⟩

/-- `update_manifest_verification`. -/
def updateManifestVerification (selector : DriverSelector) (sourceId : String)
    (verification : ManifestVerification) : DriverSelector :=
  { selector with
    verifiedManifests := selector.verifiedManifests.insert sourceId verification }

variable (host : Host) (selector : DriverSelector)

/-- `manifest_trust_score`. -/
def manifestTrustScore (sourceId : String) : Nat :=
  match selector.verifiedManifests.lookup sourceId with
  | some (.verified _) => 2
  | some .unverified => 1
  | some (.invalidSignature _) => 0
  | some (.unknownKey _) => 0
  | none => 1

/-- `source_priority`. -/
def sourcePriority (sourceId : String) : UInt32 :=
  match selector.sourceRegistry.getSource sourceId with
  | some s => s.priority
  | none => 100

/-- `is_source_trusted`. -/
def isSourceTrusted (sourceId : String) (signingKeyId : Option String) : Bool :=
  match selector.sourceRegistry.getSource sourceId with
  | none => false
  | some source =>
    if source.trustedKeyIds.isEmpty then source.sourceType.defaultTrusted
    else
      match signingKeyId with
      | some keyId => source.trustedKeyIds.contains keyId
      -- A package that names no key is trusted as far as its source type is.
      | none => source.sourceType.defaultTrusted

/-- `is_architecture_compatible`. -/
def isArchitectureCompatible (p : PackageMetadata) : Bool :=
  let sysArch := host.lower host.detect.architecture
  let pkgArch := p.normalizedArchitecture host
  sysArch = pkgArch || architectureAliases.contains (sysArch, pkgArch)

/-- `is_kernel_compatible`: the kernel is that of `SystemInfo::detect`, not that of the
matcher. -/
def isKernelCompatible (compat : KernelCompatibility) : Bool :=
  let sysParts := versionNumbers (host.detect.kernelVersion.toList.splitOnP fun c => !c.isDigit)
  if sysParts.isEmpty then true
  else if olderThan sysParts 0 (versionNumbers (compat.minVersion.toList.splitOn '.')) then false
  else
    match compat.maxVersion with
    | none => true
    | some max => !newerThan sysParts 0 (versionNumbers (max.toList.splitOn '.'))

/-- What speaks against a package for a driver that fits the device. -/
def rejectionReasons (driver : DriverEntry) (p : PackageMetadata) : List String :=
  (if isArchitectureCompatible host p then []
    else ["Architecture mismatch: driver requires '" ++ driver.id.arch ++ "', package is '" ++
      p.architecture ++ "'"]) ++
  (if isKernelCompatible host p.kernelCompat then []
    else ["Kernel incompatible with package requirements"]) ++
  (if selector.isSourceTrusted p.sourceId p.signingKeyId then []
    else ["Package source or signing key not trusted"])

/-- The candidate of a driver and a package. -/
def packageCandidate (driver : DriverEntry) (score : Rat) (p : PackageMetadata) :
    SelectionCandidate where
  driver := driver
  metadata := some p
  sourceId := p.sourceId
  score := score
  trusted := selector.isSourceTrusted p.sourceId p.signingKeyId
  rejectionReason :=
    let reasons := selector.rejectionReasons host driver p
    if reasons.isEmpty then none else some (join "; " reasons)

/-- Whether a package is one for a driver, from a source that is enabled. -/
def matchesPackage (driver : DriverEntry) (p : PackageMetadata) : Bool :=
  eqIgnoreAsciiCase p.packageId.driverName driver.id.name &&
    selector.sourceRegistry.isSourceEnabled p.sourceId

/-- The candidates that the loop of `select_for_device` pushes for one driver. -/
def driverCandidates (device : HardwareDevice) (availablePackages : List PackageMetadata)
    (driver : DriverEntry) : List SelectionCandidate :=
  let compat := selector.matcher.evaluateCompatibility host driver device
  if !compat.compatible then [.rejected driver 0 compat.explanation]
  else
    let matchingPackages := availablePackages.filter (selector.matchesPackage driver)
    if matchingPackages.isEmpty then
      [.rejected driver compat.score "No matching package found in enabled sources"]
    else matchingPackages.map (selector.packageCandidate host driver compat.score)

/-- The comparison that `select_best_candidate` hands to `max_by`. -/
def compareCandidates (a b : SelectionCandidate) : Ordering :=
  (compare a.trusted.toNat b.trusted.toNat).then <|
    (compare (selector.manifestTrustScore a.sourceId)
      (selector.manifestTrustScore b.sourceId)).then <|
    (compareOfLessAndEq a.score b.score).then <|
    (compare (selector.sourcePriority a.sourceId)
      (selector.sourcePriority b.sourceId)).swap.then <|
    (compare (a.metadata.map (·.packageId.version)) (b.metadata.map (·.packageId.version))).then <|
    strCmp a.driver.id.name.toList b.driver.id.name.toList

/-- `select_best_candidate`. -/
def selectBestCandidate (candidates : List SelectionCandidate) : Option SelectionCandidate :=
  lastMax selector.compareCandidates (candidates.filter (·.rejectionReason.isNone))

/-- `select_for_device`. -/
def selectForDevice (device : HardwareDevice) (availableDrivers : List DriverEntry)
    (availablePackages : List PackageMetadata) : SelectionResult :=
  let candidates :=
    availableDrivers.flatMap (selector.driverCandidates host device availablePackages)
  { selected := selector.selectBestCandidate candidates
    candidates := candidates
    foundAny := !candidates.isEmpty }

end DriverSelector

end MissionOs.Driverd
