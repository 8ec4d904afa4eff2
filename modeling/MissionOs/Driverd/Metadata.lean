import MissionOs.Driverd.Digest
import MissionOs.Driverd.Matcher

/-!
# Package metadata

`metadata.rs`: what a source says of a package.
-/

namespace MissionOs.Driverd

open MissionOs.Rust

/-- `PackageId`. -/
structure PackageId where
  driverName : String
  sourceId : String
  version : DriverVersion
deriving DecidableEq, Repr

/-- `PackageMetadata`. -/
structure PackageMetadata where
  packageId : PackageId
  driverName : String
  description : String
  moduleType : DriverModuleType
  architecture : String
  kernelCompat : KernelCompatibility
  filename : String
  sizeBytes : UInt64
  digest : PackageDigest
  signatureHex : String
  signingKeyId : Option String
  sourceId : String
  urlPath : String
  isDelta : Bool
  baseVersion : Option DriverVersion
deriving DecidableEq, Repr

/-- `PackageMetadata::normalized_architecture`. -/
def PackageMetadata.normalizedArchitecture (host : Host) (p : PackageMetadata) : String :=
  match host.lower p.architecture with
  | "amd64" => "x86_64"
  | "arm64" => "aarch64"
  | arch => arch

end MissionOs.Driverd
