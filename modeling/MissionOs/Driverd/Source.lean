import MissionOs.Driverd.Repository

/-!
# Driver sources

`source.rs`: the configuration of a driver source, its validation, and the registry of the
sources that were accepted.  A registry carries the fact that its configurations passed
`from_configs`; there is no other way to fill one.
-/

namespace MissionOs.Driverd

open MissionOs.Rust

/-! ## The configuration of a source -/

/-- `SourceId::new`, with the text of the id. -/
def SourceId.new (id : String) : ServiceResult String :=
  let trimmed := String.ofList (trim id.toList)
  if trimmed.toList.isEmpty then .error (.invalidArgument "source ID must not be empty")
  else if 128 < byteLen trimmed then
    .error (.invalidArgument "source ID exceeds maximum length (128)")
  else if !trimmed.toList.all fun c => c.isAlphanum || c = '_' || c = '-' || c = '.' then
    .error (.invalidArgument
      "source ID must contain only alphanumeric chars, underscores, hyphens, or dots")
  else .ok trimmed

/-- `SourceType`. -/
inductive SourceType where
  | mission
  | linux
  | vendor
  | community
  | local
deriving DecidableEq, Repr

/-- `SourceType::requires_network`. -/
def SourceType.requiresNetwork : SourceType → Bool
  | .mission | .vendor | .community => true
  | _ => false

/-- `SourceType::default_trusted`. -/
def SourceType.defaultTrusted : SourceType → Bool
  | .mission | .linux => true
  | _ => false

/-- `SourceConfig`. -/
structure SourceConfig where
  id : String
  name : String
  sourceType : SourceType
  baseUrl : String
  enabled : Bool
  priority : UInt32
  trustedKeyIds : List String
  allowedArchitectures : List String
  mirrors : List String
  metadataUrl : Option String
  trustConfig : Option TrustConfig
deriving DecidableEq, Repr

/-- Fail with an invalid argument if a check found something. -/
def rejectIf (found : Bool) (msg : String) : ServiceResult Unit :=
  if found then .error (.invalidArgument msg) else .ok ()

namespace SourceConfig

/-- `SourceConfig::validate_url`, in a build that is no test. -/
def validateUrl (url : String) : ServiceResult Unit := do
  let trimmed := trim url.toList
  let https := "https://".toList.isPrefixOf trimmed
  rejectIf trimmed.isEmpty "URL must not be empty for remote sources"
  rejectIf (!https && !"file://".toList.isPrefixOf trimmed)
    ("URL scheme must be HTTPS for remote sources: " ++ String.ofList trimmed)
  rejectIf (https && (dropPrefixes "https://".toList trimmed.length trimmed).contains '@')
    "URL must not contain embedded credentials"

/-- `SourceConfig::validate`. -/
def validate (config : SourceConfig) : ServiceResult Unit := do
  let _ ← SourceId.new config.id
  rejectIf (trimIsEmpty config.name) "source name must not be empty"
  if config.sourceType.requiresNetwork then
    validateUrl config.baseUrl
    config.mirrors.forM validateUrl
  rejectIf (1000 < config.priority) "source priority must be between 0 and 1000"
  rejectIf (config.trustedKeyIds.any trimIsEmpty) "trusted key ID must not be empty"
  rejectIf (config.allowedArchitectures.any trimIsEmpty) "architecture must not be empty"
  if config.sourceType.requiresNetwork then
    config.metadataUrl.forM validateUrl
  config.trustConfig.forM fun trust =>
    rejectIf (trust.level == .trusted && trust.trustedKeys.isEmpty)
      "trusted repositories must have at least one trusted key"

/-- `ResolvedSource`. -/
structure ResolvedSource where
  identity : SourceConfig
  resolvedUrl : String
  reachable : Bool
deriving DecidableEq, Repr

/-- What `resolve_source` answers for the source that it found.  `pathExists` is
`Path::exists` and `debug` the `{:?}` form of a path. -/
def resolve (pathExists : String → Bool) (debug : String → String) (source : SourceConfig) :
    ServiceResult ResolvedSource :=
  if source.sourceType = .local ∧ pathExists source.baseUrl = false then
    .error (.backendUnavailable
      ("local source path '" ++ debug source.baseUrl ++ "' does not exist"))
  else
    .ok ⟨source, source.baseUrl, true⟩

end SourceConfig

/-! ## The registry -/

/-- The loop of `from_configs`, with the ids seen so far. -/
def checkConfigs : List String → List SourceConfig → ServiceResult Unit
  | _, [] => .ok ()
  | seen, config :: rest => do
      config.validate
      let id ← SourceId.new config.id
      if seen.contains id then
        throw (.alreadyExists ("duplicate source ID: " ++ config.id))
      checkConfigs (id :: seen) rest

/-- `SourceRegistry`. -/
structure SourceRegistry where
  sources : List SourceConfig
  accepted : checkConfigs [] sources = .ok ()

namespace SourceRegistry

/-- `SourceRegistry::from_configs`. -/
def fromConfigs (configs : List SourceConfig) : ServiceResult SourceRegistry :=
  match h : checkConfigs [] configs with
  | .ok () => .ok ⟨configs, h⟩
  | .error e => .error e

/-- `SourceRegistry::get_source`. -/
def getSource (registry : SourceRegistry) (id : String) : Option SourceConfig :=
  registry.sources.find? (·.id == id)

/-- `SourceRegistry::is_source_enabled`. -/
def isSourceEnabled (registry : SourceRegistry) (id : String) : Bool :=
  registry.sources.any fun s => s.id == id && s.enabled

/-- The error of `resolve_source` for an id under which no enabled source is found. -/
def notResolved (id : String) : ServiceError :=
  .notFound ("source '" ++ id ++ "' not found or disabled")

/-- `SourceRegistry::resolve_source`. -/
def resolveSource (registry : SourceRegistry) (pathExists : String → Bool)
    (debug : String → String) (id : String) : ServiceResult SourceConfig.ResolvedSource :=
  match registry.sources.find? fun s => s.id == id && s.enabled with
  | none => .error (notResolved id)
  | some source => source.resolve pathExists debug

end SourceRegistry

/-- The entry of the official repository in `default_sources`. -/
def missionSource : SourceConfig where
  id := "mission"
  name := "Mission OS Repository"
  sourceType := .mission
  baseUrl := "https://packages.mission-os.org/drivers/v1/"
  enabled := true
  priority := 10
  trustedKeyIds := ["mission-os-release-key"]
  allowedArchitectures := []
  mirrors := []
  metadataUrl := some "https://packages.mission-os.org/drivers/v1/manifest.json"
  trustConfig := some ⟨.trusted, ["mission-os-release-key"], none⟩

/-- The entry of the kernel's own drivers in `default_sources`. -/
def linuxSource : SourceConfig where
  id := "linux"
  name := "Linux Kernel (Built-in)"
  sourceType := .linux
  baseUrl := ""
  enabled := true
  priority := 20
  trustedKeyIds := []
  allowedArchitectures := []
  mirrors := []
  metadataUrl := none
  trustConfig := none

/-- `default_sources`. -/
def defaultSources : List SourceConfig := [missionSource, linuxSource]

/-- The registry of the default sources. -/
def SourceRegistry.default : SourceRegistry := ⟨defaultSources, by decide⟩

end MissionOs.Driverd
