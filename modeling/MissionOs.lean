import MissionOs.Core.ConfigHistory
import MissionOs.Core.CpuCount
import MissionOs.Core.Logging
import MissionOs.Core.MissionDir
import MissionOs.Core.VersionGrammar
import MissionOs.Core.VersionPrecedence
import MissionOs.Crypto.HashCompare
import MissionOs.Crypto.SecureMemory
import MissionOs.Driverd.AccessControl
import MissionOs.Driverd.AntiReplay
import MissionOs.Driverd.AuditTrail
import MissionOs.Driverd.AuthorizationBypass
import MissionOs.Driverd.AvailableModules
import MissionOs.Driverd.BadSignatures
import MissionOs.Driverd.CacheConsistency
import MissionOs.Driverd.CacheEviction
import MissionOs.Driverd.CacheForeign
import MissionOs.Driverd.CacheFrame
import MissionOs.Driverd.CacheTrust
import MissionOs.Driverd.ClientErrors
import MissionOs.Driverd.CompatibilityFallback
import MissionOs.Driverd.CompatibilityJudges
import MissionOs.Driverd.ConcurrentDownloads
import MissionOs.Driverd.ConcurrentOperations
import MissionOs.Driverd.ContentRange
import MissionOs.Driverd.DowngradeGuards
import MissionOs.Driverd.DowngradeProtection
import MissionOs.Driverd.DuplicateCheck
import MissionOs.Driverd.FetchCleanup
import MissionOs.Driverd.FreshnessWindow
import MissionOs.Driverd.HardwarePoll
import MissionOs.Driverd.HexDecoders
import MissionOs.Driverd.KernelFeatures
import MissionOs.Driverd.KernelRange
import MissionOs.Driverd.KernelTruth
import MissionOs.Driverd.KeyStore
import MissionOs.Driverd.LoadedModules
import MissionOs.Driverd.ManifestVersions
import MissionOs.Driverd.MatchRank
import MissionOs.Driverd.MatchedDrivers
import MissionOs.Driverd.MetadataChecks
import MissionOs.Driverd.ModaliasGlob
import MissionOs.Driverd.ModaliasIds
import MissionOs.Driverd.MutualExclusion
import MissionOs.Driverd.OperationChecks
import MissionOs.Driverd.PackagePaths
import MissionOs.Driverd.PathContainment
import MissionOs.Driverd.PublishedManifest
import MissionOs.Driverd.RangeFallback
import MissionOs.Driverd.RemovalGuard
import MissionOs.Driverd.Rescan
import MissionOs.Driverd.RetryCount
import MissionOs.Driverd.SelectionOrder
import MissionOs.Driverd.SignatureChecks
import MissionOs.Driverd.SignatureText
import MissionOs.Driverd.SizeLimit
import MissionOs.Driverd.SourceLookup
import MissionOs.Driverd.StagingAgreement
import MissionOs.Driverd.UrlPolicy
import MissionOs.Driverd.VerifiedDownload
import MissionOs.Driverd.VerifiedStaging
import MissionOs.Driverd.VerifyThenLoad
import MissionOs.Driverd.VersionAgreement
import MissionOs.Driverd.VersionLaws
import MissionOs.Driverd.VersionText
import MissionOs.Installer.CleanupMeaning
import MissionOs.Installer.PostInstall
import MissionOs.Securityd.RuleConstraints
import MissionOs.Securityd.RulePlacement
import MissionOs.Securityd.RulesetMeaning
import MissionOs.Securityd.ServiceRuns
