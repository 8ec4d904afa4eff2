import MissionOs.Driverd.Scanner
import MissionOs.Driverd.Selection

/-!
# Policy and selection

What a registry and the verified manifests say about a source is a gate of the selection
in some cases and a key of its order in others.  Where it is a gate only in the documents,
an offer that the policy forbids is selected whenever nothing beats it.

`selects_avoids_iff` says when a set of offers is kept out; the results are its cases.
-/

namespace MissionOs.Driverd

open Std MissionOs.Rust MissionOs.Lib

/-- What the lists of a source allow: a package signed by one of its keys, if it lists any,
and for one of its architectures, if it lists any. -/
def SourceConfig.Permits (source : SourceConfig) (p : PackageMetadata) : Prop :=
  (source.trustedKeyIds ≠ [] → ∃ keyId ∈ source.trustedKeyIds, p.signingKeyId = some keyId) ∧
    (source.allowedArchitectures ≠ [] → p.architecture ∈ source.allowedArchitectures)

namespace DriverSelector

variable (host : Host) (selector : DriverSelector) (device : HardwareDevice)

/-- Every passing offer of `B` gives way to one outside of `B`: one that is strictly
better, or one that is level with it and comes later. -/
def GivesWay (drivers : List DriverEntry) (packages : List PackageMetadata)
    (B : Offer → Prop) : Prop :=
  ∀ pre a post, selector.passing host device drivers packages = pre ++ a :: post → B a →
    (∃ b ∈ selector.passing host device drivers packages, ¬B b ∧
      selector.Better host device b a) ∨
    ∃ b ∈ post, ¬B b ∧ selector.Level host device a b

variable {host selector device}

/-- The selector keeps out of `B` exactly if `B` gives way. -/
theorem selects_avoids_iff {drivers : List DriverEntry} {packages : List PackageMetadata}
    {B : Offer → Prop} :
    (∀ offer, selector.Selects host device drivers packages offer → ¬B offer) ↔
      selector.GivesWay host device drivers packages B := by
  simp only [selects_iff, lastMax_avoids_iff, GivesWay]
  refine forall₄_congr fun pre a post hl => imp_congr_right fun _ => ?_
  have hpasses {b : Offer} (hb : b ∈ selector.passing host device drivers packages) :
      selector.Passes host device b := (mem_passing.mp hb).2
  have ha : selector.Passes host device a := hpasses (by simp [hl])
  refine or_congr ?_ ?_
  · refine exists_congr fun b => and_congr_right fun hb => and_congr_right fun _ => ?_
    exact compareOffers_eq_lt ha (hpasses hb)
  · refine exists_congr fun b => and_congr_right fun hb => and_congr_right fun _ => ?_
    exact compareOffers_eq_eq ha (hpasses (by simp [hl, hb]))

/-! ## Distrusted sources -/

/-- The manifest of a source was found to have a bad signature or an unknown key, or the
source is configured as untrusted. -/
def Distrusts (selector : DriverSelector) (sourceId : String) : Prop :=
  (∃ msg, selector.verifiedManifests.lookup sourceId = some (.invalidSignature msg)) ∨
  (∃ msg, selector.verifiedManifests.lookup sourceId = some (.unknownKey msg)) ∨
  ∃ source trust, selector.sourceRegistry.getSource sourceId = some source ∧
    source.trustConfig = some trust ∧ trust.level = .untrusted

/-- A package of a distrusted source is kept out exactly if it gives way to one of another
source: the distrust is no gate. -/
theorem distrusted_unselected_iff (host : Host) (selector : DriverSelector)
    (device : HardwareDevice) (drivers : List DriverEntry) (packages : List PackageMetadata) :
    (∀ offer, selector.Selects host device drivers packages offer →
        ¬selector.Distrusts offer.2.sourceId) ↔
      selector.GivesWay host device drivers packages
        fun offer => selector.Distrusts offer.2.sourceId :=
  selects_avoids_iff

/-! ## Keys and architectures -/

/-- A package gets around the lists of its source: it names no key where the source lists
keys, or its architecture is not among those that the source lists. -/
def Evades (selector : DriverSelector) (p : PackageMetadata) : Prop :=
  ∃ source, selector.sourceRegistry.getSource p.sourceId = some source ∧
    ((source.trustedKeyIds ≠ [] ∧ p.signingKeyId = none) ∨
      (source.allowedArchitectures ≠ [] ∧ p.architecture ∉ source.allowedArchitectures))

/-- The trust gate holds a package that names a key to the list of its source, so a passing
offer is permitted unless it evades. -/
theorem permits_iff_not_evades {offer : Offer} (h : selector.Passes host device offer) :
    (∀ source, selector.sourceRegistry.getSource offer.2.sourceId = some source →
      source.Permits offer.2) ↔ ¬selector.Evades offer.2 := by
  constructor
  · intro hpermits hpost
    obtain ⟨source, hsource, ⟨hkeys, hnone⟩ | ⟨harchs, hother⟩⟩ := hpost
    · obtain ⟨keyId, -, hkey⟩ := (hpermits source hsource).1 hkeys
      simp [hnone] at hkey
    · exact hother ((hpermits source hsource).2 harchs)
  · intro hevades source hsource
    constructor
    · intro hkeys
      have htrusted := h.trusted
      simp only [isSourceTrusted, hsource, List.isEmpty_iff, if_neg hkeys] at htrusted
      cases hkey : offer.2.signingKeyId with
      | none => exact absurd ⟨source, hsource, Or.inl ⟨hkeys, hkey⟩⟩ hevades
      | some keyId =>
          rw [hkey] at htrusted
          exact ⟨keyId, by simpa using htrusted, rfl⟩
    · intro harchs
      by_contra hother
      exact hevades ⟨source, hsource, Or.inr ⟨harchs, hother⟩⟩

/-- Only what the lists of a source permit is selected from it, exactly if every passing
offer that evades them gives way. -/
theorem permitted_selected_iff (host : Host) (selector : DriverSelector)
    (device : HardwareDevice) (drivers : List DriverEntry) (packages : List PackageMetadata) :
    (∀ offer, selector.Selects host device drivers packages offer →
        ∀ source, selector.sourceRegistry.getSource offer.2.sourceId = some source →
          source.Permits offer.2) ↔
      selector.GivesWay host device drivers packages fun offer => selector.Evades offer.2 := by
  rw [← selects_avoids_iff]
  refine forall₂_congr fun offer hselects => ?_
  have hmem := mem_of_lastMax (selects_iff.mp hselects)
  exact permits_iff_not_evades (mem_passing.mp hmem).2

end DriverSelector

/-- A machine with a recent kernel. -/
def recentHost : Host := ⟨⟨"6.8.0", "x86_64", []⟩, id⟩

/-- An Intel network adapter. -/
def ethernetController : HardwareDevice where
  hardwareId := ⟨"pci:v00008086d0000A0C8sv00000000sd00000000bc02sc00i00", "0x8086", "0xA0C8",
    none, none, none, "pci", none⟩
  deviceName := "Ethernet Controller"
  vendorName := none
  busType := .pci
  boundDriver := none
  operational := false
  matchedDrivers := []

/-- A package of `e1000e` from the official repository. -/
def e1000ePackage (signingKeyId : Option String) (urlPath : String) : PackageMetadata where
  packageId := ⟨"e1000e", "mission", .new 1 0 0⟩
  driverName := "e1000e"
  description := "Test package"
  moduleType := .kernelModule
  architecture := "x86_64"
  kernelCompat := ⟨"2.6.32", none, []⟩
  filename := "test.ko"
  sizeBytes := 1000
  digest := ⟨"sha256", List.replicate 32 0⟩
  signatureHex := "deadbeef"
  signingKeyId := signingKeyId
  sourceId := "mission"
  urlPath := urlPath
  isDelta := false
  baseVersion := none

/-- The selector of the default sources. -/
def defaultSelector : DriverSelector := .withMatcher ⟨recentHost.detect⟩ .default

/-- A signed package of the official repository. -/
def signedPackage : PackageMetadata :=
  e1000ePackage (some "mission-os-release-key") "packages/test.ko"

/-- After the manifest of the official repository was found to be forged, its package is
still selected. -/
theorem forged_manifest_selected :
    ¬∀ offer, (defaultSelector.updateManifestVerification "mission"
          (.invalidSignature "signature does not match any trusted key")).Selects recentHost
        ethernetController [e1000eDriver .available] [signedPackage] offer →
      ¬(defaultSelector.updateManifestVerification "mission"
          (.invalidSignature "signature does not match any trusted key")).Distrusts
        offer.2.sourceId := by
  intro h
  refine h (e1000eDriver .available, signedPackage) ?_ (Or.inl ⟨_, rfl⟩)
  rw [DriverSelector.selects_iff]
  decide +kernel

/-- The official repository, if it served machines with ARM processors only. -/
def armRegistry : SourceRegistry :=
  ⟨[{ missionSource with allowedArchitectures := ["aarch64"] }], rfl⟩

/-- A package for `x86_64` is selected from a source that allows `aarch64` alone. -/
theorem foreign_architecture_selected :
    ¬∀ offer, (DriverSelector.withMatcher ⟨recentHost.detect⟩ armRegistry).Selects recentHost
        ethernetController [e1000eDriver .available] [signedPackage] offer →
      ∀ source, armRegistry.getSource offer.2.sourceId = some source →
        source.Permits offer.2 := by
  intro h
  have hpermits := h (e1000eDriver .available, signedPackage)
    (by rw [DriverSelector.selects_iff]; decide +kernel)
    { missionSource with allowedArchitectures := ["aarch64"] } rfl
  have hlisted : "x86_64" ∈ ["aarch64"] := hpermits.2 (List.cons_ne_nil _ _)
  exact absurd hlisted (by decide)

end MissionOs.Driverd
