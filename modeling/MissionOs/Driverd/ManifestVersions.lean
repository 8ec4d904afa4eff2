import MissionOs.Driverd.ManifestChecks
import MissionOs.Driverd.VersionText

/-!
# The versions in a manifest

`RepositoryManifest::validate` rejects two entries with the same name and the same version
text.  Who looks for a package compares versions, and one version has many texts: with white
space around it, a `+` or zeros before a number, a fourth number, or a dash at the end.
`distinctVersions_iff` says that these are what the check misses.
-/

namespace MissionOs.Driverd

open MissionOs.Rust

/-- The number in a part of a version text. -/
def partNumber : List Char → Nat
  | '+' :: digits => decimal digits
  | digits => decimal digits

/-- The first three numbers of a version text, those before its first dash. -/
def firstNumbers (text : List Char) : List Nat :=
  (((text.takeWhile (· ≠ '-')).splitOn '.').take 3).map partNumber

/-- What follows the first dash of a version text. -/
def afterDash (text : List Char) : List Char := (text.dropWhile (· ≠ '-')).tail

/-- Two version texts have the same three numbers and the same text after the first dash. -/
def SpelledAlike (s t : String) : Prop :=
  firstNumbers (trim s.toList) = firstNumbers (trim t.toList) ∧
    afterDash (trim s.toList) = afterDash (trim t.toList)

instance (s t : String) : Decidable (SpelledAlike s t) := inferInstanceAs (Decidable (_ ∧ _))

section Parse

variable {s t : String} {v w : DriverVersion}

theorem partNumber_of_parseU64 {part : List Char} {n : UInt64} (h : parseU64 part = .ok n) :
    partNumber part = n.toNat := by
  obtain ⟨digits, rfl | rfl, hdigits, hvalue⟩ := parseU64_eq_ok_iff.mp h
  · rw [partNumber]
    · exact hvalue
    · intro rest heq
      subst heq
      exact absurd (hdigits.2 '+' List.mem_cons_self) (by decide)
  · exact hvalue

theorem firstNumbers_of_parse (h : DriverVersion.parse s = .ok v) :
    firstNumbers (trim s.toList) = [v.major.toNat, v.minor.toNat, v.patch.toNat] := by
  obtain ⟨major, minor, patch, more, hsplit, hmajor, hminor, hpatch, -⟩ :=
    DriverVersion.parse_eq_ok_iff.mp h
  rw [firstNumbers, hsplit]
  show [partNumber major, partNumber minor, partNumber patch] = _
  rw [partNumber_of_parseU64 hmajor, partNumber_of_parseU64 hminor,
    partNumber_of_parseU64 hpatch]

theorem preRelease_of_parse (h : DriverVersion.parse s = .ok v) :
    v.preRelease = if afterDash (trim s.toList) = [] then none
      else some (String.ofList (afterDash (trim s.toList))) := by
  obtain ⟨-, -, -, -, -, -, -, -, hpre⟩ := DriverVersion.parse_eq_ok_iff.mp h
  rw [hpre, DriverVersion.splitPreRelease, afterDash]
  cases (trim s.toList).dropWhile (· ≠ '-') with
  | nil => rfl
  | cons c rest =>
      cases rest with
      | nil => rfl
      | cons d rest => rfl

/-- Two texts are read as one version exactly if they are spelled alike. -/
theorem parse_eq_parse_iff (hs : DriverVersion.parse s = .ok v)
    (ht : DriverVersion.parse t = .ok w) : v = w ↔ SpelledAlike s t := by
  have hnumbers : firstNumbers (trim s.toList) = firstNumbers (trim t.toList) ↔
      v.major = w.major ∧ v.minor = w.minor ∧ v.patch = w.patch := by
    rw [firstNumbers_of_parse hs, firstNumbers_of_parse ht]
    simp [UInt64.toNat_inj]
  have hpre : afterDash (trim s.toList) = afterDash (trim t.toList) ↔
      v.preRelease = w.preRelease := by
    rw [preRelease_of_parse hs, preRelease_of_parse ht]
    constructor
    · intro h
      rw [h]
    · intro h
      split_ifs at h with hleft hright hright
      · rw [hleft, hright]
      · exact String.ofList_injective (Option.some.inj h)
  rw [SpelledAlike, hnumbers, hpre]
  constructor
  · intro heq
    subst heq
    exact ⟨⟨rfl, rfl, rfl⟩, rfl⟩
  · intro h
    obtain ⟨⟨hmajor, hminor, hpatch⟩, hpre⟩ := h
    cases v
    cases w
    simp_all

end Parse

namespace RepositoryManifest

/-- No two entries have the same name and are read as the same version. -/
def DistinctVersions (manifest : RepositoryManifest) : Prop :=
  manifest.packages.Pairwise fun a b => ¬(a.name = b.name ∧
    ∃ v, DriverVersion.parse a.version = .ok v ∧ DriverVersion.parse b.version = .ok v)

/-- A manifest that is validated has distinct versions exactly if no two version texts of one
name are spelled alike. -/
theorem distinctVersions_iff (unicode : String → String) (manifest : RepositoryManifest)
    (h : manifest.validate unicode = .ok ()) :
    manifest.DistinctVersions ↔
      manifest.packages.Pairwise fun a b =>
        a.name = b.name → ¬SpelledAlike a.version b.version := by
  obtain ⟨hwell, -⟩ := packages_of_validate h
  refine List.Pairwise.iff_of_mem fun {a b} ha hb => ?_
  obtain ⟨v, hv⟩ := (hwell a ha).version_read
  obtain ⟨w, hw⟩ := (hwell b hb).version_read
  have hsame : (∃ u, DriverVersion.parse a.version = .ok u ∧
      DriverVersion.parse b.version = .ok u) ↔ SpelledAlike a.version b.version := by
    rw [← parse_eq_parse_iff hv hw]
    constructor
    · intro h
      obtain ⟨u, hau, hbu⟩ := h
      rw [hv] at hau
      rw [hw] at hbu
      exact Except.ok.inj (hau.trans hbu.symm)
    · intro heq
      subst heq
      exact ⟨v, hv, hw⟩
  rw [hsame, not_and]

/-- If every version text is as versions are printed, a manifest that is validated has distinct
versions. -/
theorem distinctVersions_of_printed {unicode : String → String} {manifest : RepositoryManifest}
    (h : manifest.validate unicode = .ok ())
    (hprinted : ∀ pkg ∈ manifest.packages, ∀ v, DriverVersion.parse pkg.version = .ok v →
      pkg.version = v.display) : manifest.DistinctVersions := by
  obtain ⟨-, hnodup⟩ := packages_of_validate h
  rw [List.Nodup, List.pairwise_map] at hnodup
  refine hnodup.imp_of_mem fun {a b} ha hb hkey hsame => hkey ?_
  obtain ⟨hname, v, hav, hbv⟩ := hsame
  rw [RepositoryPackageEntry.key, RepositoryPackageEntry.key, hname, hprinted a ha v hav,
    hprinted b hb v hbv]

/-- A manifest of the official repository with a driver in two versions. -/
def withVersions (versions : List String) : RepositoryManifest where
  repositoryId := "mission"
  manifestVersion := 1
  issuedAt := 1000
  expiresAt := 2000
  signingKeyId := "release"
  packages := versions.map fun version =>
    { name := "e1000e"
      version := version
      url := "/e1000e.ko"
      size := some 4096
      digestAlgorithm := "sha256"
      digestValue := String.ofList (List.replicate 64 'a')
      architecture := none
      kernelCompat := none
      modaliasPatterns := []
      metadataVersion := 1
      channel := none }
  verification := .unverified

theorem distinctVersions_upgrade : (withVersions ["1.0.0", "1.1.0"]).DistinctVersions := by
  refine (distinctVersions_iff id (withVersions ["1.0.0", "1.1.0"]) (by decide)).mpr ?_
  rw [withVersions, List.pairwise_map, List.pairwise_pair]
  intro _
  decide

/-- `1.0.0` and `01.0.0` are accepted side by side. -/
theorem leading_zero_duplicates : ¬ ∀ (unicode : String → String)
    (manifest : RepositoryManifest), manifest.validate unicode = .ok () →
      manifest.DistinctVersions := by
  intro h
  have hdistinct := h id (withVersions ["1.0.0", "01.0.0"]) (by decide)
  rw [DistinctVersions, withVersions, List.pairwise_map, List.pairwise_pair] at hdistinct
  exact hdistinct ⟨rfl, .new 1 0 0, by decide, by decide⟩

end RepositoryManifest

end MissionOs.Driverd
