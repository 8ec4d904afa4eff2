import Mathlib.Data.List.Nodup
import MissionOs.Driverd.Repository

/-!
# Well-formed manifests

`validate` of an entry and of a manifest check field after field and stop at the first error.
`WellFormed` lists what they check.
-/

namespace MissionOs.Driverd

open MissionOs.Rust

theorem refuseIf_eq_ok_iff {found : Bool} {msg : String} :
    refuseIf found msg = .ok () ↔ found = false := by
  cases found with
  | false => simp [refuseIf]
  | true => simp [refuseIf]

/-- Two checks pass in turn exactly if both do. -/
theorem bind_unit_eq_ok_iff {ε : Type} {x : Except ε Unit} {next : Unit → Except ε Unit} :
    (x >>= next) = .ok () ↔ x = .ok () ∧ next () = .ok () := by
  rw [bind_eq_ok_iff]
  constructor
  · intro h
    obtain ⟨⟨⟩, hx, hnext⟩ := h
    exact ⟨hx, hnext⟩
  · intro h
    obtain ⟨hx, hnext⟩ := h
    exact ⟨(), hx, hnext⟩

theorem refuseIf_not_contains_iff {supported : List String} {text msg : String} :
    refuseIf (!supported.contains text) msg = .ok () ↔ text ∈ supported := by
  rw [refuseIf_eq_ok_iff, Bool.not_eq_false', List.contains_iff_mem]

namespace RepositoryPackageEntry

/-- What `validate` checks of an entry. -/
structure WellFormed (unicode : String → String) (entry : RepositoryPackageEntry) : Prop where
  name_not_blank : trimIsEmpty entry.name = false
  name_length : byteLen entry.name ≤ 256
  version_not_blank : trimIsEmpty entry.version = false
  version_read : ∃ v, DriverVersion.parse entry.version = .ok v
  url_valid : entry.validateUrl = .ok ()
  size_positive : entry.size ≠ some 0
  algorithm_supported :
    toLowercase unicode entry.digestAlgorithm ∈ supportedDigestAlgorithms
  digest_length : byteLen entry.digestValue = 64
  digest_hex : ∀ c ∈ entry.digestValue.toList, isHexDigit c = true
  architecture_supported : ∀ arch, entry.architecture = some arch →
    toLowercase unicode arch ∈ supportedArchitectures
  channel_valid : ∀ channel, entry.channel = some channel →
    channel ∈ ["stable", "beta", "testing", "nightly", "rc"]

theorem validate_eq_ok_iff {unicode : String → String} {entry : RepositoryPackageEntry} :
    entry.validate unicode = .ok () ↔ entry.WellFormed unicode := by
  constructor
  · intro h
    simp only [validate, bind_unit_eq_ok_iff] at h
    obtain ⟨hname, hlength, hblank, h⟩ := h
    obtain ⟨v, hversion, h⟩ := bind_eq_ok_iff.mp h
    simp only [bind_unit_eq_ok_iff, refuseIf_not_contains_iff] at h
    obtain ⟨hurl, hsize, halgorithm, hdigits, hhex, hrest⟩ := h
    rw [refuseIf_eq_ok_iff] at hname hlength hblank hsize hdigits hhex
    refine ⟨hname, by simpa using hlength, hblank, ⟨v, mapError_eq_ok_iff.mp hversion⟩, hurl,
      by simpa using hsize, halgorithm, by simpa using hdigits, by simpa using hhex, ?_, ?_⟩
    · intro arch harch
      simp only [harch, bind_unit_eq_ok_iff, refuseIf_not_contains_iff] at hrest
      exact hrest.1
    · intro channel hchannel
      cases harch : entry.architecture with
      | none =>
          simp only [harch, hchannel, refuseIf_not_contains_iff] at hrest
          exact hrest
      | some arch =>
          simp only [harch, hchannel, bind_unit_eq_ok_iff, refuseIf_not_contains_iff] at hrest
          exact hrest.2
  · intro h
    obtain ⟨v, hversion⟩ := h.version_read
    have hsize : (entry.size == some 0) = false := by simpa using h.size_positive
    have hhex : (!entry.digestValue.toList.all isHexDigit) = false := by simpa using h.digest_hex
    simp only [validate, bind_unit_eq_ok_iff, refuseIf_eq_ok_iff]
    refine ⟨h.name_not_blank, by simpa using h.name_length, h.version_not_blank, ?_⟩
    refine bind_eq_ok_iff.mpr ⟨v, mapError_eq_ok_iff.mpr hversion, ?_⟩
    simp only [bind_unit_eq_ok_iff, refuseIf_eq_ok_iff]
    refine ⟨h.url_valid, hsize, by simpa using h.algorithm_supported,
      by simpa using h.digest_length, hhex, ?_⟩
    cases harch : entry.architecture with
    | none =>
        cases hchannel : entry.channel with
        | none => rfl
        | some channel => exact refuseIf_not_contains_iff.mpr (h.channel_valid channel hchannel)
    | some arch =>
        refine bind_unit_eq_ok_iff.mpr
          ⟨refuseIf_not_contains_iff.mpr (h.architecture_supported arch harch), ?_⟩
        cases hchannel : entry.channel with
        | none => rfl
        | some channel => exact refuseIf_not_contains_iff.mpr (h.channel_valid channel hchannel)

/-- What the manifest tells two entries apart by. -/
def key (entry : RepositoryPackageEntry) : String × String := (entry.name, entry.version)

end RepositoryPackageEntry

section Packages

variable {unicode : String → String}

/-- The loop passes exactly if every entry is well formed and no key occurs twice. -/
theorem validatePackages_eq_ok_iff {seen : List (String × String)}
    {packages : List RepositoryPackageEntry} :
    validatePackages unicode seen packages = .ok () ↔
      (∀ pkg ∈ packages, pkg.WellFormed unicode) ∧
        (packages.map RepositoryPackageEntry.key).Nodup ∧ ∀ pkg ∈ packages, pkg.key ∉ seen := by
  induction packages generalizing seen with
  | nil => simp [validatePackages]
  | cons pkg packages ih =>
      rw [validatePackages, bind_unit_eq_ok_iff, bind_unit_eq_ok_iff, ih, refuseIf_eq_ok_iff,
        RepositoryPackageEntry.validate_eq_ok_iff, List.forall_mem_cons, List.forall_mem_cons,
        List.map_cons, List.nodup_cons]
      have hseen : seen.contains (pkg.name, pkg.version) = false ↔ pkg.key ∉ seen := by
        simp [RepositoryPackageEntry.key]
      have hfresh : (∀ p ∈ packages, p.key ∉ (pkg.name, pkg.version) :: seen) ↔
          pkg.key ∉ packages.map RepositoryPackageEntry.key ∧ ∀ p ∈ packages, p.key ∉ seen := by
        simp only [List.mem_cons, not_or, List.mem_map, not_exists, not_and, imp_and,
          forall_and]
        rfl
      rw [hseen, hfresh]
      tauto

/-- A manifest that is validated has well-formed entries, and no two have the same key. -/
theorem RepositoryManifest.packages_of_validate {manifest : RepositoryManifest}
    (h : manifest.validate unicode = .ok ()) :
    (∀ pkg ∈ manifest.packages, pkg.WellFormed unicode) ∧
      (manifest.packages.map RepositoryPackageEntry.key).Nodup := by
  simp only [validate, bind_unit_eq_ok_iff, validatePackages_eq_ok_iff] at h
  exact ⟨h.2.2.2.2.2.2.1, h.2.2.2.2.2.2.2.1⟩

end Packages

end MissionOs.Driverd
