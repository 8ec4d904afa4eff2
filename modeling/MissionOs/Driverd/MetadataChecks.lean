import MissionOs.Driverd.DigestText
import MissionOs.Driverd.KernelRange
import MissionOs.Driverd.ManifestChecks
import MissionOs.Driverd.Metadata
import MissionOs.Driverd.Source

/-!
# Validated digests

An entry of a manifest and the metadata of a package are validated before a package is
downloaded, and the downloaded file is compared with the digest that they state.  `validate` of
an entry lowers the name of the algorithm, but `parse` and the hasher know each name in two
spellings only; `validate` of metadata looks at nothing but whether the digest is empty
(`validate_withDigest`).  `usableDigest_iff` says which validated digests can be compared.
-/

namespace MissionOs.Driverd

open MissionOs.Rust

/-! ## Validating metadata -/

/-- `DriverVersion::validate`. -/
def DriverVersion.validate (v : DriverVersion) : ServiceResult Unit :=
  match v.preRelease with
  | none => .ok ()
  | some pre =>
    rejectIf (pre.toList.any fun c => c == '/' || c == '\\' || c == ';' || c == '|')
      "pre-release contains invalid characters"

/-- `PackageId::validate`. -/
def PackageId.validate (id : PackageId) : ServiceResult Unit := do
  rejectIf (trimIsEmpty id.driverName) "package driver_name must not be empty"
  rejectIf (trimIsEmpty id.sourceId) "package source_id must not be empty"
  id.version.validate

namespace PackageMetadata

/-- `PackageMetadata::validate`. -/
def validate (p : PackageMetadata) : ServiceResult Unit := do
  p.packageId.validate
  rejectIf (trimIsEmpty p.driverName) "driver_name must not be empty"
  rejectIf (trimIsEmpty p.architecture) "architecture must not be empty"
  rejectIf (trimIsEmpty p.filename) "filename must not be empty"
  rejectIf (trimIsEmpty p.sourceId) "source_id must not be empty"
  rejectIf (p.sizeBytes == 0) "package size must be greater than 0"
  rejectIf (2000000000 < p.sizeBytes) "package size exceeds maximum (2 GB)"
  rejectIf p.digest.value.isEmpty "package digest must not be empty"
  p.kernelCompat.validate
  rejectIf (containsText p.urlPath "..") "url_path must not contain '..'"
  rejectIf (p.isDelta && p.baseVersion.isNone) "delta package must specify base_version"

end PackageMetadata

/-! ## Digests that can be compared -/

/-- The digest of an entry is parsed, and there is a hasher for it. -/
structure RepositoryPackageEntry.UsableDigest (entry : RepositoryPackageEntry) : Prop where
  parsed : ∃ d, PackageDigest.parse (entry.digestAlgorithm ++ ":" ++ entry.digestValue) = .ok d
  hashed : ∃ hasher, StreamingHasher.new entry.digestAlgorithm = .ok hasher

/-- There is a hasher for the digest of metadata, and the digest has the length of its hashes. -/
structure PackageMetadata.UsableDigest (p : PackageMetadata) : Prop where
  hashed : ∃ hasher, StreamingHasher.new p.digest.algorithm = .ok hasher
  length_eq : p.digest.value.length = 32

/-- The bytes of a hexadecimal form are half as many as its digits. -/
theorem length_of_isHex {text : List Char} {bytes : Bytes} (h : IsHex text bytes) :
    (text.map Char.utf8Size).sum = 2 * bytes.length := by
  induction h with
  | nil => rfl
  | cons ha hb _ ih =>
      rw [List.map_cons, List.map_cons, List.sum_cons, List.sum_cons, ih,
        utf8Size_of_hexValue ha, utf8Size_of_hexValue hb, List.length_cons]
      omega

/-- What `hex_serde` decodes is half as long as the text. -/
theorem length_of_deserialize {hex : String} {bytes : Bytes}
    (h : HexSerde.deserialize hex = .ok bytes) : byteLen hex = 2 * bytes.length := by
  obtain ⟨heven, hread⟩ := deserialize_eq_ok_iff.mp h
  obtain ⟨hlength, hfilter⟩ := filterMap_length_eq_iff.mpr hread
  rw [hfilter, length_chunksOfTwo heven] at hlength
  rw [length_asBytes] at heven hlength
  show (hex.toList.map Char.utf8Size).sum = _
  omega

/-- A validated value is the hexadecimal form of 32 bytes. -/
theorem RepositoryPackageEntry.WellFormed.digest_isHex {unicode : String → String}
    {entry : RepositoryPackageEntry} (h : entry.WellFormed unicode) :
    ∃ bytes, IsHex entry.digestValue.toList bytes ∧ bytes.length = 32 := by
  have hsize : ∀ c ∈ entry.digestValue.toList, c.utf8Size = 1 := by
    intro c hc
    obtain ⟨n, hn⟩ := isHexDigit_iff.mp (h.digest_hex c hc)
    exact utf8Size_of_hexValue hn
  have hlength : entry.digestValue.toList.length = 64 := by
    rw [← h.digest_length, byteLen, List.map_congr_left hsize]
    simp
  obtain ⟨bytes, hbytes⟩ := exists_isHex_iff.mpr ⟨by omega, h.digest_hex⟩
  have htwice := length_of_isHex hbytes
  rw [List.map_congr_left hsize] at htwice
  refine ⟨bytes, hbytes, ?_⟩
  simp at htwice
  omega

/-- A validated digest can be compared exactly if its algorithm is spelled as the hasher knows
it and, in metadata, its text has 64 digits. -/
theorem usableDigest_iff (unicode : String → String) (entry : RepositoryPackageEntry)
    (p : PackageMetadata) (hex : String) :
    (entry.validate unicode = .ok () →
        (entry.UsableDigest ↔ entry.digestAlgorithm ∈ digestNames)) ∧
      (HexSerde.deserialize hex = .ok p.digest.value → p.validate = .ok () →
        (p.UsableDigest ↔ p.digest.algorithm ∈ digestNames ∧ byteLen hex = 64)) := by
  constructor
  · intro hvalid
    constructor
    · intro h
      exact exists_hasher_iff.mp h.hashed
    · intro hname
      obtain ⟨inner, hinner⟩ := ofName_eq_some_iff.mpr hname
      obtain ⟨bytes, hhex, hlength⟩ :=
        (RepositoryPackageEntry.validate_eq_ok_iff.mp hvalid).digest_isHex
      obtain ⟨d, hd, -⟩ := PackageDigest.parse_toStringFull inner hlength
      refine ⟨⟨d, ?_⟩, exists_hasher_iff.mpr hname⟩
      rw [PackageDigest.parse_of_isHex hinner hhex, hd]
  · intro hread _
    have hlength := length_of_deserialize hread
    constructor
    · intro h
      have hvalue := h.length_eq
      exact ⟨exists_hasher_iff.mp h.hashed, by omega⟩
    · intro h
      obtain ⟨hname, htext⟩ := h
      exact ⟨exists_hasher_iff.mpr hname, by omega⟩

/-! ## Examples -/

/-- An entry with a digest of 32 zeros. -/
def entryWithAlgorithm (algorithm : String) : RepositoryPackageEntry where
  name := "e1000e"
  version := "1.0.0"
  url := "/e1000e.ko"
  size := none
  digestAlgorithm := algorithm
  digestValue := HexSerde.serialize (List.replicate 32 0)
  architecture := none
  kernelCompat := none
  modaliasPatterns := []
  metadataVersion := 1
  channel := none

/-- Metadata of the same driver with a digest. -/
def metadataWithDigest (digest : PackageDigest) : PackageMetadata where
  packageId := ⟨"e1000e", "main", .new 1 0 0⟩
  driverName := "e1000e"
  description := ""
  moduleType := .kernelModule
  architecture := "x86_64"
  kernelCompat := ⟨"6.1", none, []⟩
  filename := "e1000e.ko"
  sizeBytes := 1
  digest := digest
  signatureHex := ""
  signingKeyId := none
  sourceId := "main"
  urlPath := "/e1000e.ko"
  isDelta := false
  baseVersion := none

theorem usableDigest_upper_case : (entryWithAlgorithm "SHA256").UsableDigest ∧
    (metadataWithDigest ⟨"blake3", List.replicate 32 0⟩).UsableDigest := by
  have hentry : (entryWithAlgorithm "SHA256").validate id = .ok () := by decide
  have hmetadata : (metadataWithDigest ⟨"blake3", List.replicate 32 0⟩).validate = .ok () := by
    decide
  have hread : HexSerde.deserialize (HexSerde.serialize (List.replicate 32 0)) =
      .ok (List.replicate 32 0) := by
    exact deserialize_of_isHex (isHex_hexEncode _)
  have hiff := usableDigest_iff id (entryWithAlgorithm "SHA256")
    (metadataWithDigest ⟨"blake3", List.replicate 32 0⟩)
    (HexSerde.serialize (List.replicate 32 0))
  exact ⟨(hiff.1 hentry).mpr (by decide), (hiff.2 hread hmetadata).mpr ⟨by decide, by decide⟩⟩

/-- `Sha256` passes for an algorithm, and one byte for a digest, of whatever algorithm. -/
theorem mixed_case_unusable :
    (¬ ∀ (unicode : String → String) (entry : RepositoryPackageEntry),
        entry.validate unicode = .ok () → entry.UsableDigest) ∧
      ¬ ∀ (p : PackageMetadata) (hex : String),
        HexSerde.deserialize hex = .ok p.digest.value → p.validate = .ok () →
          p.UsableDigest := by
  constructor
  · intro h
    have husable := h id (entryWithAlgorithm "Sha256") (by decide)
    have hname := exists_hasher_iff.mp husable.hashed
    revert hname
    decide
  · intro h
    have hvalid : (metadataWithDigest ⟨"sha256", [0]⟩).validate = .ok () := by decide
    have husable := h (metadataWithDigest ⟨"sha256", [0]⟩) (HexSerde.serialize [0])
      (deserialize_of_isHex (isHex_hexEncode _)) hvalid
    have hlength := husable.length_eq
    revert hlength
    decide

end MissionOs.Driverd
