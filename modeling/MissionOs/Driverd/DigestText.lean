import MissionOs.Driverd.Digest
import MissionOs.Driverd.HexDecoders
import MissionOs.Rust.Cut
import MissionOs.Rust.Decimal

/-!
# The text of a digest

`to_string_full` of a digest (`metadata.rs`) puts the algorithm before the hexadecimal form of
the value, and `parse` reads both again.  What `parse` makes of a name of an algorithm and a
hexadecimal form is in `parse_of_isHex`; that the value is read again is `parse_toStringFull`.
-/

namespace MissionOs.Driverd

open MissionOs.Rust

namespace PackageDigest

/-! ## Reading and printing -/

/-- `PackageDigest::parse`. -/
def parse (input : String) : ServiceResult PackageDigest :=
  let input := trim input.toList
  match splitAtFirst ':' input with
  | (_, none) => .error (.invalidArgument
      ("invalid digest format, expected 'algorithm:hex': " ++ String.ofList input))
  | (algo, some hex) =>
    match String.ofList algo with
    | "sha256" | "SHA256" => do
        let bytes ← Metadata.hexDecode (String.ofList hex)
        sha256 bytes
    | "blake3" | "BLAKE3" => do
        let bytes ← Metadata.hexDecode (String.ofList hex)
        blake3 bytes
    | algo => .error (.invalidArgument ("unsupported hash algorithm: " ++ algo))

/-- `PackageDigest::to_string_full`. -/
def toStringFull (d : PackageDigest) : String := d.algorithm ++ ":" ++ d.toHex

/-- The digest that `parse` makes of a value, by its algorithm. -/
def ofAlgorithm : HashAlgorithm → Bytes → ServiceResult PackageDigest
  | .sha256 => sha256
  | .blake3 => blake3

end PackageDigest

/-! ## Hexadecimal forms -/

section Hex

variable {c : Char} {n : Nat} {text : List Char} {s : String} {bytes : Bytes}

theorem hexValue_digitChar (h : n < 16) : hexValue (Nat.digitChar n) = some n := by
  revert n
  decide

/-- What is printed is the hexadecimal form. -/
theorem isHex_hexEncode (bytes : Bytes) : IsHex (hexEncode bytes).toList bytes := by
  rw [hexEncode, String.toList_ofList]
  induction bytes with
  | nil => exact .nil
  | cons b bytes ih =>
      have hlt := b.toNat_lt
      have hhigh := hexValue_digitChar (show b.toNat / 16 < 16 by omega)
      have hlow := hexValue_digitChar (show b.toNat % 16 < 16 by omega)
      have hbyte : UInt8.ofNat (16 * (b.toNat / 16) + b.toNat % 16) = b := by
        rw [Nat.div_add_mod, UInt8.ofNat_toNat]
      have hcons := IsHex.cons hhigh hlow ih
      rw [hbyte] at hcons
      exact hcons

theorem isHexDigit_of_isHex (h : IsHex text bytes) : ∀ c ∈ text, isHexDigit c = true :=
  (exists_isHex_iff.mp ⟨bytes, h⟩).2

theorem trim_of_isHex (h : IsHex text bytes) : trim text = text :=
  trim_eq_self_of_forall fun c hc => isWhitespace_of_isHexDigit (isHexDigit_of_isHex h c hc)

/-- A hexadecimal form is decoded to what it is the form of. -/
theorem metadata_hexDecode_of_isHex (h : IsHex s.toList bytes) :
    Metadata.hexDecode s = .ok bytes := by
  rw [metadata_hexDecode_eq_ok_iff, trim_of_isHex h]
  exact mapM_readChunkOrZeros_of_readsAs h.readsAs

theorem deserialize_of_isHex (h : IsHex s.toList bytes) : HexSerde.deserialize s = .ok bytes :=
  deserialize_eq_ok_iff.mpr (mapM_readChunkOrZeros_of_readsAs h.readsAs)

end Hex

/-! ## Names of algorithms -/

/-- The names that `parse` and the hasher know. -/
def digestNames : List String := ["sha256", "SHA256", "blake3", "BLAKE3"]

theorem ofName_eq_some_iff {name : String} :
    (∃ inner, HashAlgorithm.ofName name = some inner) ↔ name ∈ digestNames := by
  rw [digestNames]
  constructor
  · intro h
    obtain ⟨inner, h⟩ := h
    unfold HashAlgorithm.ofName at h
    split at h
    · simp
    · simp
    · simp
    · simp
    · cases h
  · intro h
    simp only [List.mem_cons, List.not_mem_nil, or_false] at h
    rcases h with rfl | rfl | rfl | rfl
    · exact ⟨.sha256, rfl⟩
    · exact ⟨.sha256, rfl⟩
    · exact ⟨.blake3, rfl⟩
    · exact ⟨.blake3, rfl⟩

/-- The hasher knows these names and no others. -/
theorem exists_hasher_iff {name : String} :
    (∃ hasher, StreamingHasher.new name = .ok hasher) ↔ name ∈ digestNames := by
  rw [← ofName_eq_some_iff]
  constructor
  · intro h
    obtain ⟨hasher, h⟩ := h
    obtain ⟨inner, hinner, -⟩ := StreamingHasher.eq_of_new h
    exact ⟨inner, hinner⟩
  · intro h
    obtain ⟨inner, hinner⟩ := h
    cases hnew : StreamingHasher.new name with
    | ok hasher => exact ⟨hasher, rfl⟩
    | error e =>
        rw [StreamingHasher.ofName_of_new_error hnew] at hinner
        cases hinner

/-- A name of an algorithm is letters and digits. -/
theorem chars_of_mem_digestNames {name : String} (h : name ∈ digestNames) :
    ∀ c ∈ name.toList, isWhitespace c = false ∧ c ≠ ':' := by
  have hall : (digestNames.all fun name => name.toList.all fun c =>
      !isWhitespace c && c != ':') = true := by decide
  intro c hc
  have hname := List.all_eq_true.mp hall name h
  have hchar := List.all_eq_true.mp hname c hc
  simpa using hchar

namespace PackageDigest

/-- A name and a hexadecimal form are read as the digest that they stand for. -/
theorem parse_of_isHex {name hex : String} {inner : HashAlgorithm} {bytes : Bytes}
    (hname : HashAlgorithm.ofName name = some inner) (hhex : IsHex hex.toList bytes) :
    parse (name ++ ":" ++ hex) = ofAlgorithm inner bytes := by
  have hchars := chars_of_mem_digestNames (ofName_eq_some_iff.mp ⟨inner, hname⟩)
  have hcolon : ':' ∉ name.toList := fun hmem => (hchars ':' hmem).2 rfl
  have htext : (name ++ ":" ++ hex).toList = name.toList ++ ':' :: hex.toList := by
    simp [String.toList_append]
  have htrim : trim (name.toList ++ ':' :: hex.toList) = name.toList ++ ':' :: hex.toList := by
    apply trim_eq_self_of_forall
    intro c hc
    rw [List.mem_append, List.mem_cons] at hc
    obtain hc | rfl | hc := hc
    · exact (hchars c hc).1
    · decide
    · exact isWhitespace_of_isHexDigit (isHexDigit_of_isHex hhex c hc)
  have hcut := splitAtFirst_append hcolon (some hex.toList)
  rw [afterMark] at hcut
  rw [parse, htext]
  simp only [htrim, hcut, String.ofList_toList, metadata_hexDecode_of_isHex hhex]
  unfold HashAlgorithm.ofName at hname
  split at hname
  · cases hname
    rfl
  · cases hname
    rfl
  · cases hname
    rfl
  · cases hname
    rfl
  · cases hname

/-! ## Round trips -/

/-- A digest that was built of 32 bytes is read again from its text. -/
theorem parse_toStringFull (inner : HashAlgorithm) {bytes : Bytes} (hlength : bytes.length = 32) :
    ∃ d, ofAlgorithm inner bytes = .ok d ∧ parse d.toStringFull = .ok d := by
  have hhex := isHex_hexEncode bytes
  cases inner with
  | sha256 =>
      have hname : HashAlgorithm.ofName "sha256" = some .sha256 := rfl
      have hnew : sha256 bytes = .ok ⟨"sha256", bytes⟩ := by simp [sha256, hlength]
      refine ⟨_, hnew, ?_⟩
      show parse ("sha256" ++ ":" ++ hexEncode bytes) = _
      rw [parse_of_isHex hname hhex]
      exact hnew
  | blake3 =>
      have hname : HashAlgorithm.ofName "blake3" = some .blake3 := rfl
      have hnew : blake3 bytes = .ok ⟨"blake3", bytes⟩ := by simp [blake3, hlength]
      refine ⟨_, hnew, ?_⟩
      show parse ("blake3" ++ ":" ++ hexEncode bytes) = _
      rw [parse_of_isHex hname hhex]
      exact hnew

/-- The text of a digest and what `hex_serde` writes are read again. -/
theorem text_round_trips :
    (∀ bytes : Bytes, bytes.length = 32 →
        (∃ d, sha256 bytes = .ok d ∧ parse d.toStringFull = .ok d) ∧
          ∃ d, blake3 bytes = .ok d ∧ parse d.toStringFull = .ok d) ∧
      ∀ bytes : Bytes, HexSerde.deserialize (HexSerde.serialize bytes) = .ok bytes := by
  constructor
  · intro bytes hlength
    exact ⟨parse_toStringFull .sha256 hlength, parse_toStringFull .blake3 hlength⟩
  · intro bytes
    exact deserialize_of_isHex (isHex_hexEncode bytes)

theorem text_round_trips_zeros :
    ∃ d, sha256 (List.replicate 32 0) = .ok d ∧ parse d.toStringFull = .ok d :=
  (text_round_trips.1 _ List.length_replicate).1

end PackageDigest

end MissionOs.Driverd
