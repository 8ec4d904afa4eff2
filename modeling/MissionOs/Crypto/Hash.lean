import MissionOs.Rust.Text

/-!
# Hashes

`hash.rs` of the cryptographic library: `hash`, which hashes a message at once, and `Hasher`,
which is fed with it piece by piece.  Both call the hashers of `sha2` and `blake3`, and rely
on nothing but that the pieces do not matter: a hasher returns the digest of all that it was
fed.

The BLAKE3 hasher is asked for its digest of 32 bytes, of which the first `output_len` are
taken; that it could extend it to any length (`finalize_xof`) is not made use of.  A longer hash
is not among the 32: the slice panics, in `hash` and in `Hasher::finalize`, although
`output_size` promises any length.  `hashesAlike_iff` says that all is well below.
-/

namespace MissionOs.Crypto

open MissionOs.Rust

/-! ## The hashers of the crates -/

/-- An incremental hasher with a digest of `size` bytes. -/
structure Digester (size : Nat) where
  State : Type
  new : State
  update : State → Bytes → State
  finalize : State → Vector UInt8 size
  digest : Bytes → Vector UInt8 size
  finalize_foldl_update : ∀ chunks : List Bytes,
    finalize (chunks.foldl update new) = digest chunks.flatten

/-- Every function is the digest of some hasher: one that keeps what it is fed. -/
def Digester.ofFunction {size : Nat} (digest : Bytes → Vector UInt8 size) : Digester size where
  State := Bytes
  new := []
  update fed data := fed ++ data
  finalize := digest
  digest := digest
  finalize_foldl_update chunks := by
    have hfed (fed : Bytes) : chunks.foldl (fun fed data => fed ++ data) fed =
        fed ++ chunks.flatten := by
      induction chunks generalizing fed with
      | nil => simp
      | cons chunk chunks ih => simp [ih]
    rw [hfed, List.nil_append]

/-- A message fed as a whole. -/
theorem Digester.finalize_update {size : Nat} (d : Digester size) (data : Bytes) :
    d.finalize (d.update d.new data) = d.digest data := by
  simpa using d.finalize_foldl_update [data]

/-- `sha2::Sha256`, `sha2::Sha512` and `blake3::Hasher`. -/
structure Crates where
  sha256 : Digester 32
  sha512 : Digester 64
  blake3 : Digester 32

/-! ## Hash values -/

/-- `HashAlgorithm`. -/
inductive HashAlgorithm where
  | sha256
  | sha512
  | blake3 (outputLen : Nat)
deriving DecidableEq, Repr

/-- `HashAlgorithm::output_size`. -/
def HashAlgorithm.outputSize : HashAlgorithm → Nat
  | .sha256 => 32
  | .sha512 => 64
  | .blake3 outputLen => outputLen

/-- `Hash`. -/
structure Hash where
  algorithm : HashAlgorithm
  bytes : Bytes
deriving DecidableEq, Repr

/-- `Hash::new`; `none` where it panics, which only a debug build does. -/
def Hash.new (debug : Bool) (algorithm : HashAlgorithm) (bytes : Bytes) : Option Hash :=
  if debug ∧ bytes.length ≠ algorithm.outputSize then none
  else some ⟨algorithm, bytes⟩

/-- Bytes of the right number are no reason to panic. -/
theorem Hash.new_of_length {debug : Bool} {algorithm : HashAlgorithm} {bytes : Bytes}
    (h : bytes.length = algorithm.outputSize) :
    Hash.new debug algorithm bytes = some ⟨algorithm, bytes⟩ := by
  simp [Hash.new, h]

/-- `bytes[..n]`; `none` where it panics. -/
def sliceTo (bytes : Bytes) (n : Nat) : Option Bytes :=
  if n ≤ bytes.length then some (bytes.take n) else none

theorem length_of_sliceTo {bytes slice : Bytes} {n : Nat} (h : sliceTo bytes n = some slice) :
    slice.length = n := by
  unfold sliceTo at h
  split_ifs at h with hn
  cases h
  rw [List.length_take]
  omega

theorem sliceTo_isSome {bytes : Bytes} {n : Nat} :
    (sliceTo bytes n).isSome = true ↔ n ≤ bytes.length := by
  unfold sliceTo
  split_ifs with hn <;> simp [hn]

/-! ## The functions -/

/-- `CryptoError`, as far as it is returned here. -/
inductive HashError where
  | unsupportedAlgorithm
deriving DecidableEq, Repr

variable (crates : Crates) (debug : Bool)

/-- `hash`; `none` where it panics. -/
def hash (algorithm : HashAlgorithm) (data : Bytes) : Option (Except HashError Hash) := do
  let bytes ←
    match algorithm with
    | .sha256 =>
        let hasher := crates.sha256.new
        let hasher := crates.sha256.update hasher data
        some (crates.sha256.finalize hasher).toList
    | .sha512 =>
        let hasher := crates.sha512.new
        let hasher := crates.sha512.update hasher data
        some (crates.sha512.finalize hasher).toList
    | .blake3 outputLen =>
        let hasher := crates.blake3.new
        let hasher := crates.blake3.update hasher data
        let result := crates.blake3.finalize hasher
        sliceTo result.toList outputLen
  let hash ← Hash.new debug algorithm bytes
  return .ok hash

/-- `HasherState`. -/
inductive HasherState where
  | sha256 (h : crates.sha256.State)
  | sha512 (h : crates.sha512.State)
  | blake3 (hasher : crates.blake3.State) (outputLen : Nat)

/-- `Hasher`. -/
structure Hasher where
  algorithm : HashAlgorithm
  state : HasherState crates

namespace Hasher

/-- `Hasher::new`. -/
def new (algorithm : HashAlgorithm) : Hasher crates where
  algorithm := algorithm
  state :=
    match algorithm with
    | .sha256 => .sha256 crates.sha256.new
    | .sha512 => .sha512 crates.sha512.new
    | .blake3 outputLen => .blake3 crates.blake3.new outputLen

variable {crates}

/-- `Hasher::update`. -/
def update (hasher : Hasher crates) (data : Bytes) : Hasher crates where
  algorithm := hasher.algorithm
  state :=
    match hasher.state with
    | .sha256 h => .sha256 (crates.sha256.update h data)
    | .sha512 h => .sha512 (crates.sha512.update h data)
    | .blake3 h outputLen => .blake3 (crates.blake3.update h data) outputLen

/-- `Hasher::finalize`; `none` where it panics. -/
def finalize (hasher : Hasher crates) : Option Hash := do
  let bytes ←
    match hasher.state with
    | .sha256 h => some (crates.sha256.finalize h).toList
    | .sha512 h => some (crates.sha512.finalize h).toList
    | .blake3 h outputLen =>
        let result := crates.blake3.finalize h
        sliceTo result.toList outputLen
  Hash.new debug hasher.algorithm bytes

end Hasher

/-! ## The same bytes in one piece and in many -/

/-- The bytes that an algorithm makes of a message, if it can be had from its hasher. -/
def Crates.digestBytes (algorithm : HashAlgorithm) (data : Bytes) : Option Bytes :=
  match algorithm with
  | .sha256 => some (crates.sha256.digest data).toList
  | .sha512 => some (crates.sha512.digest data).toList
  | .blake3 outputLen => sliceTo (crates.blake3.digest data).toList outputLen

/-- They are as many as the algorithm says. -/
theorem Crates.length_of_digestBytes {algorithm : HashAlgorithm} {data bytes : Bytes}
    (h : crates.digestBytes algorithm data = some bytes) :
    bytes.length = algorithm.outputSize := by
  cases algorithm with
  | sha256 =>
      cases h
      exact Vector.length_toList
  | sha512 =>
      cases h
      exact Vector.length_toList
  | blake3 outputLen => exact length_of_sliceTo h

/-- All but the long BLAKE3 hashes can be had. -/
theorem Crates.digestBytes_isSome (algorithm : HashAlgorithm) (data : Bytes) :
    (crates.digestBytes algorithm data).isSome = true ↔
      ∀ outputLen, algorithm = .blake3 outputLen → outputLen ≤ 32 := by
  cases algorithm with
  | sha256 => simp [digestBytes]
  | sha512 => simp [digestBytes]
  | blake3 outputLen => simp [digestBytes, sliceTo_isSome]

/-- What both functions do with the bytes: nothing can go wrong any more. -/
theorem Crates.bind_new (algorithm : HashAlgorithm) (data : Bytes) :
    (crates.digestBytes algorithm data).bind (Hash.new debug algorithm) =
      (crates.digestBytes algorithm data).map fun bytes => ⟨algorithm, bytes⟩ := by
  cases hbytes : crates.digestBytes algorithm data with
  | none => rfl
  | some bytes =>
      show Hash.new debug algorithm bytes = some ⟨algorithm, bytes⟩
      exact Hash.new_of_length (crates.length_of_digestBytes hbytes)

/-- `hash` is the digest of the message, or panics. -/
theorem hash_eq (algorithm : HashAlgorithm) (data : Bytes) :
    hash crates debug algorithm data =
      (crates.digestBytes algorithm data).map fun bytes => .ok ⟨algorithm, bytes⟩ := by
  have hhash : hash crates debug algorithm data =
      ((crates.digestBytes algorithm data).bind (Hash.new debug algorithm)).bind
        fun hash => some (.ok hash) := by
    rw [Option.bind_assoc]
    cases algorithm <;> simp only [hash, Digester.finalize_update, Crates.digestBytes] <;> rfl
  rw [hhash, Crates.bind_new]
  cases crates.digestBytes algorithm data <;> rfl

namespace Hasher

variable {crates}

/-- A hasher that was fed with a message in pieces ends with its digest, or panics. -/
theorem finalize_foldl_update (algorithm : HashAlgorithm) (chunks : List Bytes) :
    (chunks.foldl update (new crates algorithm)).finalize debug =
      (crates.digestBytes algorithm chunks.flatten).map fun bytes => ⟨algorithm, bytes⟩ := by
  rw [← Crates.bind_new crates debug]
  -- an update of the hasher is one of the state inside it
  cases algorithm with
  | sha256 =>
      have hrun : chunks.foldl update (mk .sha256 (.sha256 crates.sha256.new)) =
          mk .sha256 (.sha256 (chunks.foldl crates.sha256.update crates.sha256.new)) :=
        List.foldl_hom (fun h => mk .sha256 (.sha256 h)) fun _ _ => rfl
      rw [new, hrun]
      simp only [finalize, Digester.finalize_foldl_update]
      rfl
  | sha512 =>
      have hrun : chunks.foldl update (mk .sha512 (.sha512 crates.sha512.new)) =
          mk .sha512 (.sha512 (chunks.foldl crates.sha512.update crates.sha512.new)) :=
        List.foldl_hom (fun h => mk .sha512 (.sha512 h)) fun _ _ => rfl
      rw [new, hrun]
      simp only [finalize, Digester.finalize_foldl_update]
      rfl
  | blake3 n =>
      have hrun : chunks.foldl update (mk (.blake3 n) (.blake3 crates.blake3.new n)) =
          mk (.blake3 n) (.blake3 (chunks.foldl crates.blake3.update crates.blake3.new) n) :=
        List.foldl_hom (fun h => mk (.blake3 n) (.blake3 h n)) fun _ _ => rfl
      rw [new, hrun]
      simp only [finalize, Digester.finalize_foldl_update]
      rfl

end Hasher

/-- `hash` and a `Hasher` that is fed with the pieces of a message both return, and return
the same bytes, as many as `output_size` says. -/
def HashesAlike (algorithm : HashAlgorithm) (chunks : List Bytes) : Prop :=
  ∃ h : Hash, hash crates debug algorithm chunks.flatten = some (.ok h) ∧
    (chunks.foldl Hasher.update (Hasher.new crates algorithm)).finalize debug = some h ∧
    h.bytes.length = algorithm.outputSize

/-- This holds of every message, however it is cut, up to the length of a BLAKE3 digest. -/
theorem hashesAlike_iff (algorithm : HashAlgorithm) (chunks : List Bytes) :
    HashesAlike crates debug algorithm chunks ↔
      ∀ outputLen, algorithm = .blake3 outputLen → outputLen ≤ 32 := by
  rw [← crates.digestBytes_isSome algorithm chunks.flatten]
  unfold HashesAlike
  rw [hash_eq, Hasher.finalize_foldl_update]
  cases hbytes : crates.digestBytes algorithm chunks.flatten with
  | none => simp
  | some bytes =>
      have hlen := crates.length_of_digestBytes hbytes
      simp only [Option.map_some, Option.isSome_some, iff_true]
      exact ⟨⟨algorithm, bytes⟩, rfl, rfl, hlen⟩

/-! ### A BLAKE3 hash of 64 bytes -/

/-- The digests of the three bytes `abc`; those of other messages do not matter here. -/
def abcCrates : Crates where
  sha256 := .ofFunction fun m =>
    if m = [97, 98, 99] then
      #v[0xba, 0x78, 0x16, 0xbf, 0x8f, 0x01, 0xcf, 0xea, 0x41, 0x41, 0x40, 0xde, 0x5d, 0xae,
        0x22, 0x23, 0xb0, 0x03, 0x61, 0xa3, 0x96, 0x17, 0x7a, 0x9c, 0xb4, 0x10, 0xff, 0x61,
        0xf2, 0x00, 0x15, 0xad]
    else Vector.replicate 32 0
  sha512 := .ofFunction fun m =>
    if m = [97, 98, 99] then
      #v[0xdd, 0xaf, 0x35, 0xa1, 0x93, 0x61, 0x7a, 0xba, 0xcc, 0x41, 0x73, 0x49, 0xae, 0x20,
        0x41, 0x31, 0x12, 0xe6, 0xfa, 0x4e, 0x89, 0xa9, 0x7e, 0xa2, 0x0a, 0x9e, 0xee, 0xe6,
        0x4b, 0x55, 0xd3, 0x9a, 0x21, 0x92, 0x99, 0x2a, 0x27, 0x4f, 0xc1, 0xa8, 0x36, 0xba,
        0x3c, 0x23, 0xa3, 0xfe, 0xeb, 0xbd, 0x45, 0x4d, 0x44, 0x23, 0x64, 0x3c, 0xe8, 0x0e,
        0x2a, 0x9a, 0xc9, 0x4f, 0xa5, 0x4c, 0xa4, 0x9f]
    else Vector.replicate 64 0
  blake3 := .ofFunction fun m =>
    if m = [97, 98, 99] then
      #v[0x64, 0x37, 0xb3, 0xac, 0x38, 0x46, 0x51, 0x33, 0xff, 0xb6, 0x3b, 0x75, 0x27, 0x3a,
        0x8d, 0xb5, 0x48, 0xc5, 0x58, 0x46, 0x5d, 0x79, 0xdb, 0x03, 0xfd, 0x35, 0x9c, 0x6c,
        0xd5, 0xbd, 0x9d, 0x85]
    else Vector.replicate 32 0

/-- Both functions panic when they are asked for 64 bytes of BLAKE3, a size that
`output_size` reports as it stands. -/
theorem abc_blake3_64_panics :
    (HashAlgorithm.blake3 64).outputSize = 64 ∧
      hash abcCrates false (.blake3 64) [97, 98, 99] = none ∧
      ¬ HashesAlike abcCrates false (.blake3 64) [[97, 98, 99]] := by
  have hnone : hash abcCrates false (.blake3 64) [97, 98, 99] = none := by
    rw [hash_eq, Option.map_eq_none_iff]
    show sliceTo (abcCrates.blake3.digest [97, 98, 99]).toList 64 = none
    simp [sliceTo]
  constructor
  · rfl
  · constructor
    · exact hnone
    · rintro ⟨h, hhash, -⟩
      have hcontra : none = some (Except.ok h) := hnone.symm.trans hhash
      cases hcontra

end MissionOs.Crypto
