import MissionOs.Driverd.Report
import MissionOs.Lib.ByteDifference

/-!
# Package digests

The digest of a package (`metadata.rs`) and the hasher that a file is fed through
(`fetch.rs`).  The two hash functions are those of the crates `sha2` and `blake3`; the
service relies on nothing but that a hasher returns the hash of the bytes it was fed.
-/

namespace MissionOs.Driverd

open MissionOs.Lib MissionOs.Rust

/-- `hex_encode`: two lowercase digits a byte. -/
def hexEncode (bytes : Bytes) : String :=
  String.ofList (bytes.flatMap fun b =>
    [Nat.digitChar (b.toNat / 16), Nat.digitChar (b.toNat % 16)])

/-- A character that is no digit is not in it. -/
theorem not_mem_hexEncode {c : Char} (h : ∀ n < 16, Nat.digitChar n ≠ c) (bytes : Bytes) :
    c ∉ (hexEncode bytes).toList := by
  intro hmem
  simp only [hexEncode, String.toList_ofList, List.mem_flatMap, List.mem_cons,
    List.not_mem_nil, or_false] at hmem
  obtain ⟨b, -, hb⟩ := hmem
  have hlt := b.toNat_lt
  rcases hb with hb | hb
  · exact h _ (by omega) hb.symm
  · exact h _ (by omega) hb.symm

/-- A digest in hexadecimal can be part of a file name. -/
theorem slash_not_mem_hexEncode (bytes : Bytes) : '/' ∉ (hexEncode bytes).toList :=
  not_mem_hexEncode (by decide) bytes

/-- Nor has it an extension. -/
theorem dot_not_mem_hexEncode (bytes : Bytes) : '.' ∉ (hexEncode bytes).toList :=
  not_mem_hexEncode (by decide) bytes

theorem digitChar_inj {m n : Nat} (hm : m < 16) (hn : n < 16)
    (h : Nat.digitChar m = Nat.digitChar n) : m = n := by
  have hall : ∀ m < 16, ∀ n < 16, Nat.digitChar m = Nat.digitChar n → m = n := by decide
  exact hall m hm n hn h

/-- Different bytes have different digits. -/
theorem hexEncode_inj {as bs : Bytes} (h : hexEncode as = hexEncode bs) : as = bs := by
  have hdigits := String.ofList_injective h
  clear h
  induction as generalizing bs with
  | nil =>
      cases bs with
      | nil => rfl
      | cons b bs => simp at hdigits
  | cons a as ih =>
      cases bs with
      | nil => simp at hdigits
      | cons b bs =>
          simp only [List.flatMap_cons, List.cons_append, List.nil_append,
            List.cons.injEq] at hdigits
          obtain ⟨hhigh, hlow, hrest⟩ := hdigits
          have ha := a.toNat_lt
          have hb := b.toNat_lt
          have hquot := digitChar_inj (by omega) (by omega) hhigh
          have hrem := digitChar_inj (by omega) (by omega) hlow
          have hbyte : a.toNat = b.toNat := by omega
          rw [UInt8.toNat_inj.mp hbyte, ih hrest]

/-! ## The expected digest -/

/-- `PackageDigest`. -/
structure PackageDigest where
  algorithm : String
  value : Bytes
deriving DecidableEq, Repr

namespace PackageDigest

/-- `PackageDigest::sha256`. -/
def sha256 (bytes : Bytes) : ServiceResult PackageDigest :=
  if bytes.length ≠ 32 then
    .error (.invalidArgument ("SHA-256 digest must be 32 bytes, got " ++ toString bytes.length))
  else
    .ok ⟨"sha256", bytes⟩

/-- `PackageDigest::blake3`. -/
def blake3 (bytes : Bytes) : ServiceResult PackageDigest :=
  if bytes.length ≠ 32 then
    .error (.invalidArgument ("BLAKE3 digest must be 32 bytes, got " ++ toString bytes.length))
  else
    .ok ⟨"blake3", bytes⟩

/-- `PackageDigest::to_hex`. -/
def toHex (d : PackageDigest) : String := hexEncode d.value

/-- `PackageDigest::matches`: the bits in which the two values differ are collected over
the whole length. -/
def «matches» (d : PackageDigest) (other : Bytes) : Bool :=
  if other.length ≠ d.value.length then false
  else (d.value.zip other).foldl (fun acc ab => acc ||| (ab.1 ^^^ ab.2)) 0 == 0

/-- A digest matches the bytes of its value and no others. -/
theorem matches_iff (d : PackageDigest) (other : Bytes) :
    d.matches other = true ↔ d.value = other := by
  unfold «matches»
  split_ifs with hlen
  · simp only [false_iff]
    intro heq
    exact hlen (by rw [heq])
  · have hlen' : other.length = d.value.length := not_not.mp hlen
    rw [beq_iff_eq, foldl_xor_eq_zero_iff d.value other hlen']
    simp

end PackageDigest

/-! ## Hashing -/

/-- The hash functions of `sha2` and `blake3`, on whole messages. -/
structure HashFunctions where
  sha256 : Bytes → Bytes
  blake3 : Bytes → Bytes

/-- The algorithms of a `StreamingHasher`. -/
inductive HashAlgorithm where
  | sha256
  | blake3
deriving DecidableEq, Repr

/-- The algorithm that a name in a digest stands for. -/
def HashAlgorithm.ofName : String → Option HashAlgorithm
  | "sha256" | "SHA256" => some .sha256
  | "blake3" | "BLAKE3" => some .blake3
  | _ => none

/-- The hash of a message under an algorithm. -/
def HashFunctions.digest (hash : HashFunctions) : HashAlgorithm → Bytes → Bytes
  | .sha256 => hash.sha256
  | .blake3 => hash.blake3

/-- `StreamingHasher`, with the bytes that it was fed so far. -/
structure StreamingHasher where
  inner : HashAlgorithm
  fed : Bytes
deriving DecidableEq, Repr

namespace StreamingHasher

/-- `StreamingHasher::new`. -/
def new (algorithm : String) : ServiceResult StreamingHasher :=
  match algorithm with
  | "sha256" | "SHA256" => .ok ⟨.sha256, []⟩
  | "blake3" | "BLAKE3" => .ok ⟨.blake3, []⟩
  | other => .error (.notSupported ("unsupported hash algorithm: " ++ other))

/-- `StreamingHasher::update`. -/
def update (hasher : StreamingHasher) (data : Bytes) : StreamingHasher :=
  { hasher with fed := hasher.fed ++ data }

/-- `StreamingHasher::finalize`. -/
def finalize (hash : HashFunctions) (hasher : StreamingHasher) : Bytes :=
  hash.digest hasher.inner hasher.fed

/-- A new hasher has the algorithm of the name, and has been fed nothing. -/
theorem eq_of_new {algorithm : String} {hasher : StreamingHasher}
    (h : new algorithm = .ok hasher) :
    ∃ inner, HashAlgorithm.ofName algorithm = some inner ∧ hasher = ⟨inner, []⟩ := by
  unfold new at h
  split at h <;> simp_all [HashAlgorithm.ofName]

/-- There is no hasher for a name that stands for no algorithm. -/
theorem ofName_of_new_error {algorithm : String} {e : ServiceError}
    (h : new algorithm = .error e) : HashAlgorithm.ofName algorithm = none := by
  unfold new at h
  split at h <;> simp_all [HashAlgorithm.ofName]

/-- Feeding chunk after chunk is feeding their concatenation. -/
theorem foldl_update (hasher : StreamingHasher) (chunks : List Bytes) :
    chunks.foldl update hasher = hasher.update chunks.flatten := by
  induction chunks generalizing hasher with
  | nil => simp [update]
  | cons chunk chunks ih =>
      rw [List.foldl_cons, ih]
      simp [update]

end StreamingHasher

end MissionOs.Driverd
