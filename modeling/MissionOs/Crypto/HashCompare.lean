import MissionOs.Crypto.Hash
import MissionOs.Driverd.Digest
import MissionOs.Lib.ByteDifference

/-!
# Comparing hashes

`verify` of the cryptographic library, and the comparison under it.  The driver service has a
comparison of its own, `PackageDigest::matches`.  Neither stops at the first byte that
differs; both are equality, on strings of any lengths.
-/

namespace MissionOs.Crypto

open MissionOs.Lib MissionOs.Rust

/-- `constant_time_eq`: the bits in which the two differ are collected over the whole
length. -/
def constantTimeEq (a b : Bytes) : Bool :=
  if a.length ≠ b.length then false
  else (a.zip b).foldl (fun result xy => result ||| (xy.1 ^^^ xy.2)) 0 == 0

/-- `verify`; `none` where it panics. -/
def verify (crates : Crates) (debug : Bool) (algorithm : HashAlgorithm) (data : Bytes)
    (expected : Hash) : Option (Except HashError Bool) :=
  if algorithm ≠ expected.algorithm then some (.error .unsupportedAlgorithm)
  else do
    match ← hash crates debug algorithm data with
    | .error e => return .error e
    | .ok computed => return .ok (constantTimeEq computed.bytes expected.bytes)

/-- The pairs that `zip` drops are none: the lengths were compared before. -/
theorem constantTimeEq_iff (a b : Bytes) : constantTimeEq a b = true ↔ a = b := by
  unfold constantTimeEq
  by_cases hlen : a.length = b.length
  · rw [if_neg (not_not.mpr hlen), beq_iff_eq, foldl_xor_eq_zero_iff a b hlen.symm]
    simp
  · rw [if_pos hlen]
    constructor
    · intro h
      cases h
    · intro heq
      exact absurd (congrArg List.length heq) hlen

/-- A hash is verified if it is the digest of the data under its own algorithm, and under
no other condition. -/
theorem verify_eq_true_iff (crates : Crates) (debug : Bool) (algorithm : HashAlgorithm)
    (data : Bytes) (expected : Hash) :
    verify crates debug algorithm data expected = some (.ok true) ↔
      expected.algorithm = algorithm ∧
        crates.digestBytes algorithm data = some expected.bytes := by
  unfold verify
  by_cases halg : algorithm = expected.algorithm
  · rw [if_neg (not_not.mpr halg), hash_eq]
    cases hbytes : crates.digestBytes algorithm data with
    | none => simp
    | some bytes =>
        show some (Except.ok (constantTimeEq bytes expected.bytes)) = some (.ok true) ↔ _
        rw [Option.some.injEq, Except.ok.injEq, constantTimeEq_iff, Option.some.injEq]
        constructor
        · intro heq
          exact ⟨halg.symm, heq⟩
        · intro h
          exact h.2
  · rw [if_pos halg]
    constructor
    · intro h
      cases h
    · intro h
      exact absurd h.1.symm halg

/-- Both comparisons are equality. -/
theorem comparisons_exact (a b : Bytes) :
    (∀ algorithm : String, Driverd.PackageDigest.matches ⟨algorithm, a⟩ b = true ↔ a = b) ∧
      (constantTimeEq a b = true ↔ a = b) := by
  constructor
  · intro algorithm
    exact Driverd.PackageDigest.matches_iff ⟨algorithm, a⟩ b
  · exact constantTimeEq_iff a b

end MissionOs.Crypto
