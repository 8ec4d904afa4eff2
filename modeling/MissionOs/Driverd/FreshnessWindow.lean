import MissionOs.Driverd.ManifestBinding
import MissionOs.Driverd.ManifestChecks

/-!
# The clocks for which a manifest is fresh

`check_freshness` is meant to accept the clocks in a window: not before the manifest was issued
and not after it has expired, up to the tolerance, and not later than the maximum age allows.
It subtracts with saturation but adds the tolerance to the clock with plain `+`, and
`FreshnessPolicy::validate` does not bound the tolerance.  So the clocks at which that sum wraps
around are in the window and rejected.
-/

namespace MissionOs.Driverd

open MissionOs.Rust

namespace FreshnessPolicy

/-- `MIN_FRESHNESS_SECS`. -/
def minFreshnessSecs : UInt64 := 3600

/-- `MAX_FRESHNESS_SECS`. -/
def maxFreshnessSecs : UInt64 := 604800

/-- `FreshnessPolicy::validate`. -/
def validate (policy : FreshnessPolicy) : ServiceResult Unit :=
  if policy.maxAgeSecs < minFreshnessSecs then
    .error (.invalidArgument ("max_age_secs " ++ toString policy.maxAgeSecs ++
      " is below minimum " ++ toString minFreshnessSecs))
  else if maxFreshnessSecs < policy.maxAgeSecs then
    .error (.invalidArgument ("max_age_secs " ++ toString policy.maxAgeSecs ++
      " exceeds maximum " ++ toString maxFreshnessSecs))
  else .ok ()

/-- The defaults are valid. -/
theorem validate_default : default.validate = .ok () := by decide

end FreshnessPolicy

theorem toNat_saturatingSub (a b : UInt64) : (saturatingSub a b).toNat = a.toNat - b.toNat := by
  rw [saturatingSub]
  split
  · rename_i hle
    exact UInt64.toNat_sub_of_le a b hle
  · rename_i hlt
    have h : a.toNat < b.toNat := by
      rw [UInt64.le_iff_toNat_le] at hlt
      omega
    show 0 = a.toNat - b.toNat
    omega

namespace RepositoryManifest

variable (manifest : RepositoryManifest) (policy : FreshnessPolicy) (now : UInt64)

/-- The clock is in the window, by integers without bounds. -/
def InWindow : Prop :=
  (manifest.issuedAt.toNat : Int) ≤ now.toNat + policy.clockSkewSecs.toNat ∧
    (now.toNat : Int) ≤ manifest.expiresAt.toNat + policy.clockSkewSecs.toNat ∧
    (now.toNat : Int) - manifest.issuedAt.toNat ≤ policy.maxAgeSecs.toNat

/-- The manifest is fresh at the clocks in the window and at no others, so that they form an
interval. -/
def ExactWindow : Prop :=
  (∀ now, manifest.checkFreshness policy now = .ok () ↔ manifest.InWindow policy now) ∧
    ∀ before now after, before ≤ now → now ≤ after →
      manifest.checkFreshness policy before = .ok () →
      manifest.checkFreshness policy after = .ok () →
      manifest.checkFreshness policy now = .ok ()

/-- At this clock the sum of clock and tolerance is no number of 64 bits, and what it wraps
around to is before the time of issue; but the manifest has not expired, nor is it too old. -/
def WrapsInWindow : Prop :=
  2 ^ 64 ≤ now.toNat + policy.clockSkewSecs.toNat ∧
    now.toNat + policy.clockSkewSecs.toNat < manifest.issuedAt.toNat + 2 ^ 64 ∧
    now.toNat ≤ manifest.expiresAt.toNat + policy.clockSkewSecs.toNat ∧
    now.toNat ≤ manifest.issuedAt.toNat + policy.maxAgeSecs.toNat

section Window

variable {manifest policy now}

/-- What the check compares. -/
theorem checkFreshness_eq_ok_iff :
    manifest.checkFreshness policy now = .ok () ↔
      manifest.issuedAt.toNat ≤ (now.toNat + policy.clockSkewSecs.toNat) % 2 ^ 64 ∧
        now.toNat ≤ manifest.expiresAt.toNat + policy.clockSkewSecs.toNat ∧
        now.toNat ≤ manifest.issuedAt.toNat + policy.maxAgeSecs.toNat := by
  simp only [checkFreshness, bind_unit_eq_ok_iff, refuseIf_eq_ok_iff, decide_eq_false_iff_not,
    UInt64.lt_iff_toNat_lt, UInt64.toNat_add, toNat_saturatingSub]
  omega

/-- The check is right at a clock exactly if the sum does not wrap around there. -/
theorem checkFreshness_iff_inWindow :
    (manifest.checkFreshness policy now = .ok () ↔ manifest.InWindow policy now) ↔
      ¬manifest.WrapsInWindow policy now := by
  rw [checkFreshness_eq_ok_iff, InWindow, WrapsInWindow]
  have hnow := now.toNat_lt
  have hskew := policy.clockSkewSecs.toNat_lt
  have hissued := manifest.issuedAt.toNat_lt
  by_cases hwrap : now.toNat + policy.clockSkewSecs.toNat < 2 ^ 64
  · rw [Nat.mod_eq_of_lt hwrap]
    omega
  · have hsum : (now.toNat + policy.clockSkewSecs.toNat) % 2 ^ 64 =
        now.toNat + policy.clockSkewSecs.toNat - 2 ^ 64 := by
      rw [Nat.mod_eq_sub_mod (by omega), Nat.mod_eq_of_lt (by omega)]
    rw [hsum]
    omega

/-- The first clock at which the sum wraps around decides. -/
theorem exists_wrapsInWindow_iff : (∃ now, manifest.WrapsInWindow policy now) ↔
    manifest.issuedAt ≠ 0 ∧
      2 ^ 64 ≤ manifest.expiresAt.toNat + 2 * policy.clockSkewSecs.toNat ∧
      2 ^ 64 ≤ manifest.issuedAt.toNat + policy.maxAgeSecs.toNat +
        policy.clockSkewSecs.toNat := by
  have hskew := policy.clockSkewSecs.toNat_lt
  have hexpires := manifest.expiresAt.toNat_lt
  have hzero : manifest.issuedAt ≠ 0 ↔ manifest.issuedAt.toNat ≠ 0 := by
    rw [ne_eq, ← UInt64.toNat_inj]
    rfl
  rw [hzero]
  constructor
  · intro h
    obtain ⟨now, hsum, hissued, hexpired, hage⟩ := h
    omega
  · intro h
    obtain ⟨hissued, hexpired, hage⟩ := h
    have hlt : 2 ^ 64 - policy.clockSkewSecs.toNat < 2 ^ 64 := by omega
    have hfirst : (UInt64.ofNat (2 ^ 64 - policy.clockSkewSecs.toNat)).toNat =
        2 ^ 64 - policy.clockSkewSecs.toNat := UInt64.toNat_ofNat_of_lt' hlt
    refine ⟨.ofNat (2 ^ 64 - policy.clockSkewSecs.toNat), ?_⟩
    rw [WrapsInWindow, hfirst]
    omega

end Window

/-- The check is right at a clock exactly if clock and tolerance do not wrap around in the
window, and it is right at all clocks exactly if the window ends before they could. -/
theorem exactWindow_iff :
    (∀ now, (manifest.checkFreshness policy now = .ok () ↔ manifest.InWindow policy now) ↔
        ¬manifest.WrapsInWindow policy now) ∧
      (manifest.ExactWindow policy ↔ manifest.issuedAt = 0 ∨
        manifest.expiresAt.toNat + 2 * policy.clockSkewSecs.toNat < 2 ^ 64 ∨
        manifest.issuedAt.toNat + policy.maxAgeSecs.toNat + policy.clockSkewSecs.toNat <
          2 ^ 64) := by
  refine ⟨fun now => checkFreshness_iff_inWindow, ?_⟩
  have hnever : (∀ now, ¬manifest.WrapsInWindow policy now) ↔ manifest.issuedAt = 0 ∨
      manifest.expiresAt.toNat + 2 * policy.clockSkewSecs.toNat < 2 ^ 64 ∨
      manifest.issuedAt.toNat + policy.maxAgeSecs.toNat + policy.clockSkewSecs.toNat <
        2 ^ 64 := by
    rw [← not_exists, exists_wrapsInWindow_iff]
    simp only [not_and_or, not_not, not_le]
  rw [← hnever]
  constructor
  · intro h now
    exact checkFreshness_iff_inWindow.mp (h.1 now)
  · intro h
    have hexact : ∀ now, manifest.checkFreshness policy now = .ok () ↔
        manifest.InWindow policy now := fun now => checkFreshness_iff_inWindow.mpr (h now)
    refine ⟨hexact, ?_⟩
    intro before now after hbefore hafter hfirst hlast
    rw [hexact] at hfirst hlast ⊢
    rw [UInt64.le_iff_toNat_le] at hbefore hafter
    simp only [InWindow] at hfirst hlast ⊢
    omega

/-- With the largest tolerance a manifest is rejected in its window. -/
theorem largest_tolerance_rejects :
    ¬ ∀ (manifest : RepositoryManifest) (policy : FreshnessPolicy), policy.validate = .ok () →
      manifest.ExactWindow policy := by
  intro h
  have hexact := (h (officialManifest 1000 2000) ⟨.ofNat (2 ^ 64 - 1), 86400⟩ (by decide)).1 1
  have hrejected : (officialManifest 1000 2000).checkFreshness ⟨.ofNat (2 ^ 64 - 1), 86400⟩ 1 ≠
      .ok () := by decide
  apply hrejected
  rw [hexact, InWindow]
  decide

end RepositoryManifest

end MissionOs.Driverd
