import Mathlib.Algebra.Order.Floor.Ring
import Mathlib.Data.Rat.Floor
import MissionOs.Rust.Float

/-!
# Durations

`std::time::Duration`, and the conversions between it and `f64`.  Here an `f64` may also be
infinite or no number.  `fromSecsF64_eq_none_iff` says which numbers are no durations, and
`eq_none_iff_of_min` what follows for a number that was bounded by a duration before.
-/

namespace MissionOs.Rust

/-- An `f64`: a number, an infinity, or no number.  The two zeros are one. -/
inductive F64 where
  | number (x : Rat)
  | infinity (negative : Bool)
  | nan
deriving DecidableEq, Repr

namespace F64

/-- The `f64` for a result of exact arithmetic. -/
def ofRat (x : Rat) : F64 :=
  if 2 ^ 1024 ≤ (nearest x).abs then .infinity (x < 0) else .number (nearest x)

/-- `x < 0`. -/
def isNegative : F64 → Bool
  | .number x => x < 0
  | .infinity negative => negative
  | .nan => false

/-- `x < y`, for a number `y`. -/
def below : F64 → Rat → Bool
  | .number x, y => x < y
  | .infinity negative, _ => negative
  | .nan, _ => false

/-- `x * y`. -/
def mul : F64 → F64 → F64
  | .nan, _ => .nan
  | _, .nan => .nan
  | .number x, .number y => ofRat (x * y)
  | .infinity negative, y =>
    if y = .number 0 then .nan else .infinity (negative != y.isNegative)
  | x, .infinity negative =>
    if x = .number 0 then .nan else .infinity (negative != x.isNegative)

/-- `x.min(y)`, for a number `y`: what is no number does not count. -/
def minWith (x : F64) (y : Rat) : F64 :=
  if x.below y then x else .number y

end F64

/-- `Duration`. -/
structure Duration where
  secs : UInt64
  nanos : Nat
  nanos_lt : nanos < 1000000000
deriving DecidableEq, Repr

namespace Duration

/-- `Duration::from_secs`. -/
def fromSecs (secs : UInt64) : Duration := ⟨secs, 0, by decide⟩

/-- `Duration::MAX`. -/
def max : Duration := ⟨18446744073709551615, 999999999, by decide⟩

/-- `Duration::as_secs_f64`. -/
def asSecsF64 (d : Duration) : Rat :=
  F64.add (F64.nearest d.secs.toNat) (F64.nearest (d.nanos / 1000000000))

/-- `Duration::from_secs_f64`; `none` is a panic. -/
def fromSecsF64 : F64 → Option Duration
  | .number x =>
    if x < 0 ∨ 2 ^ 64 ≤ x then none
    else
      let nanos := (roundHalfEven (x * 1000000000)).toNat
      some ⟨UInt64.ofNat (nanos / 1000000000), nanos % 1000000000, Nat.mod_lt _ (by decide)⟩
  | _ => none

theorem fromSecsF64_eq_none_iff {x : F64} :
    fromSecsF64 x = none ↔ x.isNegative = true ∨ x.below (2 ^ 64) = false := by
  cases x with
  | number x =>
      unfold fromSecsF64
      simp only [F64.isNegative, F64.below, decide_eq_true_eq, decide_eq_false_iff_not, not_lt]
      split_ifs with h
      · exact iff_of_true rfl h
      · exact iff_of_false not_false h
  | infinity negative =>
      refine iff_of_true rfl ?_
      cases negative
      · exact Or.inr rfl
      · exact Or.inl rfl
  | nan => exact iff_of_true rfl (Or.inr rfl)

/-! ## Bounded numbers -/

theorem roundHalfEven_nonneg {x : Rat} (hx : 0 ≤ x) : 0 ≤ roundHalfEven x := by
  have hfloor : 0 ≤ x.floor := Rat.le_floor_iff.mpr (by simpa using hx)
  unfold roundHalfEven
  dsimp only
  split_ifs <;> omega

theorem scale_nonneg {x : Rat} (hx : 0 ≤ x) (k : Int) : 0 ≤ F64.scale x k := by
  unfold F64.scale
  split_ifs <;> positivity

theorem nearest_nonneg {x : Rat} (hx : 0 ≤ x) : 0 ≤ F64.nearest x := by
  unfold F64.nearest
  split_ifs with hzero
  · exact le_refl 0
  · exact scale_nonneg (Int.cast_nonneg (roundHalfEven_nonneg (scale_nonneg hx _))) _

theorem asSecsF64_nonneg (d : Duration) : 0 ≤ d.asSecsF64 := by
  refine nearest_nonneg (add_nonneg (nearest_nonneg ?_) (nearest_nonneg ?_))
  · exact Nat.cast_nonneg _
  · positivity

/-- A number that was bounded by a duration is none only if it is negative, or both were too
large. -/
theorem fromSecsF64_minWith_eq_none_iff (x : F64) (d : Duration) :
    fromSecsF64 (x.minWith d.asSecsF64) = none ↔
      x.isNegative = true ∨ x.below (2 ^ 64) = false ∧ 2 ^ 64 ≤ d.asSecsF64 := by
  have hd := asSecsF64_nonneg d
  generalize d.asSecsF64 = y at hd
  rw [fromSecsF64_eq_none_iff]
  cases x with
  | number x =>
      by_cases hxy : x < y
      · have hmin : (F64.number x).minWith y = .number x := by
          simp [F64.minWith, F64.below, hxy]
        rw [hmin]
        refine or_congr_right (iff_self_and.mpr fun hlarge => ?_)
        have hx : 2 ^ 64 ≤ x := by simpa [F64.below] using hlarge
        exact hx.trans hxy.le
      · have hmin : (F64.number x).minWith y = .number y := by
          simp [F64.minWith, F64.below, hxy]
        rw [hmin]
        have hyx := not_lt.mp hxy
        have hx : ¬ x < 0 := not_lt.mpr (hd.trans hyx)
        have hy : ¬ y < 0 := not_lt.mpr hd
        simp only [F64.isNegative, F64.below, hx, hy, decide_false, Bool.false_eq_true,
          false_or, decide_eq_false_iff_not, not_lt]
        exact ⟨fun hlarge => ⟨hlarge.trans hyx, hlarge⟩, fun hlarge => hlarge.2⟩
  | infinity negative =>
      cases negative with
      | true => exact iff_of_true (Or.inl rfl) (Or.inl rfl)
      | false =>
          have hmin : (F64.infinity false).minWith y = .number y := rfl
          rw [hmin]
          simp [F64.isNegative, F64.below, not_lt.mpr hd]
  | nan =>
      have hmin : F64.nan.minWith y = .number y := rfl
      rw [hmin]
      simp [F64.isNegative, F64.below, not_lt.mpr hd]

end Duration

end MissionOs.Rust
