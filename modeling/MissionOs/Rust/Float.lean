import MissionOs.Rust.Text

/-!
# Floating point numbers

An `f64` that is finite is the rational number that it stands for.  A literal and a sum
are rounded to the nearest `f64`, to the even one of two that are equally near.  Only the
normal range is here: no service computes with numbers below `2 ^ -1022`.
-/

namespace MissionOs.Rust

/-- The nearest whole number, the even one of two. -/
def roundHalfEven (x : Rat) : Int :=
  let below := x.floor
  let rest := x - below
  if rest < 1 / 2 then below
  else if 1 / 2 < rest then below + 1
  else if below % 2 = 0 then below
  else below + 1

namespace F64

/-- The largest power of two, by its exponent, that is at most `n / d`. -/
def exponent (n d : Nat) : Int :=
  let e : Int := n.log2 - d.log2
  if 0 ≤ e then (if d * 2 ^ e.toNat ≤ n then e else e - 1)
  else (if d ≤ n * 2 ^ (-e).toNat then e else e - 1)

/-- `x * 2 ^ k`. -/
def scale (x : Rat) (k : Int) : Rat :=
  if 0 ≤ k then x * (2 ^ k.toNat : Nat) else x / (2 ^ (-k).toNat : Nat)

/-- The `f64` next to a rational number: 53 significant bits. -/
def nearest (x : Rat) : Rat :=
  if x = 0 then 0
  else
    let ulp := exponent x.num.natAbs x.den - 52
    scale (roundHalfEven (scale x (-ulp))) ulp

/-- `x + y`. -/
def add (x y : Rat) : Rat := nearest (x + y)

/-- The `{:.2}` form of a number that is not negative. -/
def format2 (x : Rat) : String :=
  let hundredths := (roundHalfEven (x * 100)).toNat
  toString (hundredths / 100) ++ "." ++ toString (hundredths % 100 / 10) ++
    toString (hundredths % 10)

example : add (nearest (1 / 10)) (nearest (2 / 10)) ≠ nearest (3 / 10) := by decide +kernel

end F64

end MissionOs.Rust
