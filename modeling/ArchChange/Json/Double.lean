/-!
Finite binary64 numbers as exact fractions: a sign, and a magnitude `significand * 2 ^ exponent`.
All arithmetic is on natural numbers, and each operation rounds its exact result to the nearest
magnitude, a tie to the even significand.
-/
namespace ArchChange

/-- A magnitude `significand * 2 ^ exponent`. The ones that `round?` yields have a significand
below `2 ^ 53`, an exponent from -1074 to 971, and the least exponent that allows this. -/
structure Magnitude where
  significand : Nat
  exponent : Int
deriving DecidableEq, Repr

/-- A finite double. Zero has a sign too. -/
structure Double where
  negative : Bool
  magnitude : Magnitude
deriving DecidableEq, Repr

namespace Magnitude

/-- The magnitude as a quotient of natural numbers. -/
def ratio (v : Magnitude) : Nat × Nat :=
  if 0 ≤ v.exponent then (v.significand * Nat.pow 2 v.exponent.toNat, 1)
  else (v.significand, Nat.pow 2 (-v.exponent).toNat)

/-- The quotient `num / den` rounded to an integer, a tie to the even one. -/
def roundDiv (num den : Nat) : Nat :=
  let q := num / den
  let twice := 2 * (num % den)
  if twice < den then q
  else if den < twice then q + 1
  else if q % 2 = 0 then q else q + 1

/-- `num / den` counted in units of `2 ^ e`, as a quotient. -/
def inUnits (num den : Nat) (e : Int) : Nat × Nat :=
  if 0 ≤ e then (num, den * Nat.pow 2 e.toNat) else (num * Nat.pow 2 (-e).toNat, den)

/-- The exponent of the magnitude nearest to `num / den`, before rounding carries. -/
def exponentOf (num den : Nat) : Int :=
  let e := max (-1074) ((num.log2 : Int) - (den.log2 : Int) - 53)
  let (n, d) := inUnits num den e
  if n / d < Nat.pow 2 53 then e else e + 1

/-- The magnitude nearest to `num / den`; `none` if that is above all of them. -/
def round? (num den : Nat) : Option Magnitude :=
  let e := exponentOf num den
  let (n, d) := inUnits num den e
  let q := roundDiv n d
  let v : Magnitude := if q = Nat.pow 2 53 then ⟨Nat.pow 2 52, e + 1⟩ else ⟨q, e⟩
  if v.exponent ≤ 971 then some v else none

/-- The product, rounded. -/
def mul? (v w : Magnitude) : Option Magnitude :=
  round? (v.ratio.1 * w.ratio.1) (v.ratio.2 * w.ratio.2)

/-- The quotient, rounded; `w` is not zero. -/
def div? (v w : Magnitude) : Option Magnitude :=
  round? (v.ratio.1 * w.ratio.2) (v.ratio.2 * w.ratio.1)

/-- `significand * 10 ^ exponent`, computed with one rounding of the significand, one of the
power and one of their product or quotient, the power being at most `10 ^ 308`. Below that the
value is first divided by `10 ^ 308`, once or, until nothing is left, more often. `none` if the
result is too large. -/
def scale? (significand : Nat) (exponent : Int) : Option Magnitude := do
  go 4 (← round? significand 1) exponent
where
  go : Nat → Magnitude → Int → Option Magnitude
    | 0, v, _ => some v
    | fuel + 1, v, e => do
      if 0 ≤ e then
        if e ≤ 308 then v.mul? (← round? (Nat.pow 10 e.toNat) 1)
        else if v.significand = 0 then some v
        else none
      else if -308 ≤ e then v.div? (← round? (Nat.pow 10 (-e).toNat) 1)
      else if v.significand = 0 then some v
      else go fuel (← v.div? (← round? (Nat.pow 10 308) 1)) (e + 308)

end Magnitude

end ArchChange
