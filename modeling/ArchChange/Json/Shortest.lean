import ArchChange.Json.Double
/-!
The text of a double: the fewest digits that read back as the same double, of two such decimals
the nearer, laid out with or without an exponent.
-/
namespace ArchChange

/-- The decimal number `digits * 10 ^ exponent`. -/
structure Decimal where
  digits : Nat
  exponent : Int
deriving DecidableEq, Repr

/-- How a decimal is laid out. With its decimal point after the first `p` digits it is written
without an exponent iff `lowest ≤ p ≤ highest`. -/
structure DecimalLayout where
  lowest : Int
  highest : Int
  /-- What stands before an exponent that is not negative. -/
  plusSign : List Char

namespace Magnitude

/-- `a * 10 ^ t ≤ b * 2 ^ s`. -/
def decimalLe (a : Nat) (t : Int) (b : Nat) (s : Int) : Bool :=
  a * Nat.pow 10 t.toNat * Nat.pow 2 (-s).toNat ≤ b * Nat.pow 2 s.toNat * Nat.pow 10 (-t).toNat

/-- `b * 2 ^ s ≤ a * 10 ^ t`. -/
def leDecimal (b : Nat) (s : Int) (a : Nat) (t : Int) : Bool :=
  b * Nat.pow 2 s.toNat * Nat.pow 10 (-t).toNat ≤ a * Nat.pow 10 t.toNat * Nat.pow 2 (-s).toNat

/-- Whether the decimal `c * 10 ^ t` rounds to `v`: it lies between the midpoints to the
neighbours of `v`, or on one of them if the significand is even. -/
def readsBack (v : Magnitude) (c : Nat) (t : Int) : Bool :=
  let s := v.exponent - 2
  let below := if v.significand = Nat.pow 2 52 ∧ v.exponent ≠ -1074 then 1 else 2
  let low := 4 * v.significand - below
  let high := 4 * v.significand + 2
  if v.significand % 2 = 0 then leDecimal low s c t && decimalLe c t high s
  else !decimalLe c t low s && !leDecimal high s c t

/-- The number of decimal digits of `n`. -/
def digitCount (n : Nat) : Nat :=
  (Nat.toDigits 10 n).length

/-- The `k` with `10 ^ k ≤ v < 10 ^ (k + 1)`, for `v` above zero. -/
def decimalExponent (v : Magnitude) : Int :=
  let (num, den) := v.ratio
  if den ≤ num then digitCount (num / den) - 1
  else -digitCount ((den + num - 1) / num - 1)

/-- The decimal on the grid of step `10 ^ t` that reads back as `v` and is nearest to it, a tie
going to the even one. -/
def onGrid? (v : Magnitude) (t : Int) : Option Decimal :=
  let (num, den) := v.ratio
  let scaledNum := num * Nat.pow 10 (-t).toNat
  let scaledDen := den * Nat.pow 10 t.toNat
  let c := scaledNum / scaledDen
  match readsBack v c t, readsBack v (c + 1) t with
  | false, false => none
  | true, false => some ⟨c, t⟩
  | false, true => some ⟨c + 1, t⟩
  | true, true =>
    let twice := 2 * (scaledNum % scaledDen)
    if twice < scaledDen then some ⟨c, t⟩
    else if scaledDen < twice then some ⟨c + 1, t⟩
    else some ⟨if c % 2 = 0 then c else c + 1, t⟩

/-- The decimal with the fewest digits that reads back as `v`; seventeen always do. -/
def shortest (v : Magnitude) : Decimal :=
  if v.significand = 0 then ⟨0, 0⟩
  else
    let k := v.decimalExponent
    ((List.range 17).findSome? fun (i : Nat) => v.onGrid? (k - i)).getD ⟨v.significand, 0⟩

end Magnitude

namespace Decimal

/-- The decimal without zeros at the end of its digits. -/
def reduce (d : Decimal) : Decimal :=
  let ds := (Nat.toDigits 10 d.digits).reverse
  let zeros := (ds.takeWhile (· == '0')).length
  if d.digits = 0 then ⟨0, 0⟩ else ⟨d.digits / Nat.pow 10 zeros, d.exponent + zeros⟩

/-- The text of a decimal. It always has a decimal point or an exponent. -/
def render (layout : DecimalLayout) (d : Decimal) : String :=
  let ds := Nat.toDigits 10 d.digits
  let point := (ds.length : Int) + d.exponent
  String.ofList <|
    if layout.lowest ≤ point ∧ point ≤ layout.highest then
      if 0 ≤ d.exponent then ds ++ List.replicate d.exponent.toNat '0' ++ ['.', '0']
      else if 0 < point then ds.take point.toNat ++ '.' :: ds.drop point.toNat
      else '0' :: '.' :: List.replicate (-point).toNat '0' ++ ds
    else
      let mantissa := match ds with
        | [] => []
        | [c] => [c]
        | c :: rest => c :: '.' :: rest
      let sign := if 1 ≤ point then layout.plusSign else []
      mantissa ++ 'e' :: sign ++ (toString (point - 1)).toList

end Decimal

namespace Double

/-- Doubles in JSON texts have no exponent from 0.00001 up to below 10^16, and exponents always
have a sign. -/
def layout : DecimalLayout := ⟨-4, 16, ['+']⟩

/-- The text of a double in a JSON text. -/
def render (v : Double) : String :=
  let body :=
    if v.magnitude.significand = 0 then "0.0" else v.magnitude.shortest.reduce.render layout
  if v.negative then "-" ++ body else body

end Double

end ArchChange
