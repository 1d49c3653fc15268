import Autodiff.Decimal.Basic

/-!
# Exponentials and logarithms in fixed point

Logarithms and exponentials of rational numbers, as integers in units of
`10 ^ (-places)`. The logarithm comes from the series of the inverse hyperbolic tangent,
the exponential from its own series; each sum stops where its terms vanish in the unit.

* `Series.ln` is the logarithm of a decimal number, within `Series.lnError` units;
* `Series.exp` is the exponential, as a mantissa between 1 and 10, within
  `Series.expError` units, and a power of ten.
-/

namespace Autodiff.Decimal.Series

open Text

/-! ## Logarithms -/

/-- The sum of `power / k + power * square / (k + 2) + ...`, a number of terms at most. -/
def oddPowers (unit square : Nat) : Nat → Nat → Nat → Nat → Nat
  | 0, _, _, sum => sum
  | terms + 1, k, power, sum =>
    if power = 0 then sum
    else oddPowers unit square terms (k + 2) (power * square / unit) (sum + power / k)

/-- The logarithm of `(den + num) / (den - num)` in the given unit, for `num` at most a
third of `den`. -/
def lnRatio (places num den : Nat) : Nat :=
  let unit := Nat.pow 10 places
  let z := unit * num / den
  2 * oddPowers unit (z * z / unit) (2 * places + 10) 1 z 0

def ln2 (places : Nat) : Nat := lnRatio places 1 3

/-- The logarithm of ten: three times that of two, and that of ten eighths. -/
def ln10 (places : Nat) : Nat := 3 * ln2 places + lnRatio places 1 9

/-- The logarithm of `coefficient * 10 ^ exponent` in units of the last place. -/
def ln (places coefficient : Nat) (exponent : Int) : Int :=
  let bits := coefficient.log2
  (lnRatio places (coefficient - Nat.pow 2 bits) (coefficient + Nat.pow 2 bits) : Int) +
    bits * (ln2 places : Int) + exponent * (ln10 places : Int)

/-- A bound for the error of `ln`, in units of the last place. -/
def lnError (places coefficient : Nat) (exponent : Int) : Nat :=
  40 * (places + 10) * (coefficient.log2 + exponent.natAbs + 1)

/-! ## Exponentials -/

/-- The sum of `term + term * x / k + ...`, a number of terms at most. -/
def factorialPowers (unit x : Nat) : Nat → Nat → Nat → Nat → Nat
  | 0, _, _, sum => sum
  | terms + 1, k, term, sum =>
    if term = 0 then sum
    else factorialPowers unit x terms (k + 1) (term * x / (unit * k)) (sum + term)

/-- A number `coefficient * 10 ^ exponent` with a sign in units of the last place, rounded
down. -/
def units (places : Nat) (negative : Bool) (coefficient : Nat) (exponent : Int) : Int :=
  let scaled : Int := (if negative then -(coefficient : Int) else coefficient) *
    Nat.pow 10 (places + exponent).toNat
  scaled.fdiv (Nat.pow 10 (-(places + exponent)).toNat)

/-- The exponential of a number in units of the last place: a mantissa between 1 and 10
in the same unit, and the power of ten to multiply it with. -/
def exp (places : Nat) (t : Int) : Nat × Int :=
  let unit := Nat.pow 10 places
  let ten : Int := ln10 places
  let power := t.fdiv ten
  (factorialPowers unit (t - power * ten).toNat (4 * places + 20) 1 unit 0, power)

/-- A bound for the error of the mantissa of `exp`, in units of the last place. -/
def expError (places : Nat) (power : Int) : Nat :=
  400 * (places + 10) * (power.natAbs + 2)

end Autodiff.Decimal.Series
