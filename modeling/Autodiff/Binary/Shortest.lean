import Autodiff.Binary.Basic
import Autodiff.Text.Numeral

/-!
# Shortest decimal digits

The numbers that round to a given finite number form an interval; its ends belong to it
if the significand is even. Among the decimal numbers in the interval the shortest ones
have the fewest digits, and of those the nearest is taken. If any point of a decimal
grid lies in the interval, so does one of the two neighbours of the number on that grid,
so only these are tried, from coarse grids to fine ones.

* `Binary.shortest` gives the digits and the power of ten of the last digit.
-/

namespace Autodiff.Binary

/-- A positive rational number as numerator and denominator. -/
structure Ratio where
  num : Nat
  den : Nat

namespace Ratio

/-- A natural number times a power of two. -/
def ofBinary (m : Nat) (q : Int) : Ratio := ⟨m * Nat.pow 2 q.toNat, Nat.pow 2 (-q).toNat⟩

def lt (r s : Ratio) : Bool := r.num * s.den < s.num * r.den

def le (r s : Ratio) : Bool := r.num * s.den ≤ s.num * r.den

/-- A natural number times a power of ten. -/
def ofDecimal (c : Nat) (e : Int) : Ratio := ⟨c * Nat.pow 10 e.toNat, Nat.pow 10 (-e).toNat⟩

/-- The exponent of the leading decimal digit of a positive ratio. -/
def leadingDigit (r : Ratio) : Int :=
  if r.den ≤ r.num then (Text.digitCount (r.num / r.den) : Int) - 1
  else -(Text.digitCount ((r.den - 1) / r.num) : Int)

end Ratio

/-- The numbers that round to a given number. -/
structure Interval where
  low : Ratio
  high : Ratio
  closed : Bool

def Interval.holds (i : Interval) (r : Ratio) : Bool :=
  if i.closed then i.low.le r && r.le i.high else i.low.lt r && r.lt i.high

/-- The interval of the number `m * 2 ^ q`: half the distance to the neighbours, which
below a power of two are twice as near. -/
def roundingInterval (f : Format) (m : Nat) (q : Int) : Interval where
  low :=
    if m = Nat.pow 2 (f.precision - 1) ∧ f.minExp < q then Ratio.ofBinary (4 * m - 1) (q - 2)
    else Ratio.ofBinary (2 * m - 1) (q - 1)
  high := Ratio.ofBinary (2 * m + 1) (q - 1)
  closed := m % 2 == 0

/-- The neighbour of the number on the grid of multiples of `10 ^ e` that lies in the
interval; of two the nearer, and halfway between them the even one. -/
def onGrid? (i : Interval) (r : Ratio) (e : Int) : Option Nat :=
  let n := r.num * Nat.pow 10 (-e).toNat
  let d := r.den * Nat.pow 10 e.toNat
  let below := n / d
  let nearest := halfEven n d
  let other := if nearest = below then below + 1 else below
  if i.holds (Ratio.ofDecimal nearest e) then some nearest
  else if i.holds (Ratio.ofDecimal other e) then some other
  else none

/-- The first grid with a point in the interval, from coarse to fine. -/
def searchGrids (i : Interval) (r : Ratio) : Nat → Int → Nat × Int
  | 0, e => (halfEven (r.num * Nat.pow 10 (-e).toNat) (r.den * Nat.pow 10 e.toNat), e)
  | steps + 1, e =>
    match onGrid? i r e with
    | some c => (c, e)
    | none => searchGrids i r steps (e - 1)

/-- The number of decimal digits that always tell two numbers of the format apart. -/
def maxDigits (f : Format) : Nat := f.precision * 30103 / 100000 + 2

/-- Move trailing zeros of the digits into the exponent. -/
def dropTrailingZeros : Nat → Nat → Int → Nat × Int
  | 0, c, e => (c, e)
  | steps + 1, c, e => if c % 10 = 0 then dropTrailingZeros steps (c / 10) (e + 1) else (c, e)

/-- The shortest decimal number that rounds to `m * 2 ^ q`: its digits, and the exponent
of the last of them. -/
def shortest (f : Format) (m : Nat) (q : Int) : Nat × Int :=
  let r := Ratio.ofBinary m q
  let (c, e) := searchGrids (roundingInterval f m q) r (maxDigits f) r.leadingDigit
  dropTrailingZeros (maxDigits f) c e

end Autodiff.Binary
