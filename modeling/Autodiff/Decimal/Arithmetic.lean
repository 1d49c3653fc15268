import Autodiff.Decimal.Basic

/-!
# Decimal arithmetic

Sums, differences, products and quotients of decimal numbers are computed exactly and
then rounded to the precision of a context, halves to even. A result keeps the exponent
that the operation prescribes as long as its coefficient fits: the smaller one for sums,
the sum of both for products, and for exact quotients one as near as possible to their
difference. A result beyond the largest exponent, a division by zero and an operation
without a result are errors.

* `Context.finalize` rounds an exact result; every operation ends with it.
-/

namespace Autodiff.Decimal

open Text

/-! ## Contexts -/

/-- What stops a decimal operation. -/
inductive Signal where
  | invalidOperation
  | divisionUndefined
  | divisionByZero
  /-- The result is beyond the largest exponent. -/
  | overflow
  deriving DecidableEq

structure Context where
  /-- The largest number of digits of a coefficient. -/
  precision : Nat
  /-- The smallest exponent of the leading digit of a full coefficient. -/
  minLeading : Int
  /-- The largest exponent of a leading digit. -/
  maxLeading : Int

namespace Context

/-- Results have 28 digits and leading exponents of six digits. -/
def standard : Context := ⟨28, -999999, 999999⟩

/-- The exponent of the last digit of the smallest numbers. -/
def minLast (ctx : Context) : Int := ctx.minLeading - (ctx.precision - 1 : Nat)

/-- A coefficient without its last `count` digits, rounded. -/
def dropDigits (coefficient count : Nat) : Nat :=
  if digitCount coefficient < count then 0 else halfEven coefficient (Nat.pow 10 count)

/-- A coefficient with more digits than the precision, rounded to it. -/
def roundCoefficient (ctx : Context) (coefficient : Nat) (exponent : Int) : Nat × Int :=
  let count := digitCount coefficient - ctx.precision
  let rounded := dropDigits coefficient count
  if rounded = Nat.pow 10 ctx.precision then (Nat.pow 10 (ctx.precision - 1), exponent + count + 1)
  else (rounded, exponent + count)

/-- Round an exact result. Zeros take the nearest exponent in range; small results lose
the digits below the smallest last digit. -/
def finalize (ctx : Context) (negative : Bool) (coefficient : Nat) (exponent : Int) :
    Except Signal Decimal :=
  if coefficient = 0 then
    .ok (finite negative 0 (min ctx.maxLeading (max ctx.minLast exponent)))
  else
    let leading := adjusted coefficient exponent
    if ctx.maxLeading < leading then .error .overflow
    else if leading < ctx.minLeading then
      if exponent < ctx.minLast then
        .ok (finite negative (dropDigits coefficient (ctx.minLast - exponent).toNat) ctx.minLast)
      else .ok (finite negative coefficient exponent)
    else
      let (rounded, last) := ctx.roundCoefficient coefficient exponent
      if ctx.maxLeading < adjusted rounded last then .error .overflow
      else .ok (finite negative rounded last)

/-! ## Not-a-numbers -/

/-- The quiet result of a not-a-number operand; the payload keeps its last digits. -/
def quiet (ctx : Context) (negative : Bool) (payload : Nat) : Decimal :=
  nan negative false (payload % Nat.pow 10 ctx.precision)

/-- The outcome of an operation on a not-a-number, if one of the operands is one: a
signaling one has none, and otherwise the first one is the result. -/
def nanOutcome? (ctx : Context) : Decimal → Decimal → Option (Except Signal Decimal)
  | nan _ true _, _ => some (.error .invalidOperation)
  | _, nan _ true _ => some (.error .invalidOperation)
  | nan negative false payload, _ => some (.ok (ctx.quiet negative payload))
  | _, nan negative false payload => some (.ok (ctx.quiet negative payload))
  | _, _ => none

/-! ## Sums -/

/-- The exact sum of two finite numbers, the exponent of the first being at least that
of the second. A second number that is too small to matter beyond its sign is replaced
by a unit just below the digits that are kept. -/
def addOrdered (ctx : Context) (s : Bool) (m : Nat) (p : Int) (t : Bool) (n : Nat) (q : Int) :
    Except Signal Decimal :=
  let floor : Int := p - 1 + min 0 ((digitCount m : Int) - ctx.precision - 1)
  let (n, q) := if m ≠ 0 ∧ adjusted n q < floor then (min n 1, floor) else (n, q)
  let sum := (if s then -(m : Int) else m) * Nat.pow 10 (if m = 0 then 0 else (p - q).toNat) +
    (if t then -(n : Int) else n)
  if sum = 0 then ctx.finalize (s && t) 0 q
  else ctx.finalize (sum < 0) sum.natAbs q

def add (ctx : Context) (x y : Decimal) : Except Signal Decimal :=
  match ctx.nanOutcome? x y with
  | some outcome => outcome
  | none =>
    match x, y with
    | finite s m p, finite t n q =>
      if q ≤ p then ctx.addOrdered s m p t n q else ctx.addOrdered t n q s m p
    | infinite s, infinite t => if s = t then .ok (infinite s) else .error .invalidOperation
    | infinite s, _ => .ok (infinite s)
    | _, other => .ok other

/-- The difference of two numbers; a not-a-number keeps its sign. -/
def sub (ctx : Context) (x y : Decimal) : Except Signal Decimal :=
  match ctx.nanOutcome? x y with
  | some outcome => outcome
  | none => ctx.add x y.negate

/-! ## Products and quotients -/

def mul (ctx : Context) (x y : Decimal) : Except Signal Decimal :=
  match ctx.nanOutcome? x y with
  | some outcome => outcome
  | none =>
    match x, y with
    | finite s m p, finite t n q => ctx.finalize (s ^^ t) (m * n) (p + q)
    | _, _ =>
      if x.isZero || y.isZero then .error .invalidOperation
      else .ok (infinite (x.isNegative ^^ y.isNegative))

/-- Move trailing zeros of a coefficient into the exponent, as far as a limit. -/
def stripZeros : Nat → Nat → Int → Nat × Int
  | 0, coefficient, exponent => (coefficient, exponent)
  | steps + 1, coefficient, exponent =>
    if coefficient % 10 = 0 then stripZeros steps (coefficient / 10) (exponent + 1)
    else (coefficient, exponent)

/-- The quotient of two finite numbers other than zero: one digit more than the
precision, where the last digit of an inexact quotient is made neither 0 nor 5, so that
rounding sees on which side it lies. An exact quotient drops zeros down to the
difference of the exponents. -/
def divFinite (ctx : Context) (negative : Bool) (m : Nat) (p : Int) (n : Nat) (q : Int) :
    Except Signal Decimal :=
  let shift : Int := (digitCount n : Int) - digitCount m + ctx.precision + 1
  let num := m * Nat.pow 10 shift.toNat
  let den := n * Nat.pow 10 (-shift).toNat
  let quotient := num / den
  let exponent := p - q - shift
  if num % den ≠ 0 then
    ctx.finalize negative (if quotient % 5 = 0 then quotient + 1 else quotient) exponent
  else
    let (coefficient, last) := stripZeros shift.toNat quotient exponent
    ctx.finalize negative coefficient last

def div (ctx : Context) (x y : Decimal) : Except Signal Decimal :=
  match ctx.nanOutcome? x y with
  | some outcome => outcome
  | none =>
    let negative := x.isNegative ^^ y.isNegative
    match x, y with
    | finite _ m p, finite _ n q =>
      if n = 0 then .error (if m = 0 then .divisionUndefined else .divisionByZero)
      else if m = 0 then ctx.finalize negative 0 (p - q)
      else ctx.divFinite negative m p n q
    | infinite _, infinite _ => .error .invalidOperation
    | infinite _, _ => .ok (infinite negative)
    | _, _ => .ok (finite negative 0 ctx.minLast)

end Context

end Autodiff.Decimal
