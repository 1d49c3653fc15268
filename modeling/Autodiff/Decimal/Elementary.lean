import Autodiff.Decimal.Arithmetic
import Autodiff.Decimal.Series

/-!
# Powers and logarithms of decimal numbers

Logarithms and exponentials are rounded correctly: they are computed with more and more
places until all numbers within the error bound round alike. An integral power is
computed by repeated squaring with a few digits to spare, so an exact power that fits is
exact. Any other power is the exponential of the exponent times the logarithm, each of
the three steps rounded to many digits to spare; the result always has all its digits.

* `Context.ln` is the natural logarithm, `Context.exp` the exponential;
* `Context.pow` is the power.
-/

namespace Autodiff.Decimal.Context

open Text

/-! ## Approximations -/

/-- A positive number `mantissa * 10 ^ exponent`, known to within some units of the last
place. -/
structure Approximation where
  mantissa : Nat
  error : Nat
  exponent : Int

/-- Whether all numbers that an approximation admits are positive and round alike. -/
def settles (ctx : Context) (x : Approximation) : Bool :=
  decide (x.error < x.mantissa) &&
    ctx.roundCoefficient (x.mantissa - x.error) 0 == ctx.roundCoefficient (x.mantissa + x.error) 0

/-- Approximate with twice as many places again and again until the rounding is certain,
a number of times at most. -/
def approximate (ctx : Context) (atPlaces : Nat → Approximation) : Nat → Nat → Approximation
  | 0, places => atPlaces places
  | steps + 1, places =>
    let x := atPlaces places
    if ctx.settles x then x else ctx.approximate atPlaces steps (2 * places)

/-! ## Logarithms and exponentials -/

/-- Whether a coefficient with an exponent is one. -/
def isOne (coefficient : Nat) (exponent : Int) : Bool :=
  exponent ≤ 0 && adjusted coefficient exponent == 0 && coefficient == Nat.pow 10 (-exponent).toNat

/-- The natural logarithm. That of zero is minus infinity, that of one is exact. -/
def ln (ctx : Context) : Decimal → Except Signal Decimal
  | nan _ true _ => .error .invalidOperation
  | nan negative false payload => .ok (ctx.quiet negative payload)
  | infinite negative => if negative then .error .invalidOperation else .ok (infinite false)
  | finite negative coefficient exponent =>
    if coefficient = 0 then .ok (infinite true)
    else if negative then .error .invalidOperation
    else if isOne coefficient exponent then .ok (finite false 0 0)
    else
      let x := ctx.approximate
        (fun places => ⟨(Series.ln places coefficient exponent).natAbs,
          Series.lnError places coefficient exponent, -(places : Int)⟩)
        (coefficient.log2.log2 + 8)
        (ctx.precision + 15 + digitCount (coefficient.log2 + exponent.natAbs))
      ctx.finalize (adjusted coefficient exponent < 0) x.mantissa x.exponent

/-- The exponential. Close to zero it is one with all its digits. -/
def exp (ctx : Context) : Decimal → Except Signal Decimal
  | nan _ true _ => .error .invalidOperation
  | nan negative false payload => .ok (ctx.quiet negative payload)
  | infinite negative => .ok (if negative then finite false 0 0 else infinite false)
  | finite negative coefficient exponent =>
    let leading := adjusted coefficient exponent
    if coefficient = 0 ∨ leading < -(ctx.precision + 1 : Nat) then
      ctx.finalize false (Nat.pow 10 (ctx.precision - 1)) (-(ctx.precision - 1 : Nat))
    else
      let x := ctx.approximate
        (fun places =>
          let (mantissa, power) :=
            Series.exp places (Series.units places negative coefficient exponent)
          ⟨mantissa, Series.expError places power, power - places⟩)
        (digitCount coefficient + 8)
        (ctx.precision + 15 + (leading + 1).toNat)
      ctx.finalize false x.mantissa x.exponent

/-! ## Powers -/

/-- A positive power by repeated squaring, from the leading bit of the exponent on. -/
def square (ctx : Context) (base : Decimal) (n : Nat) : Except Signal Decimal :=
  if n ≤ 1 then .ok base
  else do
    let root ← ctx.square base (n / 2)
    let even ← ctx.mul root root
    if n % 2 = 0 then return even else ctx.mul even base
termination_by n
decreasing_by omega

/-- The number with a sign. -/
def withSign (negative : Bool) : Decimal → Decimal
  | finite _ coefficient exponent => finite negative coefficient exponent
  | infinite _ => infinite negative
  | nan _ signaling payload => nan negative signaling payload

/-- Round a number to the context. -/
def round (ctx : Context) : Decimal → Except Signal Decimal
  | finite negative coefficient exponent => ctx.finalize negative coefficient exponent
  | other => .ok other

/-- An integral power other than zero of a finite number other than zero, with digits to
spare for the length of the exponent; a negative power is one of the inverse. -/
def powIntegral (ctx : Context) (base : Decimal) (negativeExponent : Bool)
    (coefficient : Nat) (exponent : Int) (negative : Bool) : Except Signal Decimal := do
  let spare := ((digitCount coefficient : Int) + exponent + 2).toNat
  let wide := { ctx with precision := ctx.precision + spare + (if negativeExponent then 1 else 0) }
  let start ← if negativeExponent then wide.div (finite false 1 0) base else .ok base
  let power ← wide.square start (truncate coefficient exponent)
  ctx.round (withSign negative power)

/-- The context for the steps of a power of a number with so many digits: 23 digits more
than the longer of the precision and the number, and hardly a limit for exponents. -/
def forSteps (ctx : Context) (digits : Nat) : Context :=
  ⟨max ctx.precision digits + 23, 1 - Nat.pow 10 18, Nat.pow 10 18 - 1⟩

/-- A power of a positive finite number: the exponential of the exponent times the
logarithm. -/
def powReal (ctx : Context) (m : Nat) (p : Int) (exponent : Decimal) :
    Except Signal Decimal := do
  let wide := ctx.forSteps (digitCount m)
  let logarithm ← wide.ln (finite false m p)
  let product ← wide.mul logarithm exponent
  let power ← wide.exp product
  ctx.round power

/-- One written with as many places as a power of one has. -/
def powOne (ctx : Context) (negative : Bool) (places : Nat) : Decimal :=
  let kept := min places (ctx.precision - 1)
  finite negative (Nat.pow 10 kept) (-(kept : Int))

/-- A lower bound for the decimal exponent of the logarithm to base ten of a positive
number other than one. -/
def logarithmExponent (coefficient : Nat) (exponent : Int) : Int :=
  let leading := adjusted coefficient exponent
  if 0 < leading then digitCount leading.natAbs - 1
  else if leading < -1 then digitCount (leading + 1).natAbs - 1
  else
    let unit := Nat.pow 10 (-exponent).toNat
    let distance := if unit ≤ coefficient then coefficient - unit else unit - coefficient
    adjusted distance exponent - (if leading = 0 then 2 else 1)

/-- A power of two finite numbers other than zero. Powers that are certainly beyond the
range of exponents are not computed. -/
def powFinite (ctx : Context) (s : Bool) (m : Nat) (p : Int) (t : Bool) (n : Nat) (q : Int) :
    Except Signal Decimal :=
  let integral := isIntegral n q
  let negative := s && isOdd n q
  if s && !integral then .error .invalidOperation
  else if isOne m p then
    if !integral then .ok (ctx.powOne false (ctx.precision - 1))
    else if t then .ok (ctx.powOne negative 0)
    else
      let places := if p = 0 then 0
        else if ctx.precision ≤ adjusted n q + 1 then ctx.precision - 1
        else (-p).toNat * truncate n q
      .ok (ctx.powOne negative places)
  else
    let growing := decide (adjusted m p < 0) == t
    let bound := digitCount (if growing then ctx.maxLeading else ctx.minLast).natAbs
    if bound < logarithmExponent m p + adjusted n q then
      if growing then .error .overflow else ctx.finalize negative 1 (ctx.minLast - 1)
    else if integral then ctx.powIntegral (finite s m p) t n q negative
    else ctx.powReal m p (finite t n q)

/-- The first number raised to the second. -/
def pow (ctx : Context) (x y : Decimal) : Except Signal Decimal :=
  match ctx.nanOutcome? x y with
  | some outcome => outcome
  | none =>
    let odd := match y with
      | finite _ n q => isOdd n q
      | _ => false
    let negative := x.isNegative && odd
    if x.isZero then
      if y.isZero then .error .invalidOperation
      else if y.isNegative then .ok (infinite negative)
      else .ok (finite negative 0 0)
    else
      match x, y with
      | finite s m p, infinite t =>
        if s then .error .invalidOperation
        else if isOne m p then .ok (ctx.powOne false (ctx.precision - 1))
        else if decide (adjusted m p < 0) == t then .ok (infinite false)
        else .ok (finite false 0 0)
      | infinite s, infinite t =>
        if s then .error .invalidOperation
        else if t then .ok (finite false 0 0) else .ok (infinite false)
      | infinite s, finite t n q =>
        if s && !isIntegral n q then .error .invalidOperation
        else if n = 0 then .ok (finite negative 1 0)
        else if t then .ok (finite negative 0 0)
        else .ok (infinite negative)
      | finite s m p, finite t n q =>
        if n = 0 then .ok (finite negative 1 0) else ctx.powFinite s m p t n q
      | _, _ => .error .invalidOperation

end Autodiff.Decimal.Context
