import Autodiff.Scalar.Error

/-!
# Conversions between scalars

How a value of any kind becomes a double, a number of an interchange width, or a decimal
number. A conversion to a width goes by way of the nearest double.

* `Scalar.toDouble` reads texts; `Scalar.toReal` takes numbers only;
* `Scalar.toWidth` reads texts and takes nothing for not-a-number;
* `Scalar.toDecimal` is exact.
-/

namespace Autodiff

/-- The double of an integer, if some double is near. -/
def doubleOfInt (n : Int) : Except ScalarError (Binary .double) :=
  let x := Binary.ofInt .double n
  if x.isFinite then .ok x else .error .intTooLarge

/-- The double of a truth value. -/
def doubleOfBool (value : Bool) : Binary .double := Binary.ofInt .double (if value then 1 else 0)

/-- The double nearest to a decimal number. -/
def doubleOfDecimal (x : Decimal) : Except ScalarError (Binary .double) :=
  match x.toBinary? .double with
  | some y => .ok y
  | none => .error .signaling

namespace Scalar

/-- The double of a value: of a number the nearest one, of a text the one it writes. -/
def toDouble : Scalar → Except ScalarError (Binary .double)
  | int n => doubleOfInt n
  | float x => .ok x
  | ieee _ x => .ok (x.convert .double)
  | decimal x => doubleOfDecimal x
  | text content =>
    match Binary.parse? .double content with
    | some x => .ok x
    | none => .error (.unreadable content)
  | bool value => .ok (doubleOfBool value)
  | nothing => .error (.notNumeric .nothing)

/-- The double nearest to a number. -/
def toReal : Scalar → Except ScalarError (Binary .double)
  | text _ => .error (.notReal .text)
  | nothing => .error (.notReal .nothing)
  | number => number.toDouble

/-- The number of a width for a value: its double, rounded to the width. -/
def toWidth (width : Width) : Scalar → Except ScalarError (Binary width.format)
  | nothing => .ok .nan
  | value => do
    let x ← value.toDouble
    return x.convert width.format

/-- The decimal number with the exact value of a number, or written by a text. -/
def toDecimal : Scalar → Except ScalarError Decimal
  | int n => .ok (.ofInt n)
  | float x => .ok (.ofBinary x)
  | ieee .double x => .ok (.ofBinary x)
  | ieee width _ => .error (.notDecimal (.ieee width))
  | decimal x => .ok x
  | text content =>
    match Decimal.parse content with
    | .ok x => .ok x
    | .error .malformed => .error .decimalSyntax
    | .error .outOfRange => .error (.decimal .invalidOperation)
  | bool value => .ok (.ofInt (if value then 1 else 0))
  | nothing => .error (.notDecimal .nothing)

end Scalar

end Autodiff
