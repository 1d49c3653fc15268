import Autodiff.Capability.Decimal
import Autodiff.Capability.Ieee

/-!
# Builtin arithmetic

The arithmetic of values as they are: nothing is converted to a common type beforehand,
and the kinds of the two operands choose the rule.

| operands | rule |
|---|---|
| integers and truth values | exact; a quotient is the nearest double |
| doubles, with integers | of doubles; division by zero is an error |
| numbers of a width, with integers and doubles | of the wider width; never an error |
| decimal numbers, with integers | decimal |
| texts | `+` joins two, `*` repeats one |

All other pairs are errors. Powers and logarithms take the nearest doubles and come from a
mathematical library; they have errors of their own where they are undefined or too large.

* `Builtin.arithmetic` is the capability.
-/

namespace Autodiff.Builtin

/-! ## Integers -/

/-- The double nearest to a quotient of integers. -/
def quotientOfInts (m n : Int) : Except ScalarError Scalar :=
  if n = 0 then .error .intDivisionByZero
  else
    let x := Binary.ofQuotient .double (decide (m < 0) != decide (n < 0)) m.natAbs n.natAbs 0
    if x.isFinite then .ok (.float x) else .error .quotientTooLarge

def combineInts : Op → Int → Int → Except ScalarError Scalar
  | .add, m, n => .ok (.int (m + n))
  | .sub, m, n => .ok (.int (m - n))
  | .mul, m, n => .ok (.int (m * n))
  | _, m, n => quotientOfInts m n

/-! ## Doubles -/

/-- The operations on doubles; a division by zero is an error. -/
def combineDoubles (library : Library) (op : Op) (x y : Binary .double) :
    Except ScalarError Scalar :=
  if op = .div ∧ y.isZero then .error .floatDivisionByZero
  else .ok (.float (Ieee.applyDouble library op x y))

/-! ## Mixed kinds -/

/-- What a value is for the choice of the rule. -/
inductive Role where
  | integer (n : Int)
  | float (x : Binary .double)
  | ieee (width : Width) (x : Binary width.format)
  | decimal (x : Decimal)
  | text (content : String)
  | nothing

def role : Scalar → Role
  | .int n => .integer n
  | .float x => .float x
  | .ieee width x => .ieee width x
  | .decimal x => .decimal x
  | .text content => .text content
  | .bool value => .integer (if value then 1 else 0)
  | .nothing => .nothing

/-- The largest length of a text. -/
def maxLength : Int := Nat.pow 2 63 - 1

/-- A text a number of times, if there is room for the result; none for a negative number. -/
def repeatText (room : Nat) (content : String) (count : Int) : Except ScalarError Scalar :=
  let length := count * content.length
  if maxLength < count ∨ count < -maxLength - 1 then .error .countTooLarge
  else if length ≤ 0 then .ok (.text "")
  else if maxLength < length then .error .textTooLong
  else if room < length then .error .outOfMemory
  else .ok (.text (String.join (List.replicate count.toNat content)))

/-- The error of a number of a width and a text that are neither joined nor repeated. A
quotient first asks for numbers; the other operators look for a rule for the two. -/
def refuseElements (op : Op) (left right : Element) : ScalarError :=
  if op = .div then .notElementNumbers op else .noElementRule op left right

/-- The error of two operands that no rule combines. -/
def refuse (op : Op) (x y : Scalar) : ScalarError :=
  match op, x, y with
  | .add, .text _, _ => .notText y.kind
  | .mul, .text _, _ => .notCount y.kind
  | .mul, _, .text _ => .notCount x.kind
  | _, .ieee w _, .text t => refuseElements op (.ieee w) (.text t.length)
  | _, .text s, .ieee v _ => refuseElements op (.text s.length) (.ieee v)
  | _, _, _ => .unsupported op x.kind y.kind

/-- The operations of the operators `+ - * /` on values as they are. -/
def combine (library : Library) (op : Op) (x y : Scalar) : Except ScalarError Scalar :=
  match role x, role y with
  | .integer m, .integer n => combineInts op m n
  | .float a, .float b => combineDoubles library op a b
  | .float a, .integer n => do
    let b ← doubleOfInt n
    combineDoubles library op a b
  | .integer m, .float b => do
    let a ← doubleOfInt m
    combineDoubles library op a b
  | .ieee w _, .ieee v _ => Ieee.combine library (w.max v) op x y
  | .ieee w _, .integer _ => Ieee.combine library w op x y
  | .ieee w _, .float _ => Ieee.combine library w op x y
  | .integer _, .ieee v _ => Ieee.combine library v op x y
  | .float _, .ieee v _ => Ieee.combine library v op x y
  | .decimal a, .decimal b => Decimal.outcome (Decimal.apply .standard op a b)
  | .decimal a, .integer n => Decimal.outcome (Decimal.apply .standard op a (.ofInt n))
  | .integer m, .decimal b => Decimal.outcome (Decimal.apply .standard op (.ofInt m) b)
  | .text s, .text t => if op = .add then .ok (.text (s ++ t)) else .error (refuse op x y)
  | .text s, .integer n => if op = .mul then repeatText library.room s n else .error (refuse op x y)
  | .integer m, .text t => if op = .mul then repeatText library.room t m else .error (refuse op x y)
  | _, _ => .error (refuse op x y)

/-! ## Functions -/

/-- The power of two doubles. Finite arguments without a finite power are errors: it is
undefined for zero to a negative power and for a negative base with a fractional
exponent, and too large otherwise. -/
def powDoubles (library : Library) (x y : Binary .double) :
    Except ScalarError (Binary .double) :=
  let power := library.powDouble x y
  if x.isFinite && y.isFinite then
    if power.isNaN then .error .outsideDomain
    else if power.isInfinite then .error (if x.isZero then .outsideDomain else .outsideRange)
    else .ok power
  else .ok power

/-- The logarithm of a double; only a positive number and not-a-number have one. -/
def logDouble (library : Library) (x : Binary .double) : Except ScalarError (Binary .double) :=
  match x with
  | .nan => .ok .nan
  | .infinite negative => if negative then .error .outsideDomain else .ok (.infinite false)
  | .finite negative m _ _ =>
    if negative ∨ m = 0 then .error .outsideDomain else .ok (Binary.logDouble library x)

/-- An integer as a double in `[1/2, 1)` and a power of two. -/
def splitInt (n : Nat) : Binary .double × Int :=
  let bits : Int := n.log2 + 1
  let mantissa := Binary.ofQuotient .double false n 1 (-bits)
  if mantissa = Binary.ofInt .double 1 then (Binary.ofQuotient .double false 1 2 0, bits + 1)
  else (mantissa, bits)

/-- The logarithm of an integer. One that is beyond every double is split first. -/
def logInt (library : Library) (n : Int) : Except ScalarError (Binary .double) :=
  if n ≤ 0 then .error .outsideDomain
  else
    let x := Binary.ofInt .double n
    if x.isFinite then .ok (Binary.logDouble library x)
    else
      let (mantissa, bits) := splitInt n.toNat
      .ok (Binary.add (Binary.logDouble library mantissa)
        (Binary.mul (Binary.logDouble library (Binary.ofInt .double 2))
          (Binary.ofInt .double bits)))

def pow (library : Library) (x y : Scalar) : Except ScalarError Scalar := do
  let a ← x.toReal
  let b ← y.toReal
  let power ← powDoubles library a b
  return .float power

/-- The natural logarithm of a value, as a double. -/
def log (library : Library) (x : Scalar) : Except ScalarError Scalar :=
  match role x with
  | .integer n => do
    let logarithm ← logInt library n
    return .float logarithm
  | _ => do
    let a ← x.toReal
    let logarithm ← logDouble library a
    return .float logarithm

/-! ## The capability -/

def arithmetic (library : Library) : Arithmetic Scalar ScalarError where
  add := combine library .add
  sub := combine library .sub
  mul := combine library .mul
  div := combine library .div
  pow := pow library
  log := log library
  ofInt n := do
    let x ← doubleOfInt n
    return .float x

end Autodiff.Builtin
