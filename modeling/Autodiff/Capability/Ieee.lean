import Autodiff.Arithmetic
import Autodiff.Binary.Elementary
import Autodiff.Scalar.Conversion

/-!
# Arithmetic of the interchange formats

Operands are converted to a width, and then the operation of that width is carried out;
it has a result for all numbers. A square is a rounded product, and any other power is
that of a mathematical library. Half precision computes in single precision and rounds
every result.

* `Ieee.arithmetic` is the capability of a width; only conversions make it fail.
-/

namespace Autodiff.Ieee

/-! ## Operations on numbers of one width -/

/-- A power where the square is the rounded product, and any other power is taken from a
library. -/
def powWith {f : Format} (library : Binary f → Binary f → Binary f) (x y : Binary f) : Binary f :=
  if y = Binary.ofInt f 2 then Binary.mul x x else library x y

theorem powWith_two {f : Format} (library : Binary f → Binary f → Binary f) (x : Binary f) :
    powWith library x (Binary.ofInt f 2) = Binary.mul x x := if_pos rfl

def applyDouble (library : Library) : Op → Binary .double → Binary .double → Binary .double
  | .add => Binary.add
  | .sub => Binary.sub
  | .mul => Binary.mul
  | .div => Binary.div
  | .pow => powWith library.powDouble

def applySingle (library : Library) : Op → Binary .single → Binary .single → Binary .single
  | .add => Binary.add
  | .sub => Binary.sub
  | .mul => Binary.mul
  | .div => Binary.div
  | .pow => powWith library.powSingle

/-- The operations on halves, computed in single precision. -/
def applyHalf (library : Library) (op : Op) (x y : Binary .half) : Binary .half :=
  (applySingle library op (x.convert .single) (y.convert .single)).convert .half

def apply (library : Library) (width : Width) (op : Op) :
    Binary width.format → Binary width.format → Binary width.format :=
  match width with
  | .double => applyDouble library op
  | .single => applySingle library op
  | .half => applyHalf library op

/-- The natural logarithm of the numbers of a width. -/
def log (library : Library) (width : Width) : Binary width.format → Binary width.format :=
  match width with
  | .double => Binary.logDouble library
  | .single => Binary.logSingle library
  | .half => fun x => (Binary.logSingle library (x.convert .single)).convert .half

/-! ## The capability -/

/-- Convert both operands to a width, the left one first, and combine them. -/
def combine (library : Library) (width : Width) (op : Op) (x y : Scalar) :
    Except ScalarError Scalar := do
  let a ← x.toWidth width
  let b ← y.toWidth width
  return .ieee width (apply library width op a b)

def arithmetic (library : Library) (width : Width) : Arithmetic Scalar ScalarError where
  add := combine library width .add
  sub := combine library width .sub
  mul := combine library width .mul
  div := combine library width .div
  pow := combine library width .pow
  log x := do
    let a ← x.toWidth width
    return .ieee width (log library width a)
  ofInt n := do
    let a ← (Scalar.int n).toWidth width
    return .ieee width a

theorem apply_arithmetic (library : Library) (width : Width) (op : Op) :
    (arithmetic library width).apply op = combine library width op := by
  cases op <;> rfl

end Autodiff.Ieee
