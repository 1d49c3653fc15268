import Autodiff.Arithmetic
import Autodiff.Decimal.Elementary
import Autodiff.Scalar.Conversion

/-!
# Decimal arithmetic on scalars

Operands are converted to decimal numbers, exactly, and then the operation is carried
out in the standard context.

* `Decimal.arithmetic` is the capability;
* `Decimal.outcome_eq_ok_iff` says that its results are decimal numbers.
-/

namespace Autodiff.Decimal

/-- The outcome of a decimal operation as that of an operation on scalars. -/
def outcome : Except Signal Decimal → Except ScalarError Scalar
  | .ok x => .ok (.decimal x)
  | .error signal => .error (.decimal signal)

theorem outcome_eq_ok_iff {result : Except Signal Decimal} {value : Scalar} :
    outcome result = .ok value ↔ ∃ x, result = .ok x ∧ value = .decimal x := by
  cases result <;> simp [outcome, eq_comm]

def apply (ctx : Context) : Op → Decimal → Decimal → Except Signal Decimal
  | .add => ctx.add
  | .sub => ctx.sub
  | .mul => ctx.mul
  | .div => ctx.div
  | .pow => ctx.pow

/-- Convert both operands, the left one first, and combine them. -/
def combine (op : Op) (x y : Scalar) : Except ScalarError Scalar := do
  let a ← x.toDecimal
  let b ← y.toDecimal
  outcome (apply .standard op a b)

/-- Decimal arithmetic with 28 digits. -/
def arithmetic : Arithmetic Scalar ScalarError where
  add := combine .add
  sub := combine .sub
  mul := combine .mul
  div := combine .div
  pow := combine .pow
  log x := do
    let a ← x.toDecimal
    outcome (Context.standard.ln a)
  ofInt n := .ok (.decimal (.ofInt n))

theorem apply_arithmetic (op : Op) : arithmetic.apply op = combine op := by
  cases op <;> rfl

end Autodiff.Decimal
