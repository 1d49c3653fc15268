import Autodiff.Arithmetic

/-!
# The value of a tree

`Expr.evaluate` computes a tree bottom-up, left operand first. The value of a leaf is
its data as it stands; only integer constants and operators use the arithmetic. A
subtree is computed every time it is reached.

* `Expr.evaluate_neg` says that negation computes like subtraction from the constant 0.
-/

namespace Autodiff.Expr

variable {α ε : Type}

/-- The value of an expression, computed with the given arithmetic. -/
def evaluate (num : Arithmetic α ε) : Expr α → Except (Fault α ε) α
  | var _ data => .ok data
  | lit data => .ok data
  | const n => Fault.lift (num.ofInt n)
  | binary op left right => do
    let x ← left.evaluate num
    let y ← right.evaluate num
    Fault.lift (num.apply op x y)
  | unary .neg operand => do
    let zero ← Fault.lift (num.ofInt 0)
    let x ← operand.evaluate num
    Fault.lift (num.sub zero x)
  | unary .log operand => do
    let x ← operand.evaluate num
    Fault.lift (num.log x)
  | foreign value => .error (.notNode ⟨value⟩)

/-- Negation computes like subtraction from the constant 0. -/
theorem evaluate_neg (num : Arithmetic α ε) (operand : Expr α) :
    (neg operand).evaluate num = (sub (const 0) operand).evaluate num := rfl

end Autodiff.Expr
