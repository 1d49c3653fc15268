import Autodiff.Expr.Basic

/-!
# Equality of trees

Two trees are equal if they have the same shape, the same ids, integers and operators,
and equal data. The comparison of data is an argument and may fail; fields are compared
from left to right up to the first difference.

* `Expr.equal_self` says that a tree equals itself if every datum does.
-/

namespace Autodiff.Expr

variable {α ε : Type}

/-- Whether two trees are equal under a comparison of data. -/
def equal (same : α → α → Except ε Bool) : Expr α → Expr α → Except ε Bool
  | var id data, var id' data' => if id = id' then same data data' else .ok false
  | lit data, lit data' => same data data'
  | const n, const n' => .ok (n == n')
  | binary op left right, binary op' left' right' =>
    if op = op' then do
      let sameLeft ← left.equal same left'
      if sameLeft then right.equal same right' else return false
    else .ok false
  | unary fn operand, unary fn' operand' =>
    if fn = fn' then operand.equal same operand' else .ok false
  | foreign value, foreign value' => same value value'
  | _, _ => .ok false

/-- A tree equals itself if every datum equals itself. -/
theorem equal_self {same : α → α → Except ε Bool} (hSame : ∀ x, same x x = .ok true)
    (expr : Expr α) : expr.equal same expr = .ok true := by
  induction expr with
  | var id data => simp [equal, hSame]
  | lit | foreign => exact hSame _
  | const n => simp [equal]
  | binary op left right ihLeft ihRight =>
    rw [equal, if_pos rfl, ihLeft]
    exact ihRight
  | unary fn operand ih => rw [equal, if_pos rfl, ih]

end Autodiff.Expr
