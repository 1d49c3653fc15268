import Autodiff.Expr.Substitute
import Autodiff.Gradient.Numeric

/-!
# Value and gradient together

`Expr.trace` rebinds the variables of a tree, computes its value and then its gradient.

* `Expr.trace_empty` says that without bindings the tree is taken as it is.
-/

namespace Autodiff

/-- The value of an expression and its derivatives. -/
structure Traced (α : Type) where
  value : α
  grads : IdMap α

namespace Expr

variable {α ε : Type}

/-- The value and the gradient of an expression, after rebinding its variables. Without
bindings the tree is not walked for them. -/
def trace (num : Arithmetic α ε) (expr : Expr α) (bindings : IdMap α) :
    Except (Fault α ε) (Traced α) := do
  let rebound ← if bindings.isEmpty then .ok expr else Fault.liftWalk (expr.substitute bindings)
  let value ← rebound.evaluate num
  let grads ← rebound.gradient num
  return ⟨value, grads⟩

theorem trace_empty (num : Arithmetic α ε) (expr : Expr α) :
    expr.trace num IdMap.empty = (do
      let value ← expr.evaluate num
      let grads ← expr.gradient num
      return ⟨value, grads⟩) := rfl

end Expr

end Autodiff
