import Autodiff.Expr.Basic
import Autodiff.IdMap

/-!
# Gradients as expressions

The reverse walk with expressions for adjoints: where a number would be multiplied, a
product node is built. No arithmetic takes place, so only a foreign value stops it. The
entries are ordinary trees and can be computed, printed or differentiated again.

* `Expr.symbolicGradientFrom` is the walk from a given adjoint and a given map;
* `Expr.symbolicGradient` starts it at the root with the constant 1.
-/

namespace Autodiff.Expr

variable {α : Type}

/-- Add a term to the entry of an id; an absent entry counts as the constant 0, so the
first term is wrapped in a sum too. -/
def accumulateTerm (grads : IdMap (Expr α)) (id : String) (term : Expr α) : IdMap (Expr α) :=
  grads.insert id (add ((grads.get? id).getD (const 0)) term)

/-- Push an adjoint down a tree, the left operand first. -/
def symbolicGradientFrom :
    Expr α → Expr α → IdMap (Expr α) → Except (NotNode α) (IdMap (Expr α))
  | var id _, adjoint, grads => .ok (accumulateTerm grads id adjoint)
  | lit _, _, grads => .ok grads
  | const _, _, grads => .ok grads
  | add left right, adjoint, grads => do
    let grads ← left.symbolicGradientFrom adjoint grads
    right.symbolicGradientFrom adjoint grads
  | sub left right, adjoint, grads => do
    let grads ← left.symbolicGradientFrom adjoint grads
    right.symbolicGradientFrom (neg adjoint) grads
  | mul left right, adjoint, grads => do
    let grads ← left.symbolicGradientFrom (mul adjoint right) grads
    right.symbolicGradientFrom (mul adjoint left) grads
  | div left right, adjoint, grads => do
    let grads ← left.symbolicGradientFrom (div adjoint right) grads
    right.symbolicGradientFrom (neg (div (mul adjoint left) (mul right right))) grads
  | pow base exponent, adjoint, grads => do
    let grads ← base.symbolicGradientFrom
      (mul adjoint (mul exponent (pow base (sub exponent (const 1))))) grads
    exponent.symbolicGradientFrom (mul adjoint (mul (pow base exponent) (log base))) grads
  | neg operand, adjoint, grads => operand.symbolicGradientFrom (neg adjoint) grads
  | log operand, adjoint, grads => operand.symbolicGradientFrom (div adjoint operand) grads
  | foreign value, _, _ => .error ⟨value⟩

/-- For every variable of a tree an expression that computes the derivative by it. -/
def symbolicGradient (expr : Expr α) : Except (NotNode α) (IdMap (Expr α)) :=
  expr.symbolicGradientFrom (const 1) IdMap.empty

end Autodiff.Expr
