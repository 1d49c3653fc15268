import Autodiff.Expr.Eval
import Autodiff.IdMap

/-!
# Gradients as numbers

Reverse-mode differentiation of a tree. The adjoint of a node is the derivative of the
whole by that node. The walk starts at the root with the adjoint 1 and hands every
operand the adjoint of its node times the local derivative; at a variable the adjoint is
added to the entry of its id. No forward values are kept: products, quotients and powers
compute the operand beside the path again.

| node | derivative by the first operand | by the second |
|---|---|---|
| `l + r` | `1` | `1` |
| `l - r` | `1` | `-1` |
| `l * r` | `r` | `l` |
| `l / r` | `1 / r` | `-l / r^2` |
| `b ^ e` | `e * b ^ (e - 1)` | `b ^ e * log b` |
| `-v` | `-1` | |
| `log v` | `1 / v` | |

* `Expr.gradientFrom` is the walk from a given adjoint and a given map;
* `Expr.gradient` starts it at the root.
-/

namespace Autodiff.Expr

variable {α ε : Type}

/-- Add an amount to the entry of an id; an absent entry counts as zero. -/
def accumulate (num : Arithmetic α ε) (grads : IdMap α) (id : String) (amount : α) :
    Except ε (IdMap α) := do
  let zero ← num.ofInt 0
  let total ← num.add ((grads.get? id).getD zero) amount
  return grads.insert id total

/-- Push an adjoint down a tree. The left operand is finished before the right
one, and both derivatives of a power are computed even where the exponent is constant. -/
def gradientFrom (num : Arithmetic α ε) :
    Expr α → α → IdMap α → Except (Fault α ε) (IdMap α)
  | var id _, adjoint, grads => Fault.lift (accumulate num grads id adjoint)
  | lit _, _, grads => .ok grads
  | const _, _, grads => .ok grads
  | add left right, adjoint, grads => do
    let grads ← left.gradientFrom num adjoint grads
    right.gradientFrom num adjoint grads
  | sub left right, adjoint, grads => do
    let grads ← left.gradientFrom num adjoint grads
    let negated ← Fault.lift (num.negate adjoint)
    right.gradientFrom num negated grads
  | mul left right, adjoint, grads => do
    let y ← right.evaluate num
    let leftAdjoint ← Fault.lift (num.mul adjoint y)
    let grads ← left.gradientFrom num leftAdjoint grads
    let x ← left.evaluate num
    let rightAdjoint ← Fault.lift (num.mul adjoint x)
    right.gradientFrom num rightAdjoint grads
  | div left right, adjoint, grads => do
    let x ← left.evaluate num
    let y ← right.evaluate num
    let leftAdjoint ← Fault.lift (num.div adjoint y)
    let grads ← left.gradientFrom num leftAdjoint grads
    let scaled ← Fault.lift (num.mul adjoint x)
    let square ← Fault.lift (num.mul y y)
    let quotient ← Fault.lift (num.div scaled square)
    let rightAdjoint ← Fault.lift (num.negate quotient)
    right.gradientFrom num rightAdjoint grads
  | pow base exponent, adjoint, grads => do
    let b ← base.evaluate num
    let e ← exponent.evaluate num
    let one ← Fault.lift (num.ofInt 1)
    let lowered ← Fault.lift (num.sub e one)
    let loweredPower ← Fault.lift (num.pow b lowered)
    let byBase ← Fault.lift (num.mul e loweredPower)
    let baseAdjoint ← Fault.lift (num.mul adjoint byBase)
    let grads ← base.gradientFrom num baseAdjoint grads
    let power ← Fault.lift (num.pow b e)
    let logarithm ← Fault.lift (num.log b)
    let byExponent ← Fault.lift (num.mul power logarithm)
    let exponentAdjoint ← Fault.lift (num.mul adjoint byExponent)
    exponent.gradientFrom num exponentAdjoint grads
  | neg operand, adjoint, grads => do
    let negated ← Fault.lift (num.negate adjoint)
    operand.gradientFrom num negated grads
  | log operand, adjoint, grads => do
    let x ← operand.evaluate num
    let operandAdjoint ← Fault.lift (num.div adjoint x)
    operand.gradientFrom num operandAdjoint grads
  | foreign value, _, _ => .error (.notNode ⟨value⟩)

/-- The derivative of a tree by every variable that occurs in it. A variable whose
contributions cancel has an entry too. -/
def gradient (num : Arithmetic α ε) (expr : Expr α) : Except (Fault α ε) (IdMap α) := do
  let one ← Fault.lift (num.ofInt 1)
  expr.gradientFrom num one IdMap.empty

end Autodiff.Expr
