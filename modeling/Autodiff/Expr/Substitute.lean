import Autodiff.Expr.Basic
import Autodiff.IdMap

/-!
# Rebinding variables

`Expr.substitute` gives the variables of a tree new values and keeps everything else.

* `Expr.substitute_empty` says that without bindings a genuine tree stays as it is.
-/

namespace Autodiff.Expr

variable {α : Type}

/-- Replace the value of every variable whose id is bound. -/
def substitute (bindings : IdMap α) : Expr α → Except (NotNode α) (Expr α)
  | var id data => .ok (var id ((bindings.get? id).getD data))
  | lit data => .ok (lit data)
  | const n => .ok (const n)
  | binary op left right => do
    let newLeft ← left.substitute bindings
    let newRight ← right.substitute bindings
    return binary op newLeft newRight
  | unary fn operand => do
    let newOperand ← operand.substitute bindings
    return unary fn newOperand
  | foreign value => .error ⟨value⟩

theorem substitute_empty {expr : Expr α} (hGenuine : expr.Genuine) :
    expr.substitute IdMap.empty = .ok expr := by
  induction expr with
  | var | lit | const => rfl
  | foreign => exact hGenuine.elim
  | binary op left right ihLeft ihRight =>
    simp only [substitute, ihLeft hGenuine.1, ihRight hGenuine.2]
    rfl
  | unary fn operand ih =>
    simp only [substitute, ih hGenuine]
    rfl

end Autodiff.Expr
