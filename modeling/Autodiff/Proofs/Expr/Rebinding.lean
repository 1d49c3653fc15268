import Autodiff.Expr.Substitute
import Autodiff.Proofs.Outcome

/-!
# Rebinding as a total function

Only a foreign value stops `Expr.substitute`. On a genuine tree it is the function
`Expr.rebound`, which keeps the shape.

* `substitute_eq_rebound` says so;
* `rebound_rebound` says that rebinding twice is rebinding once with the newer values written
  over the older ones, and `rebound_empty` that without bindings nothing changes.
-/

namespace Autodiff

theorem IdMap.get?_ofList_singleton {β : Type} (id other : String) (value : β) :
    (IdMap.ofList [(id, value)]).get? other = if other = id then some value else none :=
  get?_insert empty id other value

namespace Expr

variable {α : Type}

/-- The tree with the bound values in the place of the old ones. -/
def rebound (bindings : IdMap α) : Expr α → Expr α
  | var id data => var id ((bindings.get? id).getD data)
  | lit data => lit data
  | const n => const n
  | binary op left right => binary op (left.rebound bindings) (right.rebound bindings)
  | unary fn operand => unary fn (operand.rebound bindings)
  | foreign value => foreign value

theorem substitute_eq_rebound (bindings : IdMap α) {expr : Expr α} (hGenuine : expr.Genuine) :
    expr.substitute bindings = .ok (expr.rebound bindings) := by
  induction expr with
  | var | lit | const => rfl
  | foreign => exact hGenuine.elim
  | binary op left right ihLeft ihRight =>
    simp only [substitute, ihLeft hGenuine.1, ihRight hGenuine.2, ok_bind]
    rfl
  | unary fn operand ih =>
    simp only [substitute, ih hGenuine, ok_bind]
    rfl

theorem Genuine.rebound {expr : Expr α} (hGenuine : expr.Genuine) (bindings : IdMap α) :
    (expr.rebound bindings).Genuine := by
  induction expr with
  | var | lit | const => trivial
  | foreign => exact hGenuine.elim
  | binary op left right ihLeft ihRight => exact ⟨ihLeft hGenuine.1, ihRight hGenuine.2⟩
  | unary fn operand ih => exact ih hGenuine

theorem rebound_empty (expr : Expr α) : expr.rebound IdMap.empty = expr := by
  induction expr with
  | var | lit | const | foreign => rfl
  | binary op left right ihLeft ihRight => rw [Expr.rebound, ihLeft, ihRight]
  | unary fn operand ih => rw [Expr.rebound, ih]

/-- The newer value of a variable stays, and an older one where there is no newer one. -/
theorem rebound_rebound (older newer : IdMap α) (expr : Expr α) :
    (expr.rebound older).rebound newer = expr.rebound (older.override newer) := by
  induction expr with
  | var id data =>
    rw [Expr.rebound, Expr.rebound, Expr.rebound, IdMap.get?_override]
    cases newer.get? id <;> rfl
  | lit | const | foreign => rfl
  | binary op left right ihLeft ihRight =>
    rw [Expr.rebound, Expr.rebound, ihLeft, ihRight, Expr.rebound]
  | unary fn operand ih => rw [Expr.rebound, Expr.rebound, ih, Expr.rebound]

end Expr

end Autodiff
