import Autodiff.Expr.Traversal
import Autodiff.Proofs.Outcome

/-!
# Orders of the nodes

The order in which a tree lists its nodes, as a total function: a foreign value is listed like a
leaf. On a genuine tree, where nothing stops the walk, it is what the walk lists.

* `Expr.postfixNodes` lists the operands of a node before the node, and `postorder_eq` says that
  this is the order of the recursive walk;
* `Genuine.of_mem_postfixNodes` says that the nodes of a genuine tree are genuine.
-/

namespace Autodiff.Expr

variable {α : Type}

/-- The nodes of a tree, those of the operands first and from left to right. -/
def postfixNodes : Expr α → List (Expr α)
  | var id data => [var id data]
  | lit data => [lit data]
  | const n => [const n]
  | binary op left right => left.postfixNodes ++ right.postfixNodes ++ [binary op left right]
  | unary fn operand => operand.postfixNodes ++ [unary fn operand]
  | foreign value => [foreign value]

theorem postorder_eq {expr : Expr α} (hGenuine : expr.Genuine) :
    expr.postorder = .ok expr.postfixNodes := by
  induction expr with
  | var | lit | const => rfl
  | foreign => exact hGenuine.elim
  | binary op left right ihLeft ihRight =>
    rw [postorder, ihLeft hGenuine.1, ihRight hGenuine.2]
    rfl
  | unary fn operand ih =>
    rw [postorder, ih hGenuine]
    rfl

theorem Genuine.of_mem_postfixNodes {expr node : Expr α} (hGenuine : expr.Genuine)
    (hMem : node ∈ expr.postfixNodes) : node.Genuine := by
  induction expr with
  | var | lit | const => exact List.mem_singleton.1 hMem ▸ hGenuine
  | foreign => exact hGenuine.elim
  | binary op left right ihLeft ihRight =>
    rw [postfixNodes, List.mem_append, List.mem_append, List.mem_singleton] at hMem
    rcases hMem with (hLeft | hRight) | rfl
    · exact ihLeft hGenuine.1 hLeft
    · exact ihRight hGenuine.2 hRight
    · exact hGenuine
  | unary fn operand ih =>
    rw [postfixNodes, List.mem_append, List.mem_singleton] at hMem
    rcases hMem with hOperand | rfl
    · exact ih hGenuine hOperand
    · exact hGenuine

end Autodiff.Expr
