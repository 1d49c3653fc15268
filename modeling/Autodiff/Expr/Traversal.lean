import Autodiff.Expr.Basic
import Autodiff.IdMap

/-!
# Walks over the nodes of a tree

A tree is listed once per node occurrence, in two orders: parent before operands
(`preorder`), by a loop over a stack of waiting subtrees, and operands before parent
(`postorder`), by recursion. Both stop at the leftmost foreign value.

* `Expr.walk` is the loop; the total size of the waiting subtrees bounds it;
* `Expr.variableIds` lists the ids of the variables in the order of their first leaf.
-/

namespace Autodiff.Expr

variable {α : Type}

/-! ## Parent first -/

/-- Take the top of the stack, list it, and let its operands wait in its place. -/
def walk : List (Expr α) → Except (NotNode α) (List (Expr α))
  | [] => .ok []
  | node :: waiting =>
    match _hOperands : node.operands with
    | .error e => .error e
    | .ok children =>
      match walk (children ++ waiting) with
      | .error e => .error e
      | .ok later => .ok (node :: later)
termination_by stack => totalSize stack
decreasing_by
  have := size_operands _hOperands
  simp only [totalSize_append, totalSize]
  omega

/-- Every node occurrence, a parent before its operands and a left operand before a
right one. -/
def preorder (expr : Expr α) : Except (NotNode α) (List (Expr α)) := walk [expr]

/-! ## Operands first -/

/-- Every node occurrence, the operands before the node that uses them; the root is
last. A subtree that occurs twice is listed twice. -/
def postorder : Expr α → Except (NotNode α) (List (Expr α))
  | var id data => .ok [var id data]
  | lit data => .ok [lit data]
  | const n => .ok [const n]
  | binary op left right => do
    let before ← left.postorder
    let between ← right.postorder
    return before ++ between ++ [binary op left right]
  | unary fn operand => do
    let before ← operand.postorder
    return before ++ [unary fn operand]
  | foreign value => .error ⟨value⟩

/-! ## Variables -/

def id? : Expr α → Option String
  | var id _ => some id
  | _ => none

/-- The distinct ids of a list, in the order of their first occurrence. -/
def distinct (ids : List String) : List String :=
  (ids.foldl (fun seen id => seen.insert id ()) IdMap.empty).ids

/-- The ids of the variables, in the order in which they are first reached. -/
def variableIds (expr : Expr α) : Except (NotNode α) (List String) := do
  let nodes ← expr.preorder
  return distinct (nodes.filterMap id?)

end Autodiff.Expr
