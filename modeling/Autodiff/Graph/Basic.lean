import Autodiff.Binary.Text
import Autodiff.Expr.Eval
import Autodiff.Expr.Printer
import Autodiff.Graph.Numbering
import Autodiff.IdMap
import Autodiff.Text.Quoted

/-!
# What is shown of a node

Every node shows its value, and a variable with an entry in the gradient map its
gradient too; both as doubles with four places.

* `Graph.Picture` holds the ingredients of a drawing, and `Graph.Picture.describe` the
  text of a node.
-/

namespace Autodiff.Graph

/-- The ingredients of a drawing. -/
structure Picture (α ε : Type) where
  /-- The arithmetic that computes the values of the nodes. -/
  num : Arithmetic α ε
  text : α → String
  /-- The double that is shown for a value. -/
  toDouble : α → Except ε (Binary .double)
  grads : IdMap α

namespace Picture

variable {α ε : Type}

/-- A value as a double with four places. -/
def shown (picture : Picture α ε) (value : α) : Except (Fault α ε) String := do
  let x ← Fault.lift (picture.toDouble value)
  return x.fixedText 4

/-- The gradient that a node shows. -/
def gradient? (picture : Picture α ε) : Expr α → Option α
  | .var id _ => picture.grads.get? id
  | _ => none

/-- The value of a node and its gradient, with a separator between them. -/
def describe (picture : Picture α ε) (separator : String) (node : Expr α) :
    Except (Fault α ε) String := do
  let value ← node.evaluate picture.num
  let data ← picture.shown value
  match picture.gradient? node with
  | some slope => do
    let grad ← picture.shown slope
    return "data=" ++ data ++ separator ++ "grad=" ++ grad
  | none => return "data=" ++ data

end Picture

end Autodiff.Graph
