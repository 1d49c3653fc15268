import Autodiff.Graph.Basic
import Autodiff.Text.Numeral

/-!
# The graph of a tree in DOT

A directed graph with one node statement per node of the tree, in the order of the
numbers, each followed by the edges from its operands. Labels are quoted as they are.

* `Dot.Statement` is a statement, and `Dot.Statement.text` its line;
* `Graph.Picture.statements` computes the statements between the first lines and the
  closing brace.
-/

namespace Autodiff.Graph

namespace Dot

/-- The shape of a node: a box for a leaf. -/
inductive Shape where
  | box
  | circle
  deriving DecidableEq

def Shape.name : Shape → String
  | box => "box"
  | circle => "circle"

/-- A statement of the graph. -/
inductive Statement where
  /-- A node with its label, the text below the label, and its shape. -/
  | node (number : Nat) (label description : String) (shape : Shape)
  /-- An edge from an operand to the node that uses it. -/
  | edge (source target : Nat)
  deriving DecidableEq

/-- The escape for a line break inside a label. -/
def lineBreak : String := "\\n"

def Statement.text : Statement → String
  | node number label description shape =>
    "  n" ++ Text.natText number ++ " [label=\"" ++ label ++ lineBreak ++ description ++
      "\", shape=" ++ shape.name ++ "];"
  | edge source target => "  n" ++ Text.natText source ++ " -> n" ++ Text.natText target ++ ";"

/-- The lines before the statements. -/
def opening : List String := ["digraph G \x7b", "  rankdir=LR;"]

/-- The line after the statements. -/
def closing : String := "\x7d"

end Dot

namespace Picture

variable {α ε : Type}

/-- The statements of a node: the node itself and the edges from its operands. -/
def nodeStatements (picture : Picture α ε) (entry : Entry α) (number : Nat) :
    Except (Fault α ε) (List Dot.Statement) := do
  let description ← picture.describe Dot.lineBreak entry.node
  let shape := if entry.operands.isEmpty then .box else .circle
  return .node number (entry.node.label picture.text) description shape ::
    entry.operands.map fun operand => .edge operand number

/-- The statements of a tree, in the order of the numbers. -/
def statements (picture : Picture α ε) (entries : List (Entry α)) :
    Except (Fault α ε) (List Dot.Statement) := do
  let groups ← entries.zipIdx.mapM fun (entry, number) => picture.nodeStatements entry number
  return groups.flatten

def dot (picture : Picture α ε) (entries : List (Entry α)) : Except (Fault α ε) String := do
  let statements ← picture.statements entries
  return "\n".intercalate (Dot.opening ++ statements.map Dot.Statement.text ++ [Dot.closing])

end Picture

end Autodiff.Graph
