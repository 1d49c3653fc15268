import Autodiff.Graph.Basic
import Autodiff.Text.Numeral

/-!
# The listing of a tree

The text view of a tree: a heading and one row per node, the root first. A row is
labelled by the id of a variable or by the number of another node, and an operator row
ends with its operands by their labels.

* `Graph.Row` is a row, and `Graph.Row.text` its text;
* `Graph.Picture.rows` computes the rows from the root to the leaves.
-/

namespace Autodiff.Graph

/-- A row of the listing. -/
structure Row where
  label : String
  description : String
  /-- The operator and the labels of its operands, if there are any. -/
  operation : Option (String × List String)
  deriving DecidableEq

/-- A text with spaces in front up to a width. -/
def alignRight (width : Nat) (text : String) : String :=
  String.ofList (List.replicate (width - text.length) ' ') ++ text

/-- The width of the column of labels. -/
def labelWidth : Nat := 10

def Row.text (row : Row) : String :=
  let operation := match row.operation with
    | some (operator, labels) => " = " ++ operator ++ "(" ++ ", ".intercalate labels ++ ")"
    | none => ""
  alignRight labelWidth row.label ++ ": " ++ row.description ++ operation

/-- The label of a node: the id of a variable, or a letter with the number. -/
def labelOf {α : Type} (number : Nat) : Expr α → String
  | .var id _ => id
  | _ => "v" ++ Text.natText number

/-- The labels of the nodes, in the order of their numbers. -/
def labels {α : Type} (entries : List (Entry α)) : List String :=
  entries.zipIdx.map fun (entry, number) => labelOf number entry.node

namespace Picture

variable {α ε : Type}

def row (picture : Picture α ε) (labels : List String) (entry : Entry α) (number : Nat) :
    Except (Fault α ε) Row := do
  let description ← picture.describe ", " entry.node
  let operation := if entry.operands.isEmpty then none
    else some (entry.node.label picture.text,
      entry.operands.map fun operand => (labels[operand]?).getD "")
  return ⟨labelOf number entry.node, description, operation⟩

/-- The rows of a tree, the root first. -/
def rows (picture : Picture α ε) (entries : List (Entry α)) : Except (Fault α ε) (List Row) :=
  entries.zipIdx.reverse.mapM fun (entry, number) => picture.row (labels entries) entry number

def heading : List String := ["Expression Graph:", String.ofList (List.replicate 50 '=')]

def listing (picture : Picture α ε) (entries : List (Entry α)) : Except (Fault α ε) String := do
  let rows ← picture.rows entries
  return "\n".intercalate (heading ++ rows.map Row.text)

end Picture

end Autodiff.Graph
