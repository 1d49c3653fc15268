import Autodiff.Graph.Dot
import Autodiff.Graph.Listing

/-!
# Drawing a tree

A tree is drawn in one of two formats, chosen by name. The name is checked first, then
the tree is numbered, and then the nodes are computed: from the root on in a listing,
from the first leaf on in a graph.

* `Graph.draw` draws a tree.
-/

namespace Autodiff.Graph

/-- The formats of a drawing. -/
inductive DrawFormat where
  | text
  | dot
  deriving DecidableEq

def DrawFormat.find? (name : String) : Option DrawFormat :=
  if name = "text" then some text else if name = "dot" then some dot else none

/-- Why a tree is not drawn. -/
inductive DrawError (α ε : Type) where
  | unknownFormat (name : String)
  /-- The tree cannot be computed or shown. -/
  | fault (cause : Fault α ε)
  deriving DecidableEq

variable {α ε : Type}

/-- The drawing of a tree in a format. -/
def Picture.drawAs (picture : Picture α ε) (format : DrawFormat) (root : Expr α) :
    Except (Fault α ε) String := do
  let entries ← Fault.liftWalk (number root)
  match format with
  | .text => picture.listing entries
  | .dot => picture.dot entries

/-- The drawing of a tree in the format with a name. -/
def draw (picture : Picture α ε) (formatName : String) (root : Expr α) :
    Except (DrawError α ε) String :=
  match DrawFormat.find? formatName with
  | none => .error (.unknownFormat formatName)
  | some format =>
    match picture.drawAs format root with
    | .ok drawing => .ok drawing
    | .error cause => .error (.fault cause)

end Autodiff.Graph
