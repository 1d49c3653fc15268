import Autodiff.Expr.ConstructorForm
import Autodiff.Expr.Equality
import Autodiff.Expr.Traversal
import Autodiff.Failure
import Autodiff.Gradient.Symbolic
import Autodiff.Gradient.Trace
import Autodiff.Scalar.Equality
import Autodiff.Scalar.Literal

/-!
# Questions about expressions

The operations on expressions over scalars, with the capability to compute with as an
argument and every failure in one type.

* `Query.report` gathers what is asked of a text at once: its tree, the value, the
  gradient, and the symbolic derivatives with their values.
-/

namespace Autodiff.Query

/-- An outcome with its error turned into a failure. -/
def orFail {ε β : Type} (toFailure : ε → Failure) : Except ε β → Except Failure β
  | .ok answer => .ok answer
  | .error cause => .error (toFailure cause)

/-- The capability with a name. The 16-bit width is known though it is not registered. -/
def capability (name : String) : Except Failure Capability :=
  if name = Width.half.name then .ok (.ieee .half)
  else orFail .lookup (Capability.find name)

/-! ## Reading and writing -/

/-- The tree of a text, with values for the names and a format for the numbers. -/
def parse (source : String) (values : IdMap Scalar) (format : LiteralFormat) :
    Except Failure (Expr Scalar) :=
  orFail .parse (Syntax.parse ⟨values, format.read⟩ source)

def infixText (e : Expr Scalar) : Except Failure String :=
  orFail .ofNotNode (e.infixText Scalar.write)

def variableIds (e : Expr Scalar) : Except Failure (List String) :=
  orFail .ofNotNode e.variableIds

/-- The tree with new values for its variables. -/
def substitute (e : Expr Scalar) (bindings : IdMap Scalar) : Except Failure (Expr Scalar) :=
  orFail .ofNotNode (e.substitute bindings)

def equal (a b : Expr Scalar) : Except Failure Bool :=
  orFail .scalar (a.equal Scalar.equal b)

/-! ## Nodes -/

/-- The lists of nodes of a tree. -/
structure Nodes where
  ids : List String
  children : List (Expr Scalar)
  preorder : List (Expr Scalar)
  postorder : List (Expr Scalar)

/-- The variables, the operands and the nodes of a tree in both orders. -/
def nodes (e : Expr Scalar) : Except Failure Nodes := do
  let ids ← variableIds e
  let children ← orFail .ofNotNode e.operands
  let preorder ← orFail .ofNotNode e.preorder
  let postorder ← orFail .ofNotNode e.postorder
  return ⟨ids, children, preorder, postorder⟩

/-- The class and the label of a node. -/
def nodeSummary (e : Expr Scalar) : String × String :=
  (e.className Scalar.typeName, e.label Scalar.write)

/-! ## Computing -/

def evaluate (capability : Capability) (e : Expr Scalar) : Except Failure Scalar :=
  orFail .ofFault (e.evaluate capability.arithmetic)

/-- The gradient of a tree in numbers. -/
def gradient (capability : Capability) (e : Expr Scalar) : Except Failure (IdMap Scalar) :=
  orFail .ofFault (e.gradient capability.arithmetic)

/-- The gradient of a tree in expressions. -/
def symbolicGradient (e : Expr Scalar) : Except Failure (IdMap (Expr Scalar)) :=
  orFail .ofNotNode e.symbolicGradient

/-- Value and gradient of a tree with new values for its variables. -/
def trace (capability : Capability) (e : Expr Scalar) (bindings : IdMap Scalar) :
    Except Failure (Traced Scalar) :=
  orFail .ofFault (e.trace capability.arithmetic bindings)

def draw (capability : Capability) (formatName : String) (grads : IdMap Scalar)
    (e : Expr Scalar) : Except Failure String :=
  orFail .ofDrawError
    (Graph.draw ⟨capability.arithmetic, Scalar.write, Scalar.toDouble, grads⟩ formatName e)

/-- The methods of a capability. -/
inductive Method where
  | binary (op : Op) (x y : Scalar)
  | log (x : Scalar)
  | ofInt (n : Int)

/-- The result of a method of a capability. -/
def call (capability : Capability) (method : Method) : Except Failure Scalar :=
  orFail .scalar <|
    match method with
    | .binary op x y => capability.arithmetic.apply op x y
    | .log x => capability.arithmetic.log x
    | .ofInt n => capability.arithmetic.ofInt n

/-! ## Reports -/

/-- A derivative: its id, its text and its value. -/
structure Derivative where
  id : String
  text : String
  value : Except Failure Scalar

/-- What is asked of an expression at once. -/
structure Report where
  text : String
  value : Except Failure Scalar
  grads : Except Failure (IdMap Scalar)
  symbolic : List Derivative

/-- The entry of a report for one derivative. -/
def describeDerivative (capability : Capability) (id : String) (e : Expr Scalar) :
    Except Failure Derivative := do
  let text ← infixText e
  return ⟨id, text, evaluate capability e⟩

def report (capability : Capability) (e : Expr Scalar) : Except Failure Report := do
  let text ← infixText e
  let entries ← symbolicGradient e
  let symbolic ← entries.entries.mapM fun (id, entry) => describeDerivative capability id entry
  return ⟨text, evaluate capability e, gradient capability e, symbolic⟩

end Autodiff.Query
