import Autodiff.Decimal.Text
import Autodiff.Expr.Basic
import Autodiff.Text.Quoted

/-!
# Scalar values

The leaves of a tree hold values of different kinds: integers of any size, the builtin
binary number, numbers of the three interchange widths, decimal numbers, and also text,
truth values and nothing at all, which no arithmetic was made for.

* `Scalar.text` is the bare text of a value, `Scalar.literalText` the text that shows
  its kind.
-/

namespace Autodiff

/-- The widths of the interchange formats. -/
inductive Width where
  | double
  | single
  | half
  deriving DecidableEq

namespace Width

def format : Width → Format
  | double => .double
  | single => .single
  | half => .half

def name : Width → String
  | double => "float64"
  | single => "float32"
  | half => "float16"

def max : Width → Width → Width
  | double, _ => double
  | _, double => double
  | single, _ => single
  | _, single => single
  | half, half => half

end Width

/-- A value of one of the kinds. -/
inductive Scalar where
  | int (n : Int)
  /-- A builtin number: a double. -/
  | float (x : Binary .double)
  /-- A number of an interchange width. -/
  | ieee (width : Width) (x : Binary width.format)
  | decimal (x : Decimal)
  | text (content : String)
  | bool (value : Bool)
  /-- No value. -/
  | nothing
  deriving DecidableEq

inductive Kind where
  | int
  | float
  | ieee (width : Width)
  | decimal
  | text
  | bool
  | nothing
  deriving DecidableEq

namespace Kind

/-- The plain name of a kind. -/
def name : Kind → String
  | int => "int"
  | float => "float"
  | ieee width => width.name
  | decimal => "Decimal"
  | text => "str"
  | bool => "bool"
  | nothing => "NoneType"

/-- The name of a kind with the library it comes from. -/
def qualifiedName : Kind → String
  | ieee width => "numpy." ++ width.name
  | decimal => "decimal.Decimal"
  | kind => kind.name

/-- The name of a kind as an operand: the numbers of the interchange widths take part as
builtin numbers. -/
def operandName : Kind → String
  | ieee _ => float.name
  | kind => kind.qualifiedName

end Kind

namespace Scalar

def kind : Scalar → Kind
  | int _ => .int
  | float _ => .float
  | ieee width _ => .ieee width
  | decimal _ => .decimal
  | text _ => .text
  | bool _ => .bool
  | nothing => .nothing

/-- The plain name of the kind of a value. -/
def typeName (x : Scalar) : String := x.kind.name

/-- The bare text of a value. -/
def write : Scalar → String
  | int n => Text.intText n
  | float x => x.text
  | ieee _ x => x.text
  | decimal x => x.text
  | text content => content
  | bool value => if value then "True" else "False"
  | nothing => "None"

/-- The text of a value that shows its kind. -/
def writeLiteral : Scalar → String
  | ieee width x => "np." ++ width.name ++ "(" ++ x.text ++ ")"
  | decimal x => "Decimal('" ++ x.text ++ "')"
  | text content => Text.Quoted.encode content
  | value => value.write

end Scalar

end Autodiff
