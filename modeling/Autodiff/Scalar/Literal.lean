import Autodiff.Scalar.Conversion

/-!
# Scalars from numerals

How the numerals of an expression text become scalars of a chosen kind.

* `LiteralFormat.read` reads a numeral; `LiteralFormat.find?` knows the names of the
  formats.
-/

namespace Autodiff

/-- The kinds of scalars that a numeral can become. -/
inductive LiteralFormat where
  | float
  | ieee (width : Width)
  | decimal
  | int
  /-- The numeral stays a text. -/
  | text
  deriving DecidableEq

namespace LiteralFormat

/-- Read an integer: digits of any script with an optional sign. -/
def readInt (numeral : String) : Except ScalarError Scalar :=
  let (negative, run) := Text.splitSign (Text.trim Text.isBlank numeral.toList)
  if run = [] ∨ ¬run.all Text.isDigit then .error (.notInteger numeral)
  else .ok (.int (if negative then -(Text.ofDigits run : Int) else Text.ofDigits run))

/-- Read a numeral as a scalar of the kind. -/
def read (format : LiteralFormat) (numeral : String) : Except ScalarError Scalar :=
  match format with
  | float => (Scalar.text numeral).toDouble.map .float
  | ieee width => ((Scalar.text numeral).toWidth width).map (.ieee width)
  | decimal => (Scalar.text numeral).toDecimal.map .decimal
  | int => readInt numeral
  | text => .ok (.text numeral)

def find? (name : String) : Option LiteralFormat :=
  if name = "float" then some float
  else if name = "float64" then some (ieee .double)
  else if name = "float32" then some (ieee .single)
  else if name = "decimal" then some decimal
  else if name = "int" then some int
  else if name = "str" then some text
  else none

end LiteralFormat

end Autodiff
