import Autodiff.Decimal.Arithmetic
import Autodiff.Scalar.Basic

/-!
# Errors of scalar operations

The causes for which an operation on scalars has no result, and their wording.

* `Element` is what the arithmetic of the interchange widths sees of an operand: the
  errors of a number of a width with a text show it.
-/

namespace Autodiff

/-- What an operand is to the arithmetic of the interchange widths. -/
inductive Element where
  | ieee (width : Width)
  /-- A text of a number of characters. -/
  | text (length : Nat)
  deriving DecidableEq

/-- The name of an element. The empty text takes the room of one character. -/
def Element.name : Element → String
  | ieee width => width.name
  | text length => "<U" ++ Text.natText (max 1 length)

/-- The name of an operator as an operation on elements. -/
def Op.verb : Op → String
  | .add => "add"
  | .sub => "subtract"
  | .mul => "multiply"
  | .div => "divide"
  | .pow => "power"

/-- Why an operation on scalars has no result. -/
inductive ScalarError where
  /-- No rule combines the kinds of the two operands. -/
  | unsupported (op : Op) (left right : Kind)
  /-- No rule of the interchange widths combines the two elements. -/
  | noElementRule (op : Op) (left right : Element)
  /-- No rule of the interchange widths can take the two elements as numbers. -/
  | notElementNumbers (op : Op)
  /-- A text is joined with something else. -/
  | notText (right : Kind)
  /-- A text is repeated a number of times that is no integer. -/
  | notCount (other : Kind)
  /-- The count of a repetition is beyond every length. -/
  | countTooLarge
  /-- A repeated text is longer than every length. -/
  | textTooLong
  /-- A repeated text does not fit into memory. -/
  | outOfMemory
  | notReal (kind : Kind)
  /-- The value is neither text nor a real number. -/
  | notNumeric (kind : Kind)
  | notDecimal (kind : Kind)
  | unreadable (source : String)
  | notInteger (source : String)
  /-- A signaling not-a-number has no binary counterpart. -/
  | signaling
  /-- An integer is beyond every double. -/
  | intTooLarge
  /-- A quotient of integers is beyond every double. -/
  | quotientTooLarge
  | intDivisionByZero
  | floatDivisionByZero
  | outsideDomain
  /-- The value of a function is beyond every double. -/
  | outsideRange
  /-- A text has no decimal syntax. -/
  | decimalSyntax
  | decimal (signal : Decimal.Signal)
  deriving DecidableEq

namespace Decimal.Signal

def name : Signal → String
  | invalidOperation => "InvalidOperation"
  | divisionUndefined => "DivisionUndefined"
  | divisionByZero => "DivisionByZero"
  | overflow => "Overflow"

end Decimal.Signal

namespace ScalarError

/-- The list of the single condition that a decimal operation met. -/
def conditionText (condition : String) : String := "[<class 'decimal." ++ condition ++ "'>]"

/-- An element in a message. -/
def elementText (element : Element) : String := "dtype('" ++ element.name ++ "')"

/-- How much of a text that is no integer is shown, its quotes included. -/
def shownLength : Nat := 200

def message : ScalarError → String
  | unsupported op left right =>
    "unsupported operand type(s) for " ++ op.symbol ++ ": '" ++ left.operandName ++
      "' and '" ++ right.operandName ++ "'"
  | noElementRule op left right =>
    "ufunc '" ++ op.verb ++ "' did not contain a loop with signature matching types (" ++
      elementText left ++ ", " ++ elementText right ++ ") -> None"
  | notElementNumbers op =>
    "ufunc '" ++ op.verb ++ "' not supported for the input types, and the inputs could not be " ++
      "safely coerced to any supported types according to the casting rule ''safe''"
  | notText right => "can only concatenate str (not \"" ++ right.qualifiedName ++ "\") to str"
  | notCount other =>
    "can't multiply sequence by non-int of type '" ++ other.qualifiedName ++ "'"
  | countTooLarge => "cannot fit 'int' into an index-sized integer"
  | textTooLong => "repeated string is too long"
  | outOfMemory => ""
  | notReal kind => "must be real number, not " ++ kind.name
  | notNumeric kind =>
    "float() argument must be a string or a real number, not '" ++ kind.name ++ "'"
  | notDecimal kind =>
    "conversion from " ++ kind.qualifiedName ++ " to Decimal is not supported"
  | unreadable source => "could not convert string to float: " ++ Text.Quoted.encode source
  | notInteger source =>
    "invalid literal for int() with base 10: " ++
      String.ofList ((Text.Quoted.encode source).toList.take shownLength)
  | signaling => "cannot convert signaling NaN to float"
  | intTooLarge => "int too large to convert to float"
  | quotientTooLarge => "integer division result too large for a float"
  | intDivisionByZero => "division by zero"
  | floatDivisionByZero => "float division by zero"
  | outsideDomain => "math domain error"
  | outsideRange => "math range error"
  | decimalSyntax => conditionText "ConversionSyntax"
  | decimal signal => conditionText signal.name

end ScalarError

end Autodiff
