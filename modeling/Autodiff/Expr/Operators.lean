import Autodiff.Expr.Printer
import Autodiff.Scalar.Datum

/-!
# Building trees

Two ways to join expressions with bare values. The builders wrap any value in a literal.
The operators wrap numbers only, and refuse texts and nothing; a number of an interchange
width to the left of an operator becomes a builtin double.

* `Operand.wrap` is the rule of the builders;
* `Expr.operate` is the rule of the operators.
-/

namespace Autodiff

/-- An expression, or a bare value in the place of one. -/
inductive Operand where
  | expr (e : Expr Datum)
  | raw (datum : Datum)

namespace Operand

/-- The expression; a bare value becomes a literal. -/
def wrap : Operand → Expr Datum
  | expr e => e
  | raw datum => .lit datum

/-- The expression; a bare value is left standing for a node. -/
def node : Operand → Expr Datum
  | expr e => e
  | raw datum => .foreign datum

end Operand

/-- Why an operator does not join an expression and a bare value. -/
inductive OperandError where
  | unsupported (op : Op) (left right : String)
  | notText (right : String)
  | notCount (other : String)
  | noExpression
  deriving DecidableEq

/-- The sign of an operator in messages. -/
def Op.operatorName : Op → String
  | .pow => "** or pow()"
  | op => op.symbol

def OperandError.message : OperandError → String
  | unsupported op left right =>
    "unsupported operand type(s) for " ++ op.operatorName ++ ": '" ++ left ++ "' and '" ++
      right ++ "'"
  | notText right => "can only concatenate str (not \"" ++ right ++ "\") to str"
  | notCount other => "can't multiply sequence by non-int of type '" ++ other ++ "'"
  | noExpression => "no operand is an expression"

namespace Scalar

def isNumber : Scalar → Bool
  | text _ => false
  | nothing => false
  | _ => true

/-- The value as it reaches an expression on its right: a number of an interchange width
is handed over as a builtin double. -/
def handedOver : Scalar → Scalar
  | ieee _ x => float (x.convert .double)
  | value => value

end Scalar

/-- The datum as it reaches an expression on its right. -/
def Datum.handedOver (datum : Datum) : Datum := ⟨datum.value.handedOver, datum.entry⟩

namespace Expr

/-- The name of the type of a tree in messages. -/
def typeName (e : Expr Datum) : String := e.className fun datum => datum.value.typeName

/-- An operator between two operands, at least one of which is an expression. -/
def operate (op : Op) : Operand → Operand → Except OperandError (Expr Datum)
  | .expr left, .expr right => .ok (binary op left right)
  | .expr left, .raw datum =>
    if datum.value.isNumber then .ok (binary op left (lit datum))
    else
      match op, datum.value with
      | .mul, .text _ => .error (.notCount left.typeName)
      | _, value => .error (.unsupported op left.typeName value.kind.operandName)
  | .raw datum, .expr right =>
    if datum.value.isNumber then .ok (binary op (lit datum.handedOver) right)
    else
      match op, datum.value with
      | .add, .text _ => .error (.notText right.typeName)
      | .mul, .text _ => .error (.notCount right.typeName)
      | _, value => .error (.unsupported op value.kind.operandName right.typeName)
  | .raw _, .raw _ => .error .noExpression

end Expr

end Autodiff
