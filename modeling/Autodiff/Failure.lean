import Autodiff.Capability.Registry
import Autodiff.Expr.Operators
import Autodiff.Graph.Draw
import Autodiff.Syntax.Parser

/-!
# Failures

Every cause for which an operation of the library has no answer, in one type, with its
message.
-/

namespace Autodiff

/-- Why there is no answer. -/
inductive Failure where
  | notNode (kind : Kind)
  | scalar (cause : ScalarError)
  | parse (cause : Syntax.ParseError ScalarError)
  | lookup (cause : LookupError)
  /-- An operator does not take its operands. -/
  | operand (cause : OperandError)
  | unknownFormat (name : String)
  /-- A gradient has no entry for an id. -/
  | missingId (id : String)
  /-- No expression is kept under a name. -/
  | missingRegister (name : String)
  deriving DecidableEq

namespace Failure

def ofNotNode (found : NotNode Scalar) : Failure := notNode found.value.kind

def ofNotNodeKept (found : NotNode Datum) : Failure := notNode found.value.value.kind

def ofFault : Fault Scalar ScalarError → Failure
  | .notNode found => ofNotNode found
  | .arithmetic cause => scalar cause

def ofDrawError : Graph.DrawError Scalar ScalarError → Failure
  | .unknownFormat name => unknownFormat name
  | .fault cause => ofFault cause

def message : Failure → String
  | notNode kind => "Not an expression node: " ++ kind.name
  | scalar cause => cause.message
  | parse cause => cause.message ScalarError.message
  | lookup cause => cause.message
  | operand cause => cause.message
  | unknownFormat name => "Unknown graph format: " ++ Text.Quoted.encode name
  | missingId id => id
  | missingRegister name => "no register " ++ name

end Failure

end Autodiff
