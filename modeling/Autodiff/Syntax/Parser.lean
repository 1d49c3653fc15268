import Autodiff.Expr.Basic
import Autodiff.IdMap
import Autodiff.Syntax.Lexer

/-!
# From tokens to trees

The grammar, loosest first:

    sum     := product (('+' | '-') product)*
    product := power (('*' | '/') power)*
    power   := unary ('^' power)?
    unary   := '-' unary | primary
    primary := NUMBER | NAME | 'log' '(' sum ')' | '(' sum ')'

A minus sign binds tighter than a power, and powers group to the right. The parser is a
machine that takes one token after the other. For every open bracket it keeps what waits
for an operand on that level; the operand is complete once the next token is known not
to belong to it. A token that no accepted text has in its place is refused when it is
reached, whatever follows.

* `Parser.step` takes a token, `Parser.finish` the end of the text;
* `Parser.run_append` says that a text fails as soon as its beginning fails.
-/

namespace Autodiff.Syntax

/-- What an open bracket belongs to. -/
inductive Opener where
  | bracket
  | logarithm
  deriving DecidableEq

/-- Why a text is no expression. -/
inductive ParseError (ε : Type) where
  | character (e : LexError)
  | unexpectedEnd
  /-- A token stands where none of its kind can stand. -/
  | unexpectedToken (token : Token)
  | unknownVariable (name : String)
  /-- A bracket is not closed where its expression ends. -/
  | unclosed (opener : Opener)
  /-- The text of a number is refused. -/
  | conversion (cause : ε)
  deriving DecidableEq

def ParseError.message {ε : Type} (conversionMessage : ε → String) : ParseError ε → String
  | character e => e.message
  | unexpectedEnd => "Unexpected end of expression"
  | unexpectedToken token => "Unexpected token: " ++ token.text
  | unknownVariable name => "Unknown variable: " ++ name
  | unclosed .bracket => "Missing closing parenthesis"
  | unclosed .logarithm => "Missing closing parenthesis for log"
  | conversion cause => conversionMessage cause

/-- What names and numbers stand for. -/
structure Scope (α ε : Type) where
  values : IdMap α
  convert : String → Except ε α

/-- The variable of a name. -/
def Scope.leaf {α ε : Type} (scope : Scope α ε) (name : String) :
    Except (ParseError ε) (Expr α) :=
  match scope.values.get? name with
  | some value => .ok (.var name value)
  | none => .error (.unknownVariable name)

/-! ## What waits on a level -/

/-- The operators of one bracket level that wait for their right operand. -/
structure Pending (α : Type) where
  sum : Option (Expr α × Op)
  product : Option (Expr α × Op)
  /-- The bases of powers, innermost first. -/
  bases : List (Expr α)

namespace Pending

variable {α : Type}

/-- Nothing waits. -/
def empty : Pending α := ⟨none, none, []⟩

/-- A left operand joined with a right one, if there is one. -/
def join : Option (Expr α × Op) → Expr α → Expr α
  | none, right => right
  | some (left, op), right => .binary op left right

/-- The power that an operand completes. -/
def power (pending : Pending α) (operand : Expr α) : Expr α :=
  pending.bases.foldl (fun exponent base => .pow base exponent) operand

/-- The product that an operand completes. -/
def productOf (pending : Pending α) (operand : Expr α) : Expr α :=
  join pending.product (pending.power operand)

/-- The sum that an operand completes. -/
def sumOf (pending : Pending α) (operand : Expr α) : Expr α :=
  join pending.sum (pending.productOf operand)

/-- The operand is the base of a power. -/
def raise (pending : Pending α) (operand : Expr α) : Pending α :=
  { pending with bases := operand :: pending.bases }

/-- The operand completes the left operand of a product or quotient. -/
def multiply (pending : Pending α) (op : Op) (operand : Expr α) : Pending α :=
  ⟨pending.sum, some (pending.productOf operand, op), []⟩

/-- The operand completes the left operand of a sum or difference. -/
def extend (pending : Pending α) (op : Op) (operand : Expr α) : Pending α :=
  ⟨some (pending.sumOf operand, op), none, []⟩

end Pending

/-- An open bracket: what it belongs to, and what waits around it. -/
structure Frame (α : Type) where
  opener : Opener
  pending : Pending α
  /-- The number of minus signs before the bracket. -/
  negations : Nat

/-! ## The machine -/

/-- What the machine expects next. -/
inductive Expectation (α : Type) where
  /-- An operand must follow a number of minus signs. -/
  | operand (negations : Nat)
  /-- The name of the logarithm was read; a bracket makes it a call. -/
  | logarithm (negations : Nat)
  /-- An operand is read, its minus signs included. -/
  | operator (operand : Expr α)

/-- A state of the machine: the open brackets, innermost first, what waits on the
current level, and what is expected. -/
structure Parser (α : Type) where
  outer : List (Frame α)
  pending : Pending α
  expects : Expectation α

/-- An operand with a number of minus signs in front. -/
def negated {α : Type} : Nat → Expr α → Expr α
  | 0, operand => operand
  | count + 1, operand => .neg (negated count operand)

namespace Parser

variable {α ε : Type}

def start : Parser α := ⟨[], .empty, .operand 0⟩

/-- The state inside a new bracket. -/
def enter (parser : Parser α) (opener : Opener) (negations : Nat) : Parser α :=
  ⟨⟨opener, parser.pending, negations⟩ :: parser.outer, .empty, .operand 0⟩

/-- Take a token where an operand must follow. -/
def stepOperand (scope : Scope α ε) (parser : Parser α) (negations : Nat) :
    Token → Except (ParseError ε) (Parser α)
  | .symbol .minus => .ok { parser with expects := .operand (negations + 1) }
  | .symbol .opening => .ok (parser.enter .bracket negations)
  | .symbol sign => .error (.unexpectedToken (.symbol sign))
  | .number numeral =>
    match scope.convert numeral with
    | .ok value => .ok { parser with expects := .operator (negated negations (.lit value)) }
    | .error cause => .error (.conversion cause)
  | .name name =>
    if name = "log" then .ok { parser with expects := .logarithm negations }
    else do
      let operand ← scope.leaf name
      return { parser with expects := .operator (negated negations operand) }

/-- The error at a token where the expression of a level has ended. -/
def refuse (parser : Parser α) (token : Token) : ParseError ε :=
  match parser.outer with
  | [] => .unexpectedToken token
  | frame :: _ => .unclosed frame.opener

/-- The state after a closing bracket, the operand being the last one inside. -/
def leave (parser : Parser α) (operand : Expr α) : Except (ParseError ε) (Parser α) :=
  match parser.outer with
  | [] => .error (.unexpectedToken (.symbol .closing))
  | frame :: outer =>
    let inner := parser.pending.sumOf operand
    let primary := match frame.opener with
      | .bracket => inner
      | .logarithm => .log inner
    .ok ⟨outer, frame.pending, .operator (negated frame.negations primary)⟩

/-- Take a token after an operand. -/
def stepOperator (parser : Parser α) (operand : Expr α) :
    Token → Except (ParseError ε) (Parser α)
  | .symbol .power => .ok ⟨parser.outer, parser.pending.raise operand, .operand 0⟩
  | .symbol .times => .ok ⟨parser.outer, parser.pending.multiply .mul operand, .operand 0⟩
  | .symbol .divide => .ok ⟨parser.outer, parser.pending.multiply .div operand, .operand 0⟩
  | .symbol .plus => .ok ⟨parser.outer, parser.pending.extend .add operand, .operand 0⟩
  | .symbol .minus => .ok ⟨parser.outer, parser.pending.extend .sub operand, .operand 0⟩
  | .symbol .closing => parser.leave operand
  | token => .error (parser.refuse token)

def step (scope : Scope α ε) (parser : Parser α) (token : Token) :
    Except (ParseError ε) (Parser α) :=
  match parser.expects with
  | .operand negations => parser.stepOperand scope negations token
  | .logarithm negations =>
    if token = .symbol .opening then .ok (parser.enter .logarithm negations)
    else do
      let operand ← scope.leaf "log"
      parser.stepOperator (negated negations operand) token
  | .operator operand => parser.stepOperator operand token

/-- The tree after an operand at the end of the text. -/
def close (parser : Parser α) (operand : Expr α) : Except (ParseError ε) (Expr α) :=
  match parser.outer with
  | [] => .ok (parser.pending.sumOf operand)
  | frame :: _ => .error (.unclosed frame.opener)

/-- The tree at the end of the text. -/
def finish (scope : Scope α ε) (parser : Parser α) : Except (ParseError ε) (Expr α) :=
  match parser.expects with
  | .operand _ => .error .unexpectedEnd
  | .logarithm negations => do
    let operand ← scope.leaf "log"
    parser.close (negated negations operand)
  | .operator operand => parser.close operand

/-- Take tokens one after the other. -/
def run (scope : Scope α ε) (parser : Parser α) (tokens : List Token) :
    Except (ParseError ε) (Parser α) :=
  tokens.foldlM (step scope) parser

/-- Taking tokens can be split anywhere: a text fails as soon as its beginning fails. -/
theorem run_append (scope : Scope α ε) (parser : Parser α) (front back : List Token) :
    parser.run scope (front ++ back) = (do
      let middle ← parser.run scope front
      middle.run scope back) := by
  simp only [run, List.foldlM_append]

end Parser

/-- The tree of a list of tokens. -/
def parseTokens {α ε : Type} (scope : Scope α ε) (tokens : List Token) :
    Except (ParseError ε) (Expr α) := do
  let parser ← Parser.start.run scope tokens
  parser.finish scope

def parse {α ε : Type} (scope : Scope α ε) (source : String) : Except (ParseError ε) (Expr α) :=
  match tokenize source with
  | .ok tokens => parseTokens scope tokens
  | .error e => .error (.character e)

end Autodiff.Syntax
