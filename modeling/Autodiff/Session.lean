import Autodiff.Query

/-!
# Sessions

A session keeps expressions under names. A command works on kept expressions and on
values, gives an answer, and may keep its result; a command that fails changes nothing.
What is kept are trees of data: every value knows the command and the place where it was
entered, and only the comparison of two trees looks at that.

* `Session.step` runs a command, and `Session.step_of_error` says that a failure leaves
  the session as it is;
* `Session.equal_self` says that a kept expression equals itself, whatever values it holds;
* `Session.run` runs a list of commands.
-/

namespace Autodiff

/-- What a command refers to. -/
inductive Argument where
  /-- The expression kept under a name. -/
  | register (name : String)
  | value (v : Scalar)

/-- A way to build an expression. -/
inductive Build where
  | literal (data : Scalar)
  | constant (n : Int)
  | variable (id : String) (data : Scalar)
  | binary (op : Op) (left right : Argument)
  | unary (fn : Fn) (operand : Argument)

/-- A command whose answer is an expression that can be kept. -/
inductive Construction where
  /-- An operator between two arguments. -/
  | operate (op : Op) (left right : Argument)
  | negate (operand : Argument)
  | build (build : Build)
  | parse (source : String) (values : IdMap Scalar) (format : LiteralFormat)
  | substitute (operand : Argument) (bindings : IdMap Scalar)
  /-- The derivative by a variable. -/
  | derivative (operand : Argument) (id : String)

/-- A question about an expression. -/
inductive Question where
  | evaluate (capabilityName : String)
  | gradient (capabilityName : String)
  | trace (capabilityName : String) (bindings : IdMap Scalar)
  | text
  | ids
  | draw (capabilityName formatName : String)

/-- A command to a session. -/
inductive Command where
  /-- Keep a variable under each id. -/
  | declare (bindings : IdMap Scalar)
  /-- Build an expression and keep it, if a name is given. -/
  | construct (construction : Construction) (keepAs : Option String)
  | ask (subject : Argument) (question : Question)
  | equal (first second : Argument)

inductive Answer where
  | expr (e : Expr Scalar)
  | exprs (es : List (Expr Scalar))
  | value (x : Scalar)
  | grads (grads : IdMap Scalar)
  | traced (traced : Traced Scalar)
  | text (content : String)
  | ids (ids : List String)
  | equal (same : Bool)

/-- The expressions that are kept, and how many commands made the session what it is. -/
structure Session where
  registers : IdMap (Expr Datum)
  /-- The number of commands that have succeeded; it numbers the next one. -/
  commands : Nat

namespace Session

def empty : Session := ⟨IdMap.empty, 0⟩

/-- Keep an expression under a name. -/
def keep (session : Session) (name : String) (e : Expr Datum) : Session :=
  { session with registers := session.registers.insert name e }

/-! ## Entering values -/

/-- A value entered by the next command. -/
def enter (session : Session) (place : Place) (value : Scalar) : Datum :=
  ⟨value, session.commands, place⟩

/-- The bindings of the next command, each value entered once. -/
def enterBindings (session : Session) (bindings : IdMap Scalar) : IdMap Datum :=
  bindings.map fun id value => session.enter (.binding id) value

/-- What the names and the numerals of a text stand for. -/
def scope (session : Session) (values : IdMap Scalar) (format : LiteralFormat) :
    Syntax.Scope Datum ScalarError :=
  ⟨session.enterBindings values, fun numeral => (format.read numeral).map (session.enter .numeral)⟩

def resolve (session : Session) (place : Place) : Argument → Except Failure Operand
  | .register name =>
    match session.registers.get? name with
    | some e => .ok (.expr e)
    | none => .error (.missingRegister name)
  | .value v => .ok (.raw (session.enter place v))

/-! ## Constructions -/

/-- The expression that a build makes. -/
def runBuild (session : Session) : Build → Except Failure (Expr Datum)
  | .literal data => .ok (.lit (session.enter .first data))
  | .constant n => .ok (.const n)
  | .variable id data => .ok (.var id (session.enter .first data))
  | .binary op left right => do
    let l ← session.resolve .first left
    let r ← session.resolve .second right
    return .binary op l.wrap r.wrap
  | .unary fn operand => do
    let e ← session.resolve .first operand
    return .unary fn e.wrap

/-- The derivative of a tree by one variable. -/
def derivative (e : Expr Datum) (id : String) : Except Failure (Expr Datum) := do
  let grads ← Query.orFail .ofNotNodeKept e.symbolicGradient
  match grads.get? id with
  | some entry => return entry
  | none => throw (.missingId id)

/-- The expression that a construction makes. -/
def runConstruction (session : Session) : Construction → Except Failure (Expr Datum)
  | .operate op left right => do
    let l ← session.resolve .first left
    let r ← session.resolve .second right
    Query.orFail .operand (Expr.operate op l r)
  | .negate operand => do
    let e ← session.resolve .first operand
    return .neg e.node
  | .build build => session.runBuild build
  | .parse source values format =>
    Query.orFail .parse (Syntax.parse (session.scope values format) source)
  | .substitute operand bindings => do
    let e ← session.resolve .first operand
    Query.orFail .ofNotNodeKept (e.node.substitute (session.enterBindings bindings))
  | .derivative operand id => do
    let e ← session.resolve .first operand
    derivative e.node id

/-! ## Questions -/

/-- The answer to a question about an expression. -/
def answer (e : Expr Scalar) : Question → Except Failure Answer
  | .evaluate capabilityName => do
    let capability ← Query.capability capabilityName
    return .value (← Query.evaluate capability e)
  | .gradient capabilityName => do
    let capability ← Query.capability capabilityName
    return .grads (← Query.gradient capability e)
  | .trace capabilityName bindings => do
    let capability ← Query.capability capabilityName
    return .traced (← Query.trace capability e bindings)
  | .text => do
    return .text (← Query.infixText e)
  | .ids => do
    return .ids (← Query.variableIds e)
  | .draw capabilityName formatName => do
    let capability ← Query.capability capabilityName
    let grads ← Query.gradient capability e
    return .text (← Query.draw capability formatName grads e)

/-- Whether two kept trees are equal. -/
def equal (a b : Expr Datum) : Except Failure Bool :=
  Query.orFail .scalar (a.equal Datum.equal b)

/-- A tree equals itself, whatever values it holds. -/
theorem equal_self (e : Expr Datum) : equal e e = .ok true := by
  rw [equal, e.equal_self Datum.equal_self]
  rfl

/-! ## Commands -/

/-- Run a command that may fail: its answer, and the session with what is kept by it. -/
def step? (session : Session) : Command → Except Failure (Answer × Session)
  | .declare bindings =>
    let kept := (session.enterBindings bindings).entries.map fun (id, datum) =>
      (id, Expr.var id datum)
    .ok (.exprs (kept.map fun (_, e) => e.map Datum.value),
      { session with registers := session.registers.insertAll kept })
  | .construct construction keepAs => do
    let e ← session.runConstruction construction
    let next := match keepAs with
      | some name => session.keep name e
      | none => session
    return (.expr (e.map Datum.value), next)
  | .ask subject question => do
    let e ← session.resolve .first subject
    return (← answer (e.node.map Datum.value) question, session)
  | .equal first second => do
    let a ← session.resolve .first first
    let b ← session.resolve .second second
    return (.equal (← equal a.node b.node), session)

/-- Run a command: its answer or its failure, and the session after it. A command that
succeeds is counted. -/
def step (session : Session) (command : Command) : Except Failure Answer × Session :=
  match session.step? command with
  | .ok (answer, next) => (.ok answer, { next with commands := next.commands + 1 })
  | .error failure => (.error failure, session)

/-- A command that fails leaves the session as it is. -/
theorem step_of_error {session : Session} {command : Command} {failure : Failure}
    (hFailure : (session.step command).1 = .error failure) :
    (session.step command).2 = session := by
  unfold step at hFailure ⊢
  split at hFailure
  · cases hFailure
  · rfl

/-- Run commands one after the other and gather the answers. -/
def run (session : Session) : List Command → List (Except Failure Answer)
  | [] => []
  | command :: rest =>
    let (answer, next) := session.step command
    answer :: next.run rest

end Session

end Autodiff
