/-!
# Expression trees

A scalar computation written down as data. The leaves are named variables, literals of
the scalar type and exact integer constants; the inner nodes are the five binary
operators, negation and the natural logarithm. A value of the scalar type may also stand
where a node is expected: such a *foreign* value is no node, and whoever walks over the
tree stops there.

* `Expr.operands_eq_error_iff` says that a node has operands unless it is foreign;
* `Expr.size_operands` says that the operands are smaller than their node, which is the
  measure of every walk over a tree;
* `Expr.firstForeign?_eq_none_iff` says that a tree in which no foreign value is found
  is genuine;
* `Expr.firstForeign?_map` says that new values in the places of the old ones keep what
  is foreign.
-/

namespace Autodiff

inductive Op where
  | add
  | sub
  | mul
  | div
  | pow
  deriving DecidableEq

inductive Fn where
  | neg
  | log
  deriving DecidableEq

/-- A computation over scalars of type `α`. -/
inductive Expr (α : Type) where
  /-- A named input with its value; several leaves may share one id. -/
  | var (id : String) (data : α)
  | lit (data : α)
  /-- An exact integer that belongs to the shape of the computation. -/
  | const (n : Int)
  | binary (op : Op) (left right : Expr α)
  | unary (fn : Fn) (operand : Expr α)
  /-- A bare value where a node is expected. -/
  | foreign (value : α)
  deriving DecidableEq

/-- The error of a walk that meets a foreign value: the value found. -/
structure NotNode (α : Type) where
  value : α
  deriving DecidableEq

namespace Op

/-- The sign that stands between the operands. -/
def symbol : Op → String
  | add => "+"
  | sub => "-"
  | mul => "*"
  | div => "/"
  | pow => "^"

def className : Op → String
  | add => "Add"
  | sub => "Sub"
  | mul => "Mul"
  | div => "Div"
  | pow => "Pow"

end Op

namespace Fn

/-- The word that labels a node with one operand. -/
def word : Fn → String
  | neg => "neg"
  | log => "log"

def className : Fn → String
  | neg => "Neg"
  | log => "Log"

end Fn

namespace Expr

variable {α : Type}

/-! ## Shorthands -/

@[match_pattern] abbrev add (left right : Expr α) : Expr α := binary .add left right

@[match_pattern] abbrev sub (left right : Expr α) : Expr α := binary .sub left right

@[match_pattern] abbrev mul (left right : Expr α) : Expr α := binary .mul left right

@[match_pattern] abbrev div (left right : Expr α) : Expr α := binary .div left right

@[match_pattern] abbrev pow (base exponent : Expr α) : Expr α := binary .pow base exponent

@[match_pattern] abbrev neg (operand : Expr α) : Expr α := unary .neg operand

@[match_pattern] abbrev log (operand : Expr α) : Expr α := unary .log operand

/-! ## Operands -/

/-- The direct operands of a node, left to right. -/
def operands : Expr α → Except (NotNode α) (List (Expr α))
  | var _ _ => .ok []
  | lit _ => .ok []
  | const _ => .ok []
  | binary _ left right => .ok [left, right]
  | unary _ operand => .ok [operand]
  | foreign value => .error ⟨value⟩

theorem operands_eq_error_iff (expr : Expr α) (value : α) :
    expr.operands = .error ⟨value⟩ ↔ expr = foreign value := by
  cases expr <;> simp [operands]

/-- The number of node occurrences, foreign values included. -/
def size : Expr α → Nat
  | var _ _ => 1
  | lit _ => 1
  | const _ => 1
  | binary _ left right => left.size + right.size + 1
  | unary _ operand => operand.size + 1
  | foreign _ => 1

theorem size_pos (expr : Expr α) : 0 < expr.size := by
  cases expr <;> simp [size]

/-- The size of several expressions together. -/
def totalSize : List (Expr α) → Nat
  | [] => 0
  | expr :: rest => expr.size + totalSize rest

theorem totalSize_append (front back : List (Expr α)) :
    totalSize (front ++ back) = totalSize front + totalSize back := by
  induction front with
  | nil => simp [totalSize]
  | cons expr front ih =>
    simp only [List.cons_append, totalSize, ih]
    omega

/-- The operands of a node and the node itself make up its size. -/
theorem size_operands {expr : Expr α} {children : List (Expr α)}
    (hOperands : expr.operands = .ok children) : expr.size = totalSize children + 1 := by
  cases expr <;> simp only [operands, Except.ok.injEq, reduceCtorEq] at hOperands <;>
    subst hOperands <;> simp [size, totalSize]

/-! ## Foreign values -/

/-- A tree all of whose nodes are nodes. -/
def Genuine : Expr α → Prop
  | var _ _ => True
  | lit _ => True
  | const _ => True
  | binary _ left right => left.Genuine ∧ right.Genuine
  | unary _ operand => operand.Genuine
  | foreign _ => False

/-- The leftmost foreign value of a tree. -/
def firstForeign? : Expr α → Option α
  | var _ _ => none
  | lit _ => none
  | const _ => none
  | binary _ left right => left.firstForeign?.or right.firstForeign?
  | unary _ operand => operand.firstForeign?
  | foreign value => some value

theorem firstForeign?_eq_none_iff (expr : Expr α) : expr.firstForeign? = none ↔ expr.Genuine := by
  induction expr with
  | var | lit | const | foreign => simp [firstForeign?, Genuine]
  | binary op left right ihLeft ihRight =>
    simp [firstForeign?, Genuine, Option.or_eq_none_iff, ihLeft, ihRight]
  | unary fn operand ih => simpa [firstForeign?, Genuine] using ih

/-! ## New values -/

/-- The tree of the same shape with every value replaced by its image. -/
def map {β : Type} (f : α → β) : Expr α → Expr β
  | var id data => var id (f data)
  | lit data => lit (f data)
  | const n => const n
  | binary op left right => binary op (left.map f) (right.map f)
  | unary fn operand => unary fn (operand.map f)
  | foreign value => foreign (f value)

theorem firstForeign?_map {β : Type} (f : α → β) (expr : Expr α) :
    (expr.map f).firstForeign? = expr.firstForeign?.map f := by
  induction expr with
  | var | lit | const | foreign => rfl
  | binary op left right ihLeft ihRight =>
    simp [map, firstForeign?, ihLeft, ihRight, Option.map_or]
  | unary fn operand ih => simpa [map, firstForeign?] using ih

end Expr

end Autodiff
