import Autodiff.Failure
import Autodiff.Proofs.Expr.Leaves
import Autodiff.Proofs.Expr.Substitution
import Autodiff.Proofs.Gradient.Contribution
import Autodiff.Proofs.Graph.Numbering

/-!
# What a foreign value stops

Whoever walks over a tree takes the operands of a node from left to right and stops at a value
that is no node. If every walk that succeeds has taken all operands, then they all stop at the same
place, which is the leftmost foreign value. The walks that compute may stop before, where the
arithmetic refuses an operation, but they do not get past it either.

* `LeftToRight` is what a walk does at one node, and `LeftToRight.stops` follows a tree down to
  the value at which the walk stops;
* `leftToRight_walk`, `leftToRight_postorder`, `leftToRight_substitute`, `leftToRight_infixText`
  and `leftToRight_symbolicGradientFrom` say that the walks are of this kind, and
  `number_eq_error` carries the result over to numbered trees;
* `genuine_of_evaluate` and `genuine_of_gradient` are about the walks that compute;
* `foreign_stops_walks` puts all this together.
-/

namespace Autodiff.Expr

variable {α ε : Type}

/-! ## Walks from left to right -/

/-- How a walk fails at a node: at a foreign value with that value, at an operator as it does at
the first operand at which it fails. `Stops expr found` says that the walk over a tree fails with
`found`. -/
structure LeftToRight (Stops : Expr α → NotNode α → Prop) : Prop where
  foreign : ∀ value, Stops (foreign value) ⟨value⟩
  left : ∀ (op : Op) {left right : Expr α} {found : NotNode α}, Stops left found →
    Stops (binary op left right) found
  right : ∀ (op : Op) {left right : Expr α} {found : NotNode α}, left.Genuine →
    Stops right found → Stops (binary op left right) found
  operand : ∀ (fn : Fn) {operand : Expr α} {found : NotNode α}, Stops operand found →
    Stops (unary fn operand) found

/-- A walk from left to right stops at the leftmost foreign value. -/
theorem LeftToRight.stops {Stops : Expr α → NotNode α → Prop} (hWalk : LeftToRight Stops)
    {expr : Expr α} {value : α} (hFirst : expr.firstForeign? = some value) :
    Stops expr ⟨value⟩ := by
  induction expr with
  | var | lit | const => cases hFirst
  | foreign =>
    cases hFirst
    exact hWalk.foreign value
  | binary op left right ihLeft ihRight =>
    rw [firstForeign?, Option.or_eq_some_iff] at hFirst
    rcases hFirst with hLeft | ⟨hNone, hRight⟩
    · exact hWalk.left op (ihLeft hLeft)
    · exact hWalk.right op ((firstForeign?_eq_none_iff left).1 hNone) (ihRight hRight)
  | unary fn operand ih => exact hWalk.operand fn (ih hFirst)

/-! ## Listings -/

/-- A walk over a genuine tree goes on to what waits below it on the stack. -/
theorem walk_cons_eq_error {expr : Expr α} (hGenuine : expr.Genuine) {waiting : List (Expr α)}
    {found : NotNode α} (hWaiting : walk waiting = .error found) :
    walk (expr :: waiting) = .error found := by
  induction expr generalizing waiting with
  | var | lit | const => rw [walk_cons, operands, ok_bind, List.nil_append, hWaiting, error_bind]
  | foreign => exact hGenuine.elim
  | binary op left right ihLeft ihRight =>
    have hOperands := ihLeft hGenuine.1 (ihRight hGenuine.2 hWaiting)
    rw [walk_cons, operands, ok_bind, List.cons_append, List.singleton_append, hOperands,
      error_bind]
  | unary fn operand ih =>
    rw [walk_cons, operands, ok_bind, List.singleton_append, ih hGenuine hWaiting, error_bind]

/-- What waits on the stack below the tree does not matter. -/
theorem leftToRight_walk :
    LeftToRight fun (expr : Expr α) found => ∀ waiting, walk (expr :: waiting) = .error found where
  foreign := by
    intro value waiting
    rw [walk_cons]
    rfl
  left := by
    intro op left right found hLeft waiting
    rw [walk_cons, operands, ok_bind, List.cons_append, hLeft, error_bind]
  right := by
    intro op left right found hGenuine hRight waiting
    have hOperands := walk_cons_eq_error hGenuine (hRight waiting)
    rw [walk_cons, operands, ok_bind, List.cons_append, List.singleton_append, hOperands,
      error_bind]
  operand := by
    intro fn operand found hOperand waiting
    rw [walk_cons, operands, ok_bind, List.cons_append, hOperand, error_bind]

theorem leftToRight_postorder :
    LeftToRight fun (expr : Expr α) found => expr.postorder = .error found where
  foreign := fun value => rfl
  left := by
    intro op left right found hLeft
    rw [postorder, hLeft, error_bind]
  right := by
    intro op left right found hGenuine hRight
    rw [postorder, postorder_eq hGenuine, hRight, ok_bind, error_bind]
  operand := by
    intro fn operand found hOperand
    rw [postorder, hOperand, error_bind]

theorem leftToRight_substitute (bindings : IdMap α) :
    LeftToRight fun (expr : Expr α) found => expr.substitute bindings = .error found where
  foreign := fun value => rfl
  left := by
    intro op left right found hLeft
    rw [substitute, hLeft, error_bind]
  right := by
    intro op left right found hGenuine hRight
    rw [substitute, substitute_eq_rebound bindings hGenuine, hRight, ok_bind, error_bind]
  operand := by
    intro fn operand found hOperand
    rw [substitute, hOperand, error_bind]

theorem leftToRight_infixText (text : α → String) :
    LeftToRight fun (expr : Expr α) found => expr.infixText text = .error found where
  foreign := fun value => rfl
  left := by
    intro op left right found hLeft
    rw [infixText, hLeft, error_bind]
  right := by
    intro op left right found hGenuine hRight
    obtain ⟨written, hLeft⟩ := exists_infixText text hGenuine
    rw [infixText, hLeft, hRight, ok_bind, error_bind]
  operand := by
    intro fn operand found hOperand
    cases fn <;> rw [infixText, hOperand, error_bind]

theorem leftToRight_symbolicGradientFrom :
    LeftToRight fun (expr : Expr α) found =>
      ∀ adjoint grads, expr.symbolicGradientFrom adjoint grads = .error found where
  foreign := fun value adjoint grads => rfl
  left := by
    intro op left right found hLeft adjoint grads
    rw [symbolicGradientFrom_binary, hLeft, error_bind]
  right := by
    intro op left right found hGenuine hRight adjoint grads
    rw [symbolicGradientFrom_binary, symbolicGradientFrom_eq_ok_iff.2 ⟨hGenuine, rfl⟩, ok_bind,
      hRight]
  operand := by
    intro fn operand found hOperand adjoint grads
    rw [symbolicGradientFrom_unary, hOperand]

/-- Numbered trees are listings, too. -/
theorem number_eq_error {expr : Expr α} {value : α} (hFirst : expr.firstForeign? = some value) :
    Graph.number expr = .error ⟨value⟩ := by
  have hNodes := Graph.map_node_number expr
  rw [leftToRight_postorder.stops hFirst] at hNodes
  cases hNumber : Graph.number expr with
  | ok entries =>
    rw [hNumber] at hNodes
    cases hNodes
  | error found =>
    rw [hNumber] at hNodes
    exact congrArg Except.error (Except.error.inj hNodes)

/-- The nodes are numbered first, so nothing is computed for a drawing. -/
theorem draw_eq_error (picture : Graph.Picture α ε) {formatName : String}
    (hFormat : formatName ∈ ["text", "dot"]) {expr : Expr α} {value : α}
    (hFirst : expr.firstForeign? = some value) :
    Graph.draw picture formatName expr = .error (.fault (.notNode ⟨value⟩)) := by
  obtain ⟨format, hFound⟩ : ∃ format, Graph.DrawFormat.find? formatName = some format := by
    rcases List.mem_pair.1 hFormat with rfl | rfl
    · exact ⟨.text, rfl⟩
    · exact ⟨.dot, rfl⟩
  rw [Graph.draw, hFound]
  simp only [Graph.Picture.drawAs, number_eq_error hFirst, Fault.liftWalk, error_bind]

/-! ## Walks that compute -/

/-- Only a genuine tree has a value. -/
theorem genuine_of_evaluate {num : Arithmetic α ε} {expr : Expr α} {value : α}
    (hValue : expr.evaluate num = .ok value) : expr.Genuine := by
  induction expr generalizing value with
  | var | lit | const => trivial
  | foreign => cases hValue
  | binary op left right ihLeft ihRight =>
    rw [evaluate, bind_eq_ok_iff] at hValue
    obtain ⟨x, hLeft, hRest⟩ := hValue
    obtain ⟨y, hRight, -⟩ := bind_eq_ok_iff.1 hRest
    exact ⟨ihLeft hLeft, ihRight hRight⟩
  | unary fn operand ih =>
    cases fn with
    | neg =>
      rw [evaluate, bind_eq_ok_iff] at hValue
      obtain ⟨zero, -, hRest⟩ := hValue
      obtain ⟨x, hOperand, -⟩ := bind_eq_ok_iff.1 hRest
      exact ih hOperand
    | log =>
      rw [evaluate, bind_eq_ok_iff] at hValue
      obtain ⟨x, hOperand, -⟩ := hValue
      exact ih hOperand

/-- Only a genuine tree has a numerical gradient. -/
theorem genuine_of_gradient {num : Arithmetic α ε} {expr : Expr α} {grads : IdMap α}
    (hGradient : expr.gradient num = .ok grads) : expr.Genuine := by
  obtain ⟨one, -, hRun⟩ := (gradient_eq_ok_iff num expr grads).1 hGradient
  exact genuine_of_gradientFrom hRun

/-! ## All walks -/

/-- A tree with a foreign value, wherever it stands, is no input for anyone. The walks that only
look at the tree fail with the leftmost foreign value, and the message names its type; so does a
drawing, whatever the arithmetic is. With no arithmetic the tree has a value or a gradient. -/
theorem foreign_stops_walks {expr : Expr Scalar} {found : Scalar}
    (hFound : foreign found ∈ expr.leaves) :
    ∃ front value back, expr.leaves = front ++ foreign value :: back ∧
      (∀ leaf ∈ front, leaf.Genuine) ∧
      (Failure.ofNotNode ⟨value⟩).message = "Not an expression node: " ++ value.typeName ∧
      Failure.ofDrawError (.fault (.notNode ⟨value⟩)) = Failure.ofNotNode ⟨value⟩ ∧
      expr.preorder = .error ⟨value⟩ ∧ expr.postorder = .error ⟨value⟩ ∧
      expr.variableIds = .error ⟨value⟩ ∧
      (∀ bindings, expr.substitute bindings = .error ⟨value⟩) ∧
      (∀ text, expr.infixText text = .error ⟨value⟩) ∧
      expr.symbolicGradient = .error ⟨value⟩ ∧
      (∀ (ε : Type) (picture : Graph.Picture Scalar ε), ∀ formatName ∈ ["text", "dot"],
        Graph.draw picture formatName expr = .error (.fault (.notNode ⟨value⟩))) ∧
      ∀ (ε : Type) (num : Arithmetic Scalar ε), (∃ fault, expr.evaluate num = .error fault) ∧
        ∃ fault, expr.gradient num = .error fault := by
  have hForeign : ¬ expr.Genuine := fun hGenuine => genuine_iff_leaves.1 hGenuine _ hFound
  obtain ⟨value, hFirst⟩ : ∃ value, expr.firstForeign? = some value :=
    Option.ne_none_iff_exists'.1 (mt (firstForeign?_eq_none_iff expr).1 hForeign)
  obtain ⟨front, back, hLeaves, hFront⟩ := firstForeign?_eq_some_iff.1 hFirst
  have hPreorder : expr.preorder = .error ⟨value⟩ := leftToRight_walk.stops hFirst []
  refine ⟨front, value, back, hLeaves, hFront, rfl, rfl, hPreorder,
    leftToRight_postorder.stops hFirst, ?ids,
    fun bindings => (leftToRight_substitute bindings).stops hFirst,
    fun text => (leftToRight_infixText text).stops hFirst,
    leftToRight_symbolicGradientFrom.stops hFirst _ _,
    fun ε picture formatName hFormat => draw_eq_error picture hFormat hFirst,
    fun ε num => ⟨?value, ?gradient⟩⟩
  case ids => rw [variableIds, hPreorder, error_bind]
  case value =>
    cases hOutcome : expr.evaluate num with
    | ok result => exact absurd (genuine_of_evaluate hOutcome) hForeign
    | error fault => exact ⟨fault, rfl⟩
  case gradient =>
    cases hOutcome : expr.gradient num with
    | ok grads => exact absurd (genuine_of_gradient hOutcome) hForeign
    | error fault => exact ⟨fault, rfl⟩

/-- Two values that are no nodes in `x ^ (log 1 + "two" * nothing)`. The text is the leftmost one,
so everyone names its type. -/
theorem foreign_stops_walks_exponent :
    ∃ (expr : Expr Scalar) (picture : Graph.Picture Scalar ScalarError),
      expr = pow (var "x" (.int 2))
        (add (log (const 1)) (mul (foreign (.text "two")) (foreign .nothing))) ∧
      picture = ⟨Decimal.arithmetic, Scalar.write, Scalar.toDouble, .empty⟩ ∧
      foreign .nothing ∈ expr.leaves ∧
      (Failure.ofNotNode ⟨.text "two"⟩).message = "Not an expression node: str" ∧
      expr.preorder = .error ⟨.text "two"⟩ ∧ expr.variableIds = .error ⟨.text "two"⟩ ∧
      expr.substitute .empty = .error ⟨.text "two"⟩ ∧
      expr.symbolicGradient = .error ⟨.text "two"⟩ ∧
      Graph.draw picture "dot" expr = .error (.fault (.notNode ⟨.text "two"⟩)) ∧
      (∃ fault, expr.evaluate Decimal.arithmetic = .error fault) ∧
      ∃ fault, expr.gradient Decimal.arithmetic = .error fault := by
  let expr : Expr Scalar := pow (var "x" (.int 2))
    (add (log (const 1)) (mul (foreign (.text "two")) (foreign .nothing)))
  let picture : Graph.Picture Scalar ScalarError :=
    ⟨Decimal.arithmetic, Scalar.write, Scalar.toDouble, .empty⟩
  have hFound : foreign .nothing ∈ expr.leaves := by decide
  obtain ⟨front, value, back, -, -, hMessage, -, hPreorder, hPostorder, hIds, hSubstitute, -,
    hSymbolic, hDraw, hCompute⟩ := foreign_stops_walks hFound
  have hText : expr.postorder = .error ⟨.text "two"⟩ := rfl
  cases hText.symm.trans hPostorder
  exact ⟨expr, picture, rfl, rfl, hFound, hMessage, hPreorder, hIds, hSubstitute _, hSymbolic,
    hDraw _ picture "dot" (by decide), hCompute _ Decimal.arithmetic⟩

end Autodiff.Expr
