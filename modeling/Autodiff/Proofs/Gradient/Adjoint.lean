import Autodiff.Gradient.Numeric
import Autodiff.Gradient.Symbolic
import Autodiff.Proofs.Outcome

/-!
# The adjoints that a node hands down

Both reverse walks give every operand of a node the adjoint of the node times a local
derivative. As an expression in the adjoint of the node this is `leftTerm` and
`rightTerm` for an operator with two operands, and `operandTerm` for one with a single
operand.

* `symbolicGradientFrom_binary` and `symbolicGradientFrom_unary` say that the symbolic
  walk hands these expressions down;
* `gradientFrom_binary_eq_ok_iff` and `gradientFrom_unary_eq_ok_iff` say that a numerical
  walk succeeds exactly if the values of these expressions, with the adjoint of the node
  as a literal, can be computed and the walks over the operands succeed;
* `evaluate_leftTerm`, `evaluate_rightTerm` and `evaluate_operandTerm` say that only the
  value of the adjoint counts, and `gradientFrom_binary_steps` and `gradientFrom_unary_steps`
  take a numerical walk apart for any expression with the value of its adjoint;
* `gradient_eq_ok_iff` says that the walk from the root starts with the value of the
  constant 1.
-/

namespace Autodiff.Expr

variable {α ε : Type}

/-! ## Local derivatives -/

/-- The adjoint of the left operand of a node. -/
def leftTerm : Op → Expr α → Expr α → Expr α → Expr α
  | .add, _, _, adjoint => adjoint
  | .sub, _, _, adjoint => adjoint
  | .mul, _, right, adjoint => mul adjoint right
  | .div, _, right, adjoint => div adjoint right
  | .pow, base, exponent, adjoint =>
    mul adjoint (mul exponent (pow base (sub exponent (const 1))))

/-- The adjoint of the right operand of a node. -/
def rightTerm : Op → Expr α → Expr α → Expr α → Expr α
  | .add, _, _, adjoint => adjoint
  | .sub, _, _, adjoint => neg adjoint
  | .mul, left, _, adjoint => mul adjoint left
  | .div, left, right, adjoint => neg (div (mul adjoint left) (mul right right))
  | .pow, base, exponent, adjoint => mul adjoint (mul (pow base exponent) (log base))

/-- The adjoint of the only operand of a node. -/
def operandTerm : Fn → Expr α → Expr α → Expr α
  | .neg, _, adjoint => neg adjoint
  | .log, operand, adjoint => div adjoint operand

/-! ## The symbolic walk -/

theorem symbolicGradientFrom_binary (op : Op) (left right adjoint : Expr α)
    (grads : IdMap (Expr α)) :
    (binary op left right).symbolicGradientFrom adjoint grads = (do
      let grads ← left.symbolicGradientFrom (leftTerm op left right adjoint) grads
      right.symbolicGradientFrom (rightTerm op left right adjoint) grads) := by
  cases op <;> rfl

theorem symbolicGradientFrom_unary (fn : Fn) (operand adjoint : Expr α)
    (grads : IdMap (Expr α)) :
    (unary fn operand).symbolicGradientFrom adjoint grads =
      operand.symbolicGradientFrom (operandTerm fn operand adjoint) grads := by
  cases fn <;> rfl

/-! ## The numerical walk -/

variable (num : Arithmetic α ε)

theorem evaluate_leftTerm (op : Op) (left right : Expr α) {adjoint : Expr α} {value : α}
    (hAdjoint : adjoint.evaluate num = .ok value) :
    (leftTerm op left right adjoint).evaluate num =
      (leftTerm op left right (lit value)).evaluate num := by
  cases op <;> simp [leftTerm, evaluate, hAdjoint]

theorem evaluate_rightTerm (op : Op) (left right : Expr α) {adjoint : Expr α} {value : α}
    (hAdjoint : adjoint.evaluate num = .ok value) :
    (rightTerm op left right adjoint).evaluate num =
      (rightTerm op left right (lit value)).evaluate num := by
  cases op <;> simp [rightTerm, evaluate, hAdjoint]

theorem evaluate_operandTerm (fn : Fn) (operand : Expr α) {adjoint : Expr α} {value : α}
    (hAdjoint : adjoint.evaluate num = .ok value) :
    (operandTerm fn operand adjoint).evaluate num =
      (operandTerm fn operand (lit value)).evaluate num := by
  cases fn <;> simp [operandTerm, evaluate, hAdjoint]

theorem gradientFrom_binary_eq_ok_iff (op : Op) (left right : Expr α) (adjoint : α)
    (grads result : IdMap α) :
    (binary op left right).gradientFrom num adjoint grads = .ok result ↔
      ∃ leftAdjoint between rightAdjoint,
        (leftTerm op left right (lit adjoint)).evaluate num = .ok leftAdjoint ∧
        left.gradientFrom num leftAdjoint grads = .ok between ∧
        (rightTerm op left right (lit adjoint)).evaluate num = .ok rightAdjoint ∧
        right.gradientFrom num rightAdjoint between = .ok result := by
  -- The walk computes both operands before it goes down and shares their values; the two
  -- expressions compute them again, so their values have to be identified.
  cases op with
  | add =>
    simp only [gradientFrom, leftTerm, rightTerm, evaluate, bind_eq_ok_iff, Except.ok.injEq,
      exists_eq_left', exists_and_left]
  | sub =>
    simp only [gradientFrom, leftTerm, rightTerm, evaluate, bind_eq_ok_iff, Fault.lift_eq_ok_iff,
      Arithmetic.negate_eq_ok_iff, Except.ok.injEq, exists_eq_left', exists_and_left]
  | mul =>
    simp only [gradientFrom, leftTerm, rightTerm, evaluate, Arithmetic.apply, bind_eq_ok_iff,
      Fault.lift_eq_ok_iff, Except.ok.injEq, exists_eq_left']
    constructor
    · rintro ⟨y, hY, leftAdjoint, hByLeft, between, hLeft, x, hX, rightAdjoint, hByRight, hRight⟩
      exact ⟨leftAdjoint, between, rightAdjoint, ⟨y, hY, hByLeft⟩, hLeft, ⟨x, hX, hByRight⟩, hRight⟩
    · rintro ⟨leftAdjoint, between, rightAdjoint, ⟨y, hY, hByLeft⟩, hLeft, ⟨x, hX, hByRight⟩, hRight⟩
      exact ⟨y, hY, leftAdjoint, hByLeft, between, hLeft, x, hX, rightAdjoint, hByRight, hRight⟩
  | div =>
    simp only [gradientFrom, leftTerm, rightTerm, evaluate, Arithmetic.apply, bind_eq_ok_iff,
      Fault.lift_eq_ok_iff, Arithmetic.negate_eq_ok_iff, Except.ok.injEq, exists_eq_left']
    constructor
    · rintro ⟨x, hX, y, hY, leftAdjoint, hByLeft, between, hLeft, scaled, hScaled, square, hSquare,
        quotient, hQuotient, rightAdjoint, ⟨zero, hZero, hNegated⟩, hRight⟩
      exact ⟨leftAdjoint, between, rightAdjoint, ⟨y, hY, hByLeft⟩, hLeft,
        ⟨zero, hZero, quotient, ⟨scaled, ⟨x, hX, hScaled⟩, square, ⟨y, hY, y, hY, hSquare⟩,
          hQuotient⟩, hNegated⟩, hRight⟩
    · rintro ⟨leftAdjoint, between, rightAdjoint, ⟨y, hY, hByLeft⟩, hLeft, ⟨zero, hZero, quotient,
        ⟨scaled, ⟨x, hX, hScaled⟩, square, ⟨y₁, hY₁, y₂, hY₂, hSquare⟩, hQuotient⟩, hNegated⟩,
        hRight⟩
      cases hY.symm.trans hY₁
      cases hY.symm.trans hY₂
      exact ⟨x, hX, y, hY, leftAdjoint, hByLeft, between, hLeft, scaled, hScaled, square, hSquare,
        quotient, hQuotient, rightAdjoint, ⟨zero, hZero, hNegated⟩, hRight⟩
  | pow =>
    simp only [gradientFrom, leftTerm, rightTerm, evaluate, Arithmetic.apply, bind_eq_ok_iff,
      Fault.lift_eq_ok_iff, Except.ok.injEq, exists_eq_left']
    constructor
    · rintro ⟨b, hB, e, hE, one, hOne, lowered, hLowered, loweredPower, hLoweredPower, byBase,
        hByBase, baseAdjoint, hBaseAdjoint, between, hLeft, power, hPower, logarithm, hLogarithm,
        byExponent, hByExponent, exponentAdjoint, hExponentAdjoint, hRight⟩
      exact ⟨baseAdjoint, between, exponentAdjoint,
        ⟨byBase, ⟨e, hE, loweredPower, ⟨b, hB, lowered, ⟨e, hE, one, hOne, hLowered⟩,
          hLoweredPower⟩, hByBase⟩, hBaseAdjoint⟩, hLeft,
        ⟨byExponent, ⟨power, ⟨b, hB, e, hE, hPower⟩, logarithm, ⟨b, hB, hLogarithm⟩, hByExponent⟩,
          hExponentAdjoint⟩, hRight⟩
    · rintro ⟨baseAdjoint, between, exponentAdjoint,
        ⟨byBase, ⟨e, hE, loweredPower, ⟨b, hB, lowered, ⟨e₁, hE₁, one, hOne, hLowered⟩,
          hLoweredPower⟩, hByBase⟩, hBaseAdjoint⟩, hLeft,
        ⟨byExponent, ⟨power, ⟨b₁, hB₁, e₂, hE₂, hPower⟩, logarithm, ⟨b₂, hB₂, hLogarithm⟩,
          hByExponent⟩, hExponentAdjoint⟩, hRight⟩
      cases hE.symm.trans hE₁
      cases hE.symm.trans hE₂
      cases hB.symm.trans hB₁
      cases hB.symm.trans hB₂
      exact ⟨b, hB, e, hE, one, hOne, lowered, hLowered, loweredPower, hLoweredPower, byBase,
        hByBase, baseAdjoint, hBaseAdjoint, between, hLeft, power, hPower, logarithm, hLogarithm,
        byExponent, hByExponent, exponentAdjoint, hExponentAdjoint, hRight⟩

theorem gradientFrom_unary_eq_ok_iff (fn : Fn) (operand : Expr α) (adjoint : α)
    (grads result : IdMap α) :
    (unary fn operand).gradientFrom num adjoint grads = .ok result ↔
      ∃ operandAdjoint,
        (operandTerm fn operand (lit adjoint)).evaluate num = .ok operandAdjoint ∧
        operand.gradientFrom num operandAdjoint grads = .ok result := by
  cases fn with
  | neg =>
    simp only [gradientFrom, operandTerm, evaluate, bind_eq_ok_iff, Fault.lift_eq_ok_iff,
      Arithmetic.negate_eq_ok_iff, Except.ok.injEq, exists_eq_left']
  | log =>
    simp only [gradientFrom, operandTerm, evaluate, Arithmetic.apply, bind_eq_ok_iff,
      Fault.lift_eq_ok_iff, Except.ok.injEq, exists_eq_left']
    constructor
    · rintro ⟨x, hX, operandAdjoint, hByOperand, hOperand⟩
      exact ⟨operandAdjoint, ⟨x, hX, hByOperand⟩, hOperand⟩
    · rintro ⟨operandAdjoint, ⟨x, hX, hByOperand⟩, hOperand⟩
      exact ⟨x, hX, operandAdjoint, hByOperand, hOperand⟩

variable {num}

/-- The steps of a successful walk at an operator, with the adjoint as any expression that has
its value. -/
theorem gradientFrom_binary_steps {op : Op} {left right adjoint : Expr α} {amount : α}
    {grads result : IdMap α} (hAdjoint : adjoint.evaluate num = .ok amount)
    (hRun : (binary op left right).gradientFrom num amount grads = .ok result) :
    ∃ leftAmount between rightAmount,
      (leftTerm op left right adjoint).evaluate num = .ok leftAmount ∧
      left.gradientFrom num leftAmount grads = .ok between ∧
      (rightTerm op left right adjoint).evaluate num = .ok rightAmount ∧
      right.gradientFrom num rightAmount between = .ok result := by
  rw [evaluate_leftTerm num op left right hAdjoint, evaluate_rightTerm num op left right hAdjoint]
  exact (gradientFrom_binary_eq_ok_iff num op left right amount grads result).1 hRun

theorem gradientFrom_unary_steps {fn : Fn} {operand adjoint : Expr α} {amount : α}
    {grads result : IdMap α} (hAdjoint : adjoint.evaluate num = .ok amount)
    (hRun : (unary fn operand).gradientFrom num amount grads = .ok result) :
    ∃ operandAmount, (operandTerm fn operand adjoint).evaluate num = .ok operandAmount ∧
      operand.gradientFrom num operandAmount grads = .ok result := by
  rw [evaluate_operandTerm num fn operand hAdjoint]
  exact (gradientFrom_unary_eq_ok_iff num fn operand amount grads result).1 hRun

variable (num)

theorem gradient_eq_ok_iff (expr : Expr α) (grads : IdMap α) :
    expr.gradient num = .ok grads ↔
      ∃ one, (const 1 : Expr α).evaluate num = .ok one ∧
        expr.gradientFrom num one IdMap.empty = .ok grads := by
  rw [gradient, bind_eq_ok_iff]
  rfl

end Autodiff.Expr
