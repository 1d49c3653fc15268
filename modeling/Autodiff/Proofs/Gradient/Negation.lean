import Autodiff.Capability.Decimal
import Autodiff.Proofs.Gradient.Simulation

/-!
# Negation as subtraction

There is no negation of scalars: a negated tree is computed by a subtraction from zero, and its
adjoint is negated in the same way. So a tree may spell out its negations as subtractions from the
constant 0, some of them or all, wherever they stand. Values and gradients stay the same, and
failures too, since zero is made before the operand in both spellings.

* `NegationsReplaced` relates a tree to one in which some negations are spelled out;
* `NegationsReplaced.evaluate_eq` and `NegationsReplaced.gradientFrom_eq` are about the walks that
  compute;
* `NegationsReplaced.symbolicGradientFrom` says that the symbolic walk leaves related maps, since
  the operands that it copies into the adjoints are related;
* `negation_is_subtraction` puts this together.
-/

namespace Autodiff

variable {α ε : Type}

namespace Expr

/-! ## Two spellings of a tree -/

/-- The second tree is the first one with some of its negations replaced by subtractions from the
constant 0. -/
inductive NegationsReplaced : Expr α → Expr α → Prop
  | var (id : String) (data : α) : NegationsReplaced (var id data) (var id data)
  | lit (data : α) : NegationsReplaced (lit data) (lit data)
  | const (n : Int) : NegationsReplaced (const n) (const n)
  | binary (op : Op) {left left' right right' : Expr α} (hLeft : NegationsReplaced left left')
      (hRight : NegationsReplaced right right') :
      NegationsReplaced (binary op left right) (binary op left' right')
  | unary (fn : Fn) {operand operand' : Expr α} (hOperand : NegationsReplaced operand operand') :
      NegationsReplaced (unary fn operand) (unary fn operand')
  | foreign (value : α) : NegationsReplaced (foreign value) (foreign value)
  /-- This negation is replaced. -/
  | negation {operand operand' : Expr α} (hOperand : NegationsReplaced operand operand') :
      NegationsReplaced (neg operand) (sub (const 0) operand')

namespace NegationsReplaced

variable {expr other adjoint adjoint' : Expr α}

/-! ## Walks that compute -/

theorem evaluate_eq (h : NegationsReplaced expr other) (num : Arithmetic α ε) :
    other.evaluate num = expr.evaluate num := by
  induction h with
  | var | lit | const | foreign => rfl
  | binary op _ _ ihLeft ihRight => rw [evaluate, evaluate, ihLeft, ihRight]
  | unary fn _ ih => cases fn <;> rw [evaluate, evaluate, ih]
  | @negation operand operand' _ ih =>
    calc (sub (Expr.const 0) operand').evaluate num
        = (neg operand').evaluate num := (evaluate_neg num operand').symm
      _ = (neg operand).evaluate num := by rw [evaluate, evaluate, ih]

theorem gradientFrom_eq (h : NegationsReplaced expr other) (num : Arithmetic α ε) (adjoint : α)
    (grads : IdMap α) :
    other.gradientFrom num adjoint grads = expr.gradientFrom num adjoint grads := by
  induction h generalizing adjoint grads with
  | var | lit | const | foreign => rfl
  | binary op hLeft hRight ihLeft ihRight =>
    -- the walk goes into the operands and computes them, so both facts about them are used
    cases op <;>
      simp only [gradientFrom, ihLeft, ihRight, hLeft.evaluate_eq num, hRight.evaluate_eq num]
  | unary fn hOperand ih => cases fn <;> simp only [gradientFrom, ih, hOperand.evaluate_eq num]
  | negation _ ih =>
    -- the constant on the left receives the adjoint and drops it
    simp only [gradientFrom, ok_bind, ih]

theorem gradient_eq (h : NegationsReplaced expr other) (num : Arithmetic α ε) :
    other.gradient num = expr.gradient num := by
  simp only [gradient, h.gradientFrom_eq num]

/-! ## The symbolic walk -/

theorem leftTerm (op : Op) {left left' right right' : Expr α} (hLeft : NegationsReplaced left left')
    (hRight : NegationsReplaced right right') (hAdjoint : NegationsReplaced adjoint adjoint') :
    NegationsReplaced (leftTerm op left right adjoint) (leftTerm op left' right' adjoint') := by
  cases op with
  | add | sub => exact hAdjoint
  | mul | div => exact .binary _ hAdjoint hRight
  | pow =>
    exact .binary _ hAdjoint
      (.binary _ hRight (.binary _ hLeft (.binary _ hRight (.const 1))))

theorem rightTerm (op : Op) {left left' right right' : Expr α} (hLeft : NegationsReplaced left left')
    (hRight : NegationsReplaced right right') (hAdjoint : NegationsReplaced adjoint adjoint') :
    NegationsReplaced (rightTerm op left right adjoint) (rightTerm op left' right' adjoint') := by
  cases op with
  | add => exact hAdjoint
  | sub => exact .unary _ hAdjoint
  | mul => exact .binary _ hAdjoint hLeft
  | div => exact .unary _ (.binary _ (.binary _ hAdjoint hLeft) (.binary _ hRight hRight))
  | pow => exact .binary _ hAdjoint (.binary _ (.binary _ hLeft hRight) (.unary _ hLeft))

theorem operandTerm (fn : Fn) {operand operand' : Expr α}
    (hOperand : NegationsReplaced operand operand')
    (hAdjoint : NegationsReplaced adjoint adjoint') :
    NegationsReplaced (operandTerm fn operand adjoint) (operandTerm fn operand' adjoint') := by
  cases fn with
  | neg => exact .unary _ hAdjoint
  | log => exact .binary _ hAdjoint hOperand

theorem accumulateTerm {terms terms' : IdMap (Expr α)}
    (hTerms : IdMap.Related NegationsReplaced terms terms') (id : String)
    (hAdjoint : NegationsReplaced adjoint adjoint') :
    IdMap.Related NegationsReplaced (accumulateTerm terms id adjoint)
      (accumulateTerm terms' id adjoint') :=
  hTerms.insert id (.binary .add (hTerms.getD id (.const 0)) hAdjoint)

theorem symbolicGradientFrom (h : NegationsReplaced expr other)
    (hAdjoint : NegationsReplaced adjoint adjoint') {terms terms' : IdMap (Expr α)}
    (hTerms : IdMap.Related NegationsReplaced terms terms') :
    SameOutcome (IdMap.Related NegationsReplaced) (expr.symbolicGradientFrom adjoint terms)
      (other.symbolicGradientFrom adjoint' terms') := by
  induction h generalizing adjoint adjoint' terms terms' with
  | var id data => exact .ok (accumulateTerm hTerms id hAdjoint)
  | lit | const => exact .ok hTerms
  | foreign value => exact .error (NotNode.mk value)
  | binary op hLeft hRight ihLeft ihRight =>
    rw [symbolicGradientFrom_binary, symbolicGradientFrom_binary]
    refine (ihLeft (leftTerm op hLeft hRight hAdjoint) hTerms).bind ?_
    intro between between' hBetween
    exact ihRight (rightTerm op hLeft hRight hAdjoint) hBetween
  | unary fn hOperand ih =>
    rw [symbolicGradientFrom_unary, symbolicGradientFrom_unary]
    exact ih (operandTerm fn hOperand hAdjoint) hTerms
  | negation _ ih =>
    -- on the right of a subtraction the adjoint is negated as under a negation
    rw [symbolicGradientFrom_unary, symbolicGradientFrom_binary]
    exact ih (.unary .neg hAdjoint) hTerms

end NegationsReplaced

/-! ## Values and gradients -/

/-- Negations may be replaced by subtractions from the constant 0, at any places and in trees with
foreign values too. With any arithmetic both trees have the same value or the same fault, and the
same gradient or the same fault. The symbolic walk stops at the same foreign value, or it leaves
maps with the same ids, entries of which have the same value or the same fault. -/
theorem negation_is_subtraction {expr other : Expr α} (h : NegationsReplaced expr other)
    (num : Arithmetic α ε) :
    other.evaluate num = expr.evaluate num ∧ other.gradient num = expr.gradient num ∧
    SameOutcome (IdMap.Related fun term newTerm => newTerm.evaluate num = term.evaluate num)
      expr.symbolicGradient other.symbolicGradient := by
  refine ⟨h.evaluate_eq num, h.gradient_eq num, ?_⟩
  apply (h.symbolicGradientFrom (.const 1) .empty).imp
  intro terms newTerms hTerms
  refine ⟨hTerms.ids_eq, fun id term hTerm => ?_⟩
  obtain ⟨newTerm, hNew, hReplaced⟩ := hTerms.get?_eq id term hTerm
  exact ⟨newTerm, hNew, hReplaced.evaluate_eq num⟩

/-- The inner negation of `1 / -(-x)` at 4 in decimal arithmetic is replaced. It stands in a
divisor, which is computed for the square too. -/
theorem negation_is_subtraction_divisor :
    ∃ (expr other : Expr Scalar) (grads : IdMap Scalar),
      expr = div (const 1) (neg (neg (var "x" (.int 4)))) ∧
      other = div (const 1) (neg (sub (const 0) (var "x" (.int 4)))) ∧
      grads = .ofList [("x", .decimal (.finite true 625 (-4)))] ∧
      NegationsReplaced expr other ∧
      other.evaluate Decimal.arithmetic = expr.evaluate Decimal.arithmetic ∧
      expr.gradient Decimal.arithmetic = .ok grads ∧
      other.gradient Decimal.arithmetic = .ok grads ∧
      SameOutcome (IdMap.Related fun term newTerm =>
          newTerm.evaluate Decimal.arithmetic = term.evaluate Decimal.arithmetic)
        expr.symbolicGradient other.symbolicGradient := by
  let expr : Expr Scalar := div (const 1) (neg (neg (var "x" (.int 4))))
  let other : Expr Scalar := div (const 1) (neg (sub (const 0) (var "x" (.int 4))))
  have hReplaced : NegationsReplaced expr other :=
    .binary _ (.const 1) (.unary _ (.negation (.var "x" _)))
  have hGradient : expr.gradient Decimal.arithmetic =
      .ok (.ofList [("x", .decimal (.finite true 625 (-4)))]) := rfl
  obtain ⟨hValue, hGradients, hSymbolic⟩ := negation_is_subtraction hReplaced Decimal.arithmetic
  exact ⟨expr, other, _, rfl, rfl, rfl, hReplaced, hValue, hGradient, hGradients.trans hGradient,
    hSymbolic⟩

end Expr

end Autodiff
