import Mathlib.Algebra.Field.Basic
import Mathlib.Tactic.Ring
import Autodiff.Proofs.Gradient.Adjoint

/-!
# Forward tangents

Over a field a tree has a value and, for every variable, a forward tangent: the sum over
the operands of every node of the local derivative times the tangent of the operand. Powers
and logarithms are given functions, of which nothing is assumed.

* `Sound` says of a tree that a capability has, at all the places where its value and its
  gradient are computed, the results of the field and of these functions;
* `evaluate_eq_value` says that the value can be computed then;
* `gradientFrom_tangent` says that a walk adds, to the entry of every variable, the adjoint
  times the forward tangent: the invariant holds for any adjoint and any partly filled map.
-/

namespace Autodiff

/-- A power and a logarithm on a field; of neither a law is assumed. -/
structure Elementary (K : Type) where
  power : K → K → K
  logarithm : K → K

variable {K ε : Type} [Field K]

/-- Sums, differences, products and integers are those of the field. -/
structure Arithmetic.RingExact (num : Arithmetic K ε) : Prop where
  add : ∀ x y, num.add x y = .ok (x + y)
  sub : ∀ x y, num.sub x y = .ok (x - y)
  mul : ∀ x y, num.mul x y = .ok (x * y)
  ofInt : ∀ n : Int, num.ofInt n = .ok n

namespace Elementary

/-- The result of an operator. -/
def apply (fns : Elementary K) : Op → K → K → K
  | .add, x, y => x + y
  | .sub, x, y => x - y
  | .mul, x, y => x * y
  | .div, x, y => x / y
  | .pow, x, y => fns.power x y

/-- The derivative of an operator by its left operand. -/
def leftPartial (fns : Elementary K) : Op → K → K → K
  | .add, _, _ => 1
  | .sub, _, _ => 1
  | .mul, _, y => y
  | .div, _, y => 1 / y
  | .pow, b, e => e * fns.power b (e - 1)

/-- The derivative of an operator by its right operand. -/
def rightPartial (fns : Elementary K) : Op → K → K → K
  | .add, _, _ => 1
  | .sub, _, _ => -1
  | .mul, x, _ => x
  | .div, x, y => -x / (y * y)
  | .pow, b, e => fns.power b e * fns.logarithm b

/-- What a capability has to compute at an operator whose operands have these values, sums,
differences and products apart. -/
def SoundAt (fns : Elementary K) (num : Arithmetic K ε) : Op → K → K → Prop
  | .div, _, y => ∀ x, num.div x y = .ok (x / y) ∧ num.div x (y * y) = .ok (x / (y * y))
  | .pow, b, e => num.pow b e = .ok (fns.power b e) ∧
      num.pow b (e - 1) = .ok (fns.power b (e - 1)) ∧ num.log b = .ok (fns.logarithm b)
  | _, _, _ => True

end Elementary

namespace Expr

/-- The value of a tree in the field. -/
def value (fns : Elementary K) : Expr K → K
  | var _ data => data
  | lit data => data
  | const n => n
  | binary op left right => fns.apply op (left.value fns) (right.value fns)
  | unary .neg operand => -operand.value fns
  | unary .log operand => fns.logarithm (operand.value fns)
  | foreign data => data

/-- The derivative of a tree by a variable, taken from the leaves to the root. -/
def tangent (fns : Elementary K) (id : String) : Expr K → K
  | var name _ => if name = id then 1 else 0
  | lit _ => 0
  | const _ => 0
  | add left right => left.tangent fns id + right.tangent fns id
  | sub left right => left.tangent fns id - right.tangent fns id
  | mul left right =>
    left.tangent fns id * right.value fns + left.value fns * right.tangent fns id
  | div left right =>
    left.tangent fns id / right.value fns -
      left.value fns * right.tangent fns id / (right.value fns * right.value fns)
  | pow base exponent =>
    exponent.value fns * fns.power (base.value fns) (exponent.value fns - 1) *
        base.tangent fns id +
      fns.power (base.value fns) (exponent.value fns) * fns.logarithm (base.value fns) *
        exponent.tangent fns id
  | neg operand => -operand.tangent fns id
  | log operand => operand.tangent fns id / operand.value fns
  | foreign _ => 0

/-- At every node the capability has the results of the field and of the given functions. -/
def Sound (fns : Elementary K) (num : Arithmetic K ε) : Expr K → Prop
  | var _ _ => True
  | lit _ => True
  | const _ => True
  | binary op left right =>
    left.Sound fns num ∧ right.Sound fns num ∧
      fns.SoundAt num op (left.value fns) (right.value fns)
  | unary .neg operand => operand.Sound fns num
  | unary .log operand =>
    operand.Sound fns num ∧ num.log (operand.value fns) = .ok (fns.logarithm (operand.value fns)) ∧
      ∀ x, num.div x (operand.value fns) = .ok (x / operand.value fns)
  | foreign _ => False

theorem tangent_binary (fns : Elementary K) (id : String) (op : Op) (left right : Expr K) :
    (binary op left right).tangent fns id =
      fns.leftPartial op (left.value fns) (right.value fns) * left.tangent fns id +
        fns.rightPartial op (left.value fns) (right.value fns) * right.tangent fns id := by
  cases op <;> simp only [tangent, Elementary.leftPartial, Elementary.rightPartial] <;> ring

variable {fns : Elementary K} {num : Arithmetic K ε}

/-! ## Values -/

theorem apply_eq_of_soundAt (hExact : num.RingExact) {op : Op} {x y : K}
    (hAt : fns.SoundAt num op x y) : num.apply op x y = .ok (fns.apply op x y) := by
  cases op with
  | add => exact hExact.add x y
  | sub => exact hExact.sub x y
  | mul => exact hExact.mul x y
  | div => exact (hAt x).1
  | pow => exact hAt.1

theorem evaluate_eq_value (hExact : num.RingExact) {expr : Expr K} (hSound : expr.Sound fns num) :
    expr.evaluate num = .ok (expr.value fns) := by
  induction expr with
  | var | lit => rfl
  | const n => simp [evaluate, value, hExact.ofInt]
  | binary op left right ihLeft ihRight =>
    obtain ⟨hLeft, hRight, hAt⟩ := hSound
    simp [evaluate, value, ihLeft hLeft, ihRight hRight, apply_eq_of_soundAt hExact hAt]
  | unary fn operand ih =>
    cases fn with
    | neg => simp [evaluate, value, ih hSound, hExact.ofInt, hExact.sub]
    | log => simp [evaluate, value, ih hSound.1, hSound.2.1]
  | foreign => exact hSound.elim

/-! ## Adjoints -/

theorem evaluate_leftTerm_eq (hExact : num.RingExact) {op : Op} {left right : Expr K}
    (hSound : (binary op left right).Sound fns num) (adjoint : K) :
    (leftTerm op left right (lit adjoint)).evaluate num =
      .ok (adjoint * fns.leftPartial op (left.value fns) (right.value fns)) := by
  obtain ⟨hLeft, hRight, hAt⟩ := hSound
  have hX := evaluate_eq_value hExact hLeft
  have hY := evaluate_eq_value hExact hRight
  cases op with
  | add | sub => simp [leftTerm, evaluate, Elementary.leftPartial]
  | mul => simp [leftTerm, evaluate, Arithmetic.apply, hY, hExact.mul, Elementary.leftPartial]
  | div =>
    simp [leftTerm, evaluate, Arithmetic.apply, hY, (hAt _).1, Elementary.leftPartial,
      div_eq_mul_inv]
  | pow =>
    simp [leftTerm, evaluate, Arithmetic.apply, hX, hY, hExact.ofInt, hExact.sub, hAt.2.1,
      hExact.mul, Elementary.leftPartial]

theorem evaluate_rightTerm_eq (hExact : num.RingExact) {op : Op} {left right : Expr K}
    (hSound : (binary op left right).Sound fns num) (adjoint : K) :
    (rightTerm op left right (lit adjoint)).evaluate num =
      .ok (adjoint * fns.rightPartial op (left.value fns) (right.value fns)) := by
  obtain ⟨hLeft, hRight, hAt⟩ := hSound
  have hX := evaluate_eq_value hExact hLeft
  have hY := evaluate_eq_value hExact hRight
  cases op with
  | add => simp [rightTerm, evaluate, Elementary.rightPartial]
  | sub => simp [rightTerm, evaluate, hExact.ofInt, hExact.sub, Elementary.rightPartial]
  | mul => simp [rightTerm, evaluate, Arithmetic.apply, hX, hExact.mul, Elementary.rightPartial]
  | div =>
    have hNegated : adjoint * (-left.value fns / (right.value fns * right.value fns)) =
        0 - adjoint * left.value fns / (right.value fns * right.value fns) := by ring
    rw [Elementary.rightPartial, hNegated]
    simp [rightTerm, evaluate, Arithmetic.apply, hX, hY, hExact.ofInt, hExact.sub, hExact.mul,
      (hAt _).2]
  | pow =>
    simp [rightTerm, evaluate, Arithmetic.apply, hX, hY, hAt.1, hAt.2.2, hExact.mul,
      Elementary.rightPartial]

/-! ## Walks -/

theorem accumulate_eq_ok (hExact : num.RingExact) (grads : IdMap K) (id : String) (amount : K) :
    accumulate num grads id amount =
      .ok (grads.insert id ((grads.get? id).getD 0 + amount)) := by
  simp [accumulate, hExact.ofInt, hExact.add, pure, Except.pure]

/-- A walk succeeds, and it adds the adjoint times the forward tangent to every entry. -/
theorem gradientFrom_tangent (hExact : num.RingExact) {expr : Expr K}
    (hSound : expr.Sound fns num) (adjoint : K) (grads : IdMap K) :
    ∃ result, expr.gradientFrom num adjoint grads = .ok result ∧
      ∀ id, (result.get? id).getD 0 = (grads.get? id).getD 0 + adjoint * expr.tangent fns id := by
  induction expr generalizing adjoint grads with
  | var name data =>
    refine ⟨_, by rw [gradientFrom, accumulate_eq_ok hExact, Fault.lift_ok], ?_⟩
    intro id
    rw [IdMap.get?_insert]
    by_cases hName : id = name
    · subst hName
      simp [tangent]
    · simp [tangent, hName, Ne.symm hName]
  | lit | const => exact ⟨grads, rfl, fun id => by simp [tangent]⟩
  | binary op left right ihLeft ihRight =>
    obtain ⟨between, hLeft, hBetween⟩ := ihLeft hSound.1
      (adjoint * fns.leftPartial op (left.value fns) (right.value fns)) grads
    obtain ⟨result, hRight, hResult⟩ := ihRight hSound.2.1
      (adjoint * fns.rightPartial op (left.value fns) (right.value fns)) between
    refine ⟨result, ?_, ?_⟩
    · rw [gradientFrom_binary_eq_ok_iff]
      exact ⟨_, between, _, evaluate_leftTerm_eq hExact hSound adjoint, hLeft,
        evaluate_rightTerm_eq hExact hSound adjoint, hRight⟩
    · intro id
      rw [hResult, hBetween, tangent_binary]
      ring
  | unary fn operand ih =>
    cases fn with
    | neg =>
      obtain ⟨result, hRun, hResult⟩ := ih hSound (-adjoint) grads
      refine ⟨result, ?_, ?_⟩
      · rw [gradientFrom_unary_eq_ok_iff]
        exact ⟨-adjoint, by simp [operandTerm, evaluate, hExact.ofInt, hExact.sub], hRun⟩
      · intro id
        rw [hResult, tangent]
        ring
    | log =>
      obtain ⟨hOperand, hLog, hDiv⟩ := hSound
      obtain ⟨result, hRun, hResult⟩ := ih hOperand (adjoint / operand.value fns) grads
      refine ⟨result, ?_, ?_⟩
      · rw [gradientFrom_unary_eq_ok_iff]
        refine ⟨adjoint / operand.value fns, ?_, hRun⟩
        simp [operandTerm, evaluate, Arithmetic.apply, evaluate_eq_value hExact hOperand, hDiv]
      · intro id
        rw [hResult, tangent]
        ring
  | foreign => exact hSound.elim

end Expr

end Autodiff
