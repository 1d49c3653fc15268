import Autodiff.Proofs.Gradient.Adjoint

/-!
# What holds of every result

The value of an operator and the entries of a gradient are results of the arithmetic: only
the value of a variable or of a literal is a datum as it stands. So whatever the arithmetic
makes sure of for each of its results holds of them.

* `Arithmetic.Yields` is such a property of results;
* `Expr.property_of_evaluate` carries it over to values, `Expr.property_of_gradientFrom` to
  the entries that a walk leaves behind, and `Expr.property_of_gradient` to gradients.
-/

namespace Autodiff

variable {α ε : Type}

/-- Every result of the arithmetic has a property. -/
structure Arithmetic.Yields (num : Arithmetic α ε) (P : α → Prop) : Prop where
  apply : ∀ (op : Op) {x y result : α}, num.apply op x y = .ok result → P result
  log : ∀ {x result : α}, num.log x = .ok result → P result
  ofInt : ∀ {n : Int} {result : α}, num.ofInt n = .ok result → P result

namespace Expr

variable {num : Arithmetic α ε} {P : α → Prop}

/-- A variable or a literal, the value of which is its datum. -/
def IsDatum : Expr α → Prop
  | var _ _ | lit _ => True
  | _ => False

theorem property_of_evaluate (hYields : num.Yields P) {expr : Expr α} (hExpr : ¬ expr.IsDatum)
    {value : α} (hValue : expr.evaluate num = .ok value) : P value := by
  cases expr with
  | var | lit => exact absurd trivial hExpr
  | const n =>
    rw [evaluate, Fault.lift_eq_ok_iff] at hValue
    exact hYields.ofInt hValue
  | binary op left right =>
    simp only [evaluate, bind_eq_ok_iff, Fault.lift_eq_ok_iff] at hValue
    obtain ⟨x, -, y, -, hApply⟩ := hValue
    exact hYields.apply op hApply
  | unary fn operand =>
    cases fn with
    | neg =>
      simp only [evaluate, bind_eq_ok_iff, Fault.lift_eq_ok_iff] at hValue
      obtain ⟨zero, -, x, -, hSub⟩ := hValue
      exact hYields.apply .sub hSub
    | log =>
      simp only [evaluate, bind_eq_ok_iff, Fault.lift_eq_ok_iff] at hValue
      obtain ⟨x, -, hLog⟩ := hValue
      exact hYields.log hLog
  | foreign => cases hValue

/-- Every entry of a map has a property. -/
def EveryEntry (P : α → Prop) (grads : IdMap α) : Prop :=
  ∀ id value, grads.get? id = some value → P value

theorem property_of_accumulate (hYields : num.Yields P) {grads result : IdMap α}
    (hGrads : EveryEntry P grads) {id : String} {amount : α}
    (hRun : accumulate num grads id amount = .ok result) : EveryEntry P result := by
  simp only [accumulate, bind_eq_ok_iff] at hRun
  obtain ⟨zero, -, total, hTotal, hInsert⟩ := hRun
  cases hInsert
  intro other value hValue
  rw [IdMap.get?_insert] at hValue
  split at hValue
  · cases hValue
    exact hYields.apply .add hTotal
  · exact hGrads other value hValue

theorem property_of_gradientFrom (hYields : num.Yields P) {expr : Expr α} {adjoint : α}
    {grads result : IdMap α} (hGrads : EveryEntry P grads)
    (hRun : expr.gradientFrom num adjoint grads = .ok result) : EveryEntry P result := by
  induction expr generalizing adjoint grads result with
  | var id data =>
    rw [gradientFrom, Fault.lift_eq_ok_iff] at hRun
    exact property_of_accumulate hYields hGrads hRun
  | lit | const =>
    cases hRun
    exact hGrads
  | binary op left right ihLeft ihRight =>
    obtain ⟨leftAdjoint, between, rightAdjoint, -, hLeft, -, hRight⟩ :=
      (gradientFrom_binary_eq_ok_iff num op left right adjoint grads result).1 hRun
    exact ihRight (ihLeft hGrads hLeft) hRight
  | unary fn operand ih =>
    obtain ⟨operandAdjoint, -, hOperand⟩ :=
      (gradientFrom_unary_eq_ok_iff num fn operand adjoint grads result).1 hRun
    exact ih hGrads hOperand
  | foreign => cases hRun

theorem property_of_gradient (hYields : num.Yields P) {expr : Expr α} {grads : IdMap α}
    (hGradient : expr.gradient num = .ok grads) : EveryEntry P grads := by
  obtain ⟨one, -, hRun⟩ := (gradient_eq_ok_iff num expr grads).1 hGradient
  refine property_of_gradientFrom hYields ?_ hRun
  intro id value hValue
  cases hValue

end Expr

end Autodiff
