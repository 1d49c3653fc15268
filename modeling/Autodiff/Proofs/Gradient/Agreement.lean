import Autodiff.Capability.Decimal
import Autodiff.Proofs.Gradient.Adjoint

/-!
# Agreement of the two gradients

The numerical walk computes the values of the expressions that the symbolic walk builds.
No law of the arithmetic is used: both walks carry out the same operations in the same
association, so the values are the same and not only close to each other.

* `Mirrors` is the invariant: two maps with the same ids, the expressions of the first
  having the values of the second. `Mirrors.accumulate` says that adding a term and its
  value keeps it, `Mirrors.gradientFrom` that a whole walk keeps it;
* `symbolicGradient_of_gradient` is the agreement for the walk from the root.
-/

namespace Autodiff.Expr

variable {α ε : Type} {num : Arithmetic α ε}

/-- The expressions of the first map have the values of the second, id for id. -/
structure Mirrors (num : Arithmetic α ε) (terms : IdMap (Expr α)) (grads : IdMap α) : Prop where
  ids_eq : terms.ids = grads.ids
  evaluate_eq : ∀ id term, terms.get? id = some term →
    ∃ value, grads.get? id = some value ∧ term.evaluate num = .ok value

namespace Mirrors

theorem empty : Mirrors num IdMap.empty IdMap.empty where
  ids_eq := rfl
  evaluate_eq := by
    intro id term hTerm
    cases hTerm

theorem insert {terms : IdMap (Expr α)} {grads : IdMap α} (h : Mirrors num terms grads)
    (id : String) {term : Expr α} {value : α} (hValue : term.evaluate num = .ok value) :
    Mirrors num (terms.insert id term) (grads.insert id value) where
  ids_eq := by rw [IdMap.ids_insert, IdMap.ids_insert, h.ids_eq]
  evaluate_eq := by
    intro other found hFound
    rw [IdMap.get?_insert] at hFound ⊢
    by_cases hOther : other = id
    · rw [if_pos hOther] at hFound ⊢
      cases hFound
      exact ⟨value, rfl, hValue⟩
    · rw [if_neg hOther] at hFound ⊢
      exact h.evaluate_eq other found hFound

/-- The entry of an id, the absent one standing for zero, has the value of its mirror. -/
theorem evaluate_getD {terms : IdMap (Expr α)} {grads : IdMap α} (h : Mirrors num terms grads)
    (id : String) {zero : α} (hZero : num.ofInt 0 = .ok zero) :
    ((terms.get? id).getD (const 0)).evaluate num = .ok ((grads.get? id).getD zero) := by
  cases hTerm : terms.get? id with
  | none =>
    have hAbsent : id ∉ grads.ids := h.ids_eq ▸ (IdMap.get?_eq_none_iff terms id).1 hTerm
    rw [(IdMap.get?_eq_none_iff grads id).2 hAbsent]
    simp [evaluate, hZero]
  | some term =>
    obtain ⟨value, hValue, hEvaluate⟩ := h.evaluate_eq id term hTerm
    rw [hValue]
    exact hEvaluate

theorem accumulate {terms : IdMap (Expr α)} {grads grads' : IdMap α}
    (h : Mirrors num terms grads) (id : String) {adjoint : Expr α} {amount : α}
    (hAdjoint : adjoint.evaluate num = .ok amount)
    (hRun : Expr.accumulate num grads id amount = .ok grads') :
    Mirrors num (accumulateTerm terms id adjoint) grads' := by
  simp only [Expr.accumulate, bind_eq_ok_iff] at hRun
  obtain ⟨zero, hZero, total, hTotal, hInsert⟩ := hRun
  cases hInsert
  apply h.insert
  simp [evaluate, Arithmetic.apply, h.evaluate_getD id hZero, hAdjoint, hTotal]

/-- A walk with a number for the adjoint succeeds only if the walk with an expression of
that value does, and then the two maps mirror each other again. -/
theorem gradientFrom {expr : Expr α} {adjoint : Expr α} {amount : α}
    {terms : IdMap (Expr α)} {grads grads' : IdMap α} (h : Mirrors num terms grads)
    (hAdjoint : adjoint.evaluate num = .ok amount)
    (hRun : expr.gradientFrom num amount grads = .ok grads') :
    ∃ terms', expr.symbolicGradientFrom adjoint terms = .ok terms' ∧
      Mirrors num terms' grads' := by
  induction expr generalizing adjoint amount terms grads grads' with
  | var id data =>
    rw [Expr.gradientFrom, Fault.lift_eq_ok_iff] at hRun
    exact ⟨accumulateTerm terms id adjoint, rfl, h.accumulate id hAdjoint hRun⟩
  | lit | const =>
    cases hRun
    exact ⟨terms, rfl, h⟩
  | binary op left right ihLeft ihRight =>
    obtain ⟨leftAmount, between, rightAmount, hLeftAmount, hLeft, hRightAmount, hRight⟩ :=
      gradientFrom_binary_steps hAdjoint hRun
    obtain ⟨termsBetween, hTermsLeft, hBetween⟩ := ihLeft h hLeftAmount hLeft
    obtain ⟨terms', hTermsRight, h'⟩ := ihRight hBetween hRightAmount hRight
    refine ⟨terms', ?_, h'⟩
    rw [symbolicGradientFrom_binary, bind_eq_ok_iff]
    exact ⟨termsBetween, hTermsLeft, hTermsRight⟩
  | unary fn operand ih =>
    obtain ⟨operandAmount, hOperandAmount, hOperand⟩ := gradientFrom_unary_steps hAdjoint hRun
    rw [symbolicGradientFrom_unary]
    exact ih h hOperandAmount hOperand
  | foreign value => cases hRun

end Mirrors

/-- A numerical gradient mirrors the symbolic gradient of the tree, which exists then. -/
theorem exists_mirrors {expr : Expr α} {grads : IdMap α}
    (hGradient : expr.gradient num = .ok grads) :
    ∃ terms, expr.symbolicGradient = .ok terms ∧ Mirrors num terms grads := by
  obtain ⟨one, hOne, hRun⟩ := (gradient_eq_ok_iff num expr grads).1 hGradient
  exact Mirrors.empty.gradientFrom hOne hRun

/-- Whenever the numerical gradient of a tree can be computed, its symbolic gradient has
the same ids in the same order, and each of its entries can be computed and gives exactly
the numerical entry. The arithmetic is arbitrary. -/
theorem symbolicGradient_of_gradient {expr : Expr α} {grads : IdMap α}
    (hGradient : expr.gradient num = .ok grads) :
    ∃ terms, expr.symbolicGradient = .ok terms ∧ terms.ids = grads.ids ∧
      ∀ id ∈ terms.ids, ∃ term value, terms.get? id = some term ∧ grads.get? id = some value ∧
        term.evaluate num = .ok value := by
  obtain ⟨terms, hTerms, hMirrors⟩ := exists_mirrors hGradient
  refine ⟨terms, hTerms, hMirrors.ids_eq, ?_⟩
  intro id hId
  cases hTerm : terms.get? id with
  | none => exact absurd hId ((IdMap.get?_eq_none_iff terms id).1 hTerm)
  | some term =>
    obtain ⟨value, hValue, hEvaluate⟩ := hMirrors.evaluate_eq id term hTerm
    exact ⟨term, value, rfl, hValue, hEvaluate⟩

/-- The agreement in decimal arithmetic for `x / y - x` at 3 and 2: the variable `x`
occurs twice, and both derivatives have the exact decimal exponent of their operations. -/
theorem symbolicGradient_of_gradient_quotient :
    ∃ grads : IdMap Scalar,
      (sub (div (var "x" (.int 3)) (var "y" (.int 2))) (var "x" (.int 3))).gradient
        Decimal.arithmetic = .ok grads ∧
      grads.entries = [("x", .decimal (.finite true 5 (-1))), ("y", .decimal (.finite true 75 (-2)))] ∧
      ∃ terms : IdMap (Expr Scalar),
        (sub (div (var "x" (.int 3)) (var "y" (.int 2))) (var "x" (.int 3))).symbolicGradient =
          .ok terms ∧ terms.ids = grads.ids ∧
        ∀ id ∈ terms.ids, ∃ term value, terms.get? id = some term ∧ grads.get? id = some value ∧
          term.evaluate Decimal.arithmetic = .ok value := by
  let grads : IdMap Scalar :=
    .ofList [("x", .decimal (.finite true 5 (-1))), ("y", .decimal (.finite true 75 (-2)))]
  have hGradient : (sub (div (var "x" (.int 3)) (var "y" (.int 2))) (var "x" (.int 3))).gradient
      Decimal.arithmetic = .ok grads := rfl
  exact ⟨grads, hGradient, rfl, symbolicGradient_of_gradient hGradient⟩

end Autodiff.Expr
