import Autodiff.Capability.Decimal
import Autodiff.Gradient.Trace
import Autodiff.Proofs.Expr.Rebinding
import Autodiff.Proofs.Gradient.Agreement
import Autodiff.Proofs.Gradient.Leaves

/-!
# Differentiation and rebinding

A tree may be differentiated before its variables get new values or afterwards: the symbolic
gradient is the same. Every copy of an operand in an adjoint is rebound with the operand.

* `symbolicGradientFrom_rebound` says so for a walk from any adjoint and any map, on any tree;
* `trace_eq` says what the value and the gradient of a tree with bindings are, whether there
  are any bindings or not;
* `symbolicGradient_substitute` is the law for the symbolic gradient and for the trace.
-/

namespace Autodiff.Expr

variable {α ε : Type}

/-! ## The walk -/

theorem leftTerm_rebound (bindings : IdMap α) (op : Op) (left right adjoint : Expr α) :
    (leftTerm op left right adjoint).rebound bindings =
      leftTerm op (left.rebound bindings) (right.rebound bindings) (adjoint.rebound bindings) := by
  cases op <;> rfl

theorem rightTerm_rebound (bindings : IdMap α) (op : Op) (left right adjoint : Expr α) :
    (rightTerm op left right adjoint).rebound bindings =
      rightTerm op (left.rebound bindings) (right.rebound bindings) (adjoint.rebound bindings) := by
  cases op <;> rfl

theorem operandTerm_rebound (bindings : IdMap α) (fn : Fn) (operand adjoint : Expr α) :
    (operandTerm fn operand adjoint).rebound bindings =
      operandTerm fn (operand.rebound bindings) (adjoint.rebound bindings) := by
  cases fn <;> rfl

/-- Rebind every entry of a map of expressions. -/
def reboundAll (bindings : IdMap α) (terms : IdMap (Expr α)) : IdMap (Expr α) :=
  terms.map fun _ term => term.rebound bindings

theorem accumulateTerm_rebound (bindings : IdMap α) (terms : IdMap (Expr α)) (id : String)
    (term : Expr α) :
    reboundAll bindings (accumulateTerm terms id term) =
      accumulateTerm (reboundAll bindings terms) id (term.rebound bindings) := by
  rw [accumulateTerm, reboundAll, IdMap.map_insert, accumulateTerm, reboundAll, IdMap.get?_map]
  cases terms.get? id <;> rfl

/-- A walk over the rebound tree leaves the rebound map, or it stops at the same foreign
value. -/
theorem symbolicGradientFrom_rebound (bindings : IdMap α) (expr adjoint : Expr α)
    (terms : IdMap (Expr α)) :
    (expr.rebound bindings).symbolicGradientFrom (adjoint.rebound bindings)
        (reboundAll bindings terms) =
      (expr.symbolicGradientFrom adjoint terms).map (reboundAll bindings) := by
  induction expr generalizing adjoint terms with
  | var id data =>
    rw [rebound, symbolicGradientFrom, symbolicGradientFrom, ← accumulateTerm_rebound]
    rfl
  | lit | const | foreign => rfl
  | binary op left right ihLeft ihRight =>
    rw [rebound, symbolicGradientFrom_binary, symbolicGradientFrom_binary, ← leftTerm_rebound,
      ← rightTerm_rebound, ihLeft]
    cases left.symbolicGradientFrom (leftTerm op left right adjoint) terms with
    | error found => rfl
    | ok between => exact ihRight (rightTerm op left right adjoint) between
  | unary fn operand ih =>
    rw [rebound, symbolicGradientFrom_unary, symbolicGradientFrom_unary, ← operandTerm_rebound, ih]

theorem symbolicGradient_rebound (bindings : IdMap α) (expr : Expr α) :
    (expr.rebound bindings).symbolicGradient =
      expr.symbolicGradient.map (reboundAll bindings) :=
  symbolicGradientFrom_rebound bindings expr (const 1) IdMap.empty

/-! ## The trace -/

/-- With bindings or without, the trace is that of the rebound tree. -/
theorem trace_eq (num : Arithmetic α ε) {expr : Expr α} (hGenuine : expr.Genuine)
    (bindings : IdMap α) :
    expr.trace num bindings = (do
      let value ← (expr.rebound bindings).evaluate num
      let grads ← (expr.rebound bindings).gradient num
      return ⟨value, grads⟩) := by
  rw [trace]
  split
  · next hEmpty =>
    rw [IdMap.eq_empty_of_isEmpty hEmpty, rebound_empty]
    rfl
  · rw [substitute_eq_rebound bindings hGenuine]
    rfl

/-- Differentiating and rebinding commute. The symbolic gradient of a rebound tree has the ids
of the symbolic gradient of the tree, and its entries are the rebound entries. Whenever a
trace with these bindings, none included, succeeds, its gradient has these ids too, and each
of its entries is the value of the rebound entry. -/
theorem symbolicGradient_substitute (num : Arithmetic α ε) {expr : Expr α}
    (hGenuine : expr.Genuine) (bindings : IdMap α) :
    ∃ there terms newTerms, expr.substitute bindings = .ok there ∧
      expr.symbolicGradient = .ok terms ∧ there.symbolicGradient = .ok newTerms ∧
      newTerms.ids = terms.ids ∧
      (∀ id term, terms.get? id = some term →
        ∃ newTerm, term.substitute bindings = .ok newTerm ∧ newTerms.get? id = some newTerm) ∧
      ∀ traced, expr.trace num bindings = .ok traced →
        traced.grads.ids = terms.ids ∧
        ∀ id term, terms.get? id = some term →
          ∃ newTerm value, term.substitute bindings = .ok newTerm ∧
            newTerm.evaluate num = .ok value ∧ traced.grads.get? id = some value := by
  obtain ⟨terms, hTerms⟩ : ∃ terms, expr.symbolicGradient = .ok terms :=
    ⟨_, symbolicGradientFrom_eq_ok_iff.2 ⟨hGenuine, rfl⟩⟩
  have hNew : (expr.rebound bindings).symbolicGradient = .ok (reboundAll bindings terms) := by
    rw [symbolicGradient_rebound, hTerms]
    rfl
  have hIds : (reboundAll bindings terms).ids = terms.ids := IdMap.ids_map _ _
  have hEntry : ∀ id term, terms.get? id = some term →
      term.substitute bindings = .ok (term.rebound bindings) ∧
        (reboundAll bindings terms).get? id = some (term.rebound bindings) := by
    intro id term hTerm
    have hLeaves := everyLeaf_of_symbolicGradient trivial trivial
      (everyLeaf_genuine_iff.2 hGenuine) hTerms hTerm
    refine ⟨substitute_eq_rebound bindings (everyLeaf_genuine_iff.1 hLeaves), ?_⟩
    rw [reboundAll, IdMap.get?_map, hTerm]
    rfl
  refine ⟨expr.rebound bindings, terms, reboundAll bindings terms,
    substitute_eq_rebound bindings hGenuine, hTerms, hNew, hIds, ?_, ?_⟩
  · intro id term hTerm
    exact ⟨_, hEntry id term hTerm⟩
  · intro traced hTrace
    rw [trace_eq num hGenuine, bind_eq_ok_iff] at hTrace
    obtain ⟨value, -, hTrace⟩ := hTrace
    obtain ⟨grads, hGradient, hTrace⟩ := bind_eq_ok_iff.1 hTrace
    cases hTrace
    obtain ⟨found, hFound, hMirrors⟩ := exists_mirrors hGradient
    cases hFound.symm.trans hNew
    refine ⟨hMirrors.ids_eq.symm.trans hIds, ?_⟩
    intro id term hTerm
    obtain ⟨hSubstitute, hGet⟩ := hEntry id term hTerm
    obtain ⟨entry, hGrad, hEvaluate⟩ := hMirrors.evaluate_eq id _ hGet
    exact ⟨_, entry, hSubstitute, hEvaluate, hGrad⟩

/-- The law in decimal arithmetic for `x / y` at 3 and 2 with the new value 4 for `y` and one
for an id that does not occur: the derivative by `y` has copies of `y` in a square. -/
theorem symbolicGradient_substitute_quotient :
    ∃ (expr there : Expr Scalar) (bindings : IdMap Scalar) (terms newTerms : IdMap (Expr Scalar))
      (traced : Traced Scalar),
      expr = div (var "x" (.int 3)) (var "y" (.int 2)) ∧
      bindings = .ofList [("y", .int 4), ("z", .int 9)] ∧
      traced.grads = .ofList
        [("x", .decimal (.finite false 25 (-2))), ("y", .decimal (.finite true 1875 (-4)))] ∧
      expr.Genuine ∧ expr.substitute bindings = .ok there ∧
      expr.symbolicGradient = .ok terms ∧ there.symbolicGradient = .ok newTerms ∧
      newTerms.ids = terms.ids ∧
      (∀ id term, terms.get? id = some term →
        ∃ newTerm, term.substitute bindings = .ok newTerm ∧ newTerms.get? id = some newTerm) ∧
      expr.trace Decimal.arithmetic bindings = .ok traced ∧
      traced.grads.ids = terms.ids ∧
      ∀ id term, terms.get? id = some term →
        ∃ newTerm value, term.substitute bindings = .ok newTerm ∧
          newTerm.evaluate Decimal.arithmetic = .ok value ∧
          traced.grads.get? id = some value := by
  let expr : Expr Scalar := div (var "x" (.int 3)) (var "y" (.int 2))
  let bindings : IdMap Scalar := .ofList [("y", .int 4), ("z", .int 9)]
  let traced : Traced Scalar := ⟨.decimal (.finite false 75 (-2)), .ofList
    [("x", .decimal (.finite false 25 (-2))), ("y", .decimal (.finite true 1875 (-4)))]⟩
  have hGenuine : expr.Genuine := by simp [expr, Genuine]
  have hTrace : expr.trace Decimal.arithmetic bindings = .ok traced := rfl
  obtain ⟨there, terms, newTerms, hThere, hTerms, hNew, hIds, hEntries, hTraced⟩ :=
    symbolicGradient_substitute Decimal.arithmetic hGenuine bindings
  exact ⟨expr, there, bindings, terms, newTerms, traced, rfl, rfl, rfl, hGenuine, hThere, hTerms,
    hNew, hIds, hEntries, hTrace, hTraced traced hTrace⟩

end Autodiff.Expr
