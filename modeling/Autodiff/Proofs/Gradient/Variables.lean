import Autodiff.Capability.Decimal
import Autodiff.Proofs.Expr.Variables
import Autodiff.Proofs.Gradient.Agreement
import Autodiff.Proofs.Gradient.Contribution

/-!
# The ids of a gradient

Three walks meet the variable leaves of a tree: the numerical one, the symbolic one and the
listing of the nodes by a stack. They meet them in the same order, so the maps of both gradients
have the variables of the tree for ids, in the order of their first leaves. An id is there even if
what its leaves contribute cancels, is zero or is no number, and an id without a leaf is not.

* `ids_symbolicGradient` and `ids_gradient` say so for the two gradients;
* `gradient_has_variables` puts both together with what the variables are.
-/

namespace Autodiff.Expr

variable {α ε : Type}

theorem ids_symbolicGradient {expr : Expr α} {terms : IdMap (Expr α)}
    (hRun : expr.symbolicGradient = .ok terms) : terms.ids = expr.leafIds.eraseDups := by
  have hGenuine := (symbolicGradientFrom_eq_ok_iff.1 hRun).1
  have hIds := (variableIds_of_symbolicGradient hRun).symm.trans (variableIds_eq hGenuine)
  exact Except.ok.inj hIds

theorem ids_gradient {num : Arithmetic α ε} {expr : Expr α} {grads : IdMap α}
    (hRun : expr.gradient num = .ok grads) : grads.ids = expr.leafIds.eraseDups := by
  obtain ⟨terms, hTerms, hMirrors⟩ := exists_mirrors hRun
  rw [← hMirrors.ids_eq, ids_symbolicGradient hTerms]

/-- The ids of both gradients are the variables of the tree in the order of their first leaves,
each once. The symbolic gradient always exists; of the numerical one it is said whenever the
arithmetic lets it be computed. -/
theorem gradient_has_variables (num : Arithmetic α ε) {expr : Expr α} (hGenuine : expr.Genuine) :
    ∃ ids nodes, expr.variableIds = .ok ids ∧ ids = expr.leafIds.eraseDups ∧ ids.Nodup ∧
      expr.preorder = .ok nodes ∧ (∀ id, id ∈ ids ↔ ∃ data, var id data ∈ nodes) ∧
      (∃ terms, expr.symbolicGradient = .ok terms ∧ terms.ids = ids) ∧
      ∀ grads, expr.gradient num = .ok grads → grads.ids = ids := by
  have hNodes := preorder_eq_occurrences hGenuine
  refine ⟨_, _, variableIds_eq hGenuine, rfl, ?_, hNodes, ?_, ?_, ?_⟩
  · rw [← distinct_eq_eraseDups]
    exact nodup_distinct expr.leafIds
  · intro id
    rw [List.mem_eraseDups, mem_leafIds_iff hGenuine hNodes]
  · have hRun : expr.symbolicGradient = .ok _ :=
      symbolicGradientFrom_eq_ok_iff.2 ⟨hGenuine, rfl⟩
    exact ⟨_, hRun, ids_symbolicGradient hRun⟩
  · intro grads hRun
    exact ids_gradient hRun

/-- The ids of `(y - y) + (0 * x + NaN * z)`: the contributions to `y` cancel, that to `x` is zero
and that to `z` is no number. -/
theorem gradient_has_variables_cancelled :
    ∃ (expr : Expr Scalar) (grads : IdMap Scalar),
      expr = add (sub (var "y" (.int 5)) (var "y" (.int 5)))
        (add (mul (lit (.int 0)) (var "x" (.int 2)))
          (mul (lit (.decimal (.nan false false 0))) (var "z" (.int 3)))) ∧
      grads = .ofList [("y", .decimal (.finite false 0 0)), ("x", .decimal (.finite false 0 0)),
        ("z", .decimal (.nan false false 0))] ∧
      expr.Genuine ∧ expr.gradient Decimal.arithmetic = .ok grads ∧
      expr.variableIds = .ok grads.ids ∧
      ∃ terms, expr.symbolicGradient = .ok terms ∧ terms.ids = grads.ids := by
  let expr : Expr Scalar := add (sub (var "y" (.int 5)) (var "y" (.int 5)))
    (add (mul (lit (.int 0)) (var "x" (.int 2)))
      (mul (lit (.decimal (.nan false false 0))) (var "z" (.int 3))))
  let grads : IdMap Scalar := .ofList [("y", .decimal (.finite false 0 0)),
    ("x", .decimal (.finite false 0 0)), ("z", .decimal (.nan false false 0))]
  have hGenuine : expr.Genuine := by simp [expr, Genuine]
  have hRun : expr.gradient Decimal.arithmetic = .ok grads := rfl
  obtain ⟨ids, nodes, hIds, -, -, -, -, hSymbolic, hGradient⟩ :=
    gradient_has_variables Decimal.arithmetic hGenuine
  obtain rfl := hGradient grads hRun
  exact ⟨expr, grads, rfl, rfl, hGenuine, hRun, hIds, hSymbolic⟩

end Autodiff.Expr
