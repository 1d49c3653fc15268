import Autodiff.Capability.Decimal
import Autodiff.Expr.Eval
import Autodiff.Expr.Printer
import Autodiff.Proofs.Expr.Order
import Autodiff.Proofs.Expr.Rebinding
import Autodiff.Proofs.Expr.Variables

/-!
# Laws of substitution

New values for the variables of a tree move nothing but the data of its variable leaves. Whoever
reads a rebound tree therefore sees the old shape: the same text, the same variables, the same
nodes in both orders, each of them rebound. Its value is that of the old tree in a state that
holds the new values.

* `Expr.evaluateIn` computes a tree whose variables are looked up first, and `evaluate_rebound`
  says that this is the value of the rebound tree;
* `rebound_congr` says that only the bindings of the ids of the tree count;
* `infixText_rebound`, `walk_rebound`, `postorder_rebound` and `variableIds_rebound` say what the
  walks over a rebound tree see, foreign values included;
* `substitute_laws` states the laws for `Expr.substitute`.
-/

namespace Autodiff.Expr

variable {α ε : Type}

/-! ## The value -/

/-- The value of an expression in a state: a bound variable has its value there, and only the
others have that of their leaf. -/
def evaluateIn (num : Arithmetic α ε) (state : IdMap α) : Expr α → Except (Fault α ε) α
  | var id data => .ok ((state.get? id).getD data)
  | lit data => .ok data
  | const n => Fault.lift (num.ofInt n)
  | binary op left right => do
    let x ← left.evaluateIn num state
    let y ← right.evaluateIn num state
    Fault.lift (num.apply op x y)
  | unary .neg operand => do
    let zero ← Fault.lift (num.ofInt 0)
    let x ← operand.evaluateIn num state
    Fault.lift (num.sub zero x)
  | unary .log operand => do
    let x ← operand.evaluateIn num state
    Fault.lift (num.log x)
  | foreign value => .error (.notNode ⟨value⟩)

theorem evaluate_rebound (num : Arithmetic α ε) (bindings : IdMap α) (expr : Expr α) :
    (expr.rebound bindings).evaluate num = expr.evaluateIn num bindings := by
  induction expr with
  | var | lit | const | foreign => rfl
  | binary op left right ihLeft ihRight => rw [rebound, evaluate, ihLeft, ihRight, evaluateIn]
  | unary fn operand ih => cases fn <;> rw [rebound, evaluate, ih, evaluateIn]

/-- A state without values adds nothing. -/
theorem evaluateIn_empty (num : Arithmetic α ε) (expr : Expr α) :
    expr.evaluateIn num IdMap.empty = expr.evaluate num := by
  rw [← evaluate_rebound, rebound_empty]

/-! ## What counts -/

/-- Bindings that agree on the variables of a tree rebind it alike. -/
theorem rebound_congr {bindings other : IdMap α} {expr : Expr α}
    (hAgree : ∀ id ∈ expr.leafIds, other.get? id = bindings.get? id) :
    expr.rebound other = expr.rebound bindings := by
  induction expr with
  | var id data => rw [rebound, rebound, hAgree id (List.mem_singleton.2 rfl)]
  | lit | const | foreign => rfl
  | binary op left right ihLeft ihRight =>
    rw [rebound, rebound, ihLeft fun id hMem => hAgree id (List.mem_append_left _ hMem),
      ihRight fun id hMem => hAgree id (List.mem_append_right _ hMem)]
  | unary fn operand ih => rw [rebound, rebound, ih hAgree]

/-! ## What stays -/

variable (bindings : IdMap α)

theorem infixText_rebound (text : α → String) (expr : Expr α) :
    (expr.rebound bindings).infixText text = expr.infixText text := by
  induction expr with
  | var | lit | const | foreign => rfl
  | binary op left right ihLeft ihRight => rw [rebound, infixText, ihLeft, ihRight, infixText]
  | unary fn operand ih => cases fn <;> rw [rebound, infixText, ih, infixText]

theorem operands_rebound (expr : Expr α) :
    (expr.rebound bindings).operands = expr.operands.map (List.map (rebound bindings)) := by
  cases expr <;> rfl

/-- One turn of the walk over a stack. -/
theorem walk_cons (node : Expr α) (waiting : List (Expr α)) :
    walk (node :: waiting) = (do
      let children ← node.operands
      let later ← walk (children ++ waiting)
      return node :: later) := by
  rw [walk]
  split
  · next found hOperands => rw [hOperands, error_bind]
  · next children hOperands =>
    rw [hOperands, ok_bind]
    cases walk (children ++ waiting) <;> rfl

/-- The walk over rebound trees lists the rebound nodes, or it stops at the same foreign value. -/
theorem walk_rebound (stack : List (Expr α)) :
    walk (stack.map (rebound bindings)) = (walk stack).map (List.map (rebound bindings)) := by
  fun_induction walk stack with
  | case1 =>
    rw [List.map_nil, walk]
    rfl
  | case2 node waiting found hOperands =>
    rw [List.map_cons, walk_cons, operands_rebound, hOperands]
    rfl
  | case3 node waiting children hOperands found hRest ih =>
    rw [hRest, List.map_append] at ih
    rw [List.map_cons, walk_cons, operands_rebound, hOperands]
    simp only [Except.map, ok_bind, ih, error_bind]
  | case4 node waiting children hOperands later hRest ih =>
    rw [hRest, List.map_append] at ih
    rw [List.map_cons, walk_cons, operands_rebound, hOperands]
    simp only [Except.map, ok_bind, ih]
    rfl

theorem preorder_rebound (expr : Expr α) :
    (expr.rebound bindings).preorder = expr.preorder.map (List.map (rebound bindings)) :=
  walk_rebound bindings [expr]

theorem postorder_rebound (expr : Expr α) :
    (expr.rebound bindings).postorder = expr.postorder.map (List.map (rebound bindings)) := by
  induction expr with
  | var | lit | const | foreign => rfl
  | binary op left right ihLeft ihRight =>
    rw [rebound, postorder, ihLeft, ihRight, postorder]
    cases left.postorder with
    | error found => rfl
    | ok before =>
      cases right.postorder with
      | error found => rfl
      | ok between => simp [Except.map, pure, Except.pure, rebound]
  | unary fn operand ih =>
    rw [rebound, postorder, ih, postorder]
    cases operand.postorder with
    | error found => rfl
    | ok before => simp [Except.map, pure, Except.pure, rebound]

theorem id?_rebound (expr : Expr α) : (expr.rebound bindings).id? = expr.id? := by
  cases expr <;> rfl

theorem variableIds_rebound (expr : Expr α) :
    (expr.rebound bindings).variableIds = expr.variableIds := by
  rw [variableIds, preorder_rebound, variableIds]
  cases expr.preorder with
  | error found => rfl
  | ok nodes =>
    have hIds : id? ∘ rebound bindings = id? := funext (id?_rebound bindings)
    simp only [Except.map, ok_bind, List.filterMap_map, hIds]

/-! ## The laws -/

theorem mapM_substitute {nodes : List (Expr α)} (hGenuine : ∀ node ∈ nodes, node.Genuine) :
    nodes.mapM (substitute bindings) = .ok (nodes.map (rebound bindings)) := by
  induction nodes with
  | nil => rfl
  | cons node nodes ih =>
    rw [List.mapM_cons, substitute_eq_rebound bindings (hGenuine node List.mem_cons_self),
      ih fun other hMem => hGenuine other (List.mem_cons_of_mem node hMem)]
    rfl

/-- The laws of substitution, for a genuine tree and any bindings. Two substitutions are one with
the newer bindings written over the older ones, and one without bindings does nothing. Only the
bindings of the variables of the tree count. The value of the new tree is that of the old one with
its variables looked up in the bindings first. Its text and its variables are those of the old
tree, and both orders list the nodes of the old tree with the substitution applied to each. -/
theorem substitute_laws (num : Arithmetic α ε) (text : α → String) {expr : Expr α}
    (hGenuine : expr.Genuine) (bindings newer : IdMap α) :
    ∃ there written ids nodes newNodes sorted newSorted,
      expr.substitute bindings = .ok there ∧
      there.substitute newer = expr.substitute (bindings.override newer) ∧
      expr.substitute IdMap.empty = .ok expr ∧
      (∀ other, (∀ id ∈ ids, other.get? id = bindings.get? id) →
        expr.substitute other = .ok there) ∧
      there.evaluate num = expr.evaluateIn num bindings ∧
      expr.infixText text = .ok written ∧ there.infixText text = .ok written ∧
      expr.variableIds = .ok ids ∧ there.variableIds = .ok ids ∧
      expr.preorder = .ok nodes ∧ there.preorder = .ok newNodes ∧
      nodes.mapM (substitute bindings) = .ok newNodes ∧
      expr.postorder = .ok sorted ∧ there.postorder = .ok newSorted ∧
      sorted.mapM (substitute bindings) = .ok newSorted := by
  obtain ⟨written, hWritten⟩ := exists_infixText text hGenuine
  have hNodes := preorder_eq_occurrences hGenuine
  have hSorted := postorder_eq hGenuine
  have hIds := variableIds_eq hGenuine
  refine ⟨expr.rebound bindings, written, _, _, _, _, _,
    substitute_eq_rebound bindings hGenuine, ?twice, substitute_empty hGenuine, ?counted,
    evaluate_rebound num bindings expr, hWritten, ?text, hIds, ?sameIds, hNodes, ?nodes,
    mapM_substitute bindings ?genuineNodes, hSorted, ?sorted, mapM_substitute bindings ?genuineSorted⟩
  case twice =>
    rw [substitute_eq_rebound newer (hGenuine.rebound bindings), rebound_rebound,
      substitute_eq_rebound _ hGenuine]
  case counted =>
    intro other hAgree
    rw [substitute_eq_rebound other hGenuine,
      rebound_congr fun id hMem => hAgree id (List.mem_eraseDups.2 hMem)]
  case text => rw [infixText_rebound, hWritten]
  case sameIds => rw [variableIds_rebound, hIds]
  case nodes =>
    rw [preorder_rebound, hNodes]
    rfl
  case genuineNodes =>
    intro node hMem
    obtain ⟨occurrence, hOccurrence, rfl⟩ := List.mem_map.1 hMem
    exact hGenuine.of_mem_occurrences hOccurrence
  case sorted =>
    rw [postorder_rebound, hSorted]
    rfl
  case genuineSorted => exact fun node hMem => hGenuine.of_mem_postfixNodes hMem

/-- The laws for `x * y - (-x)` at 2 and 3, with the new value 5 for both leaves of `x` and one for
an id that does not occur, and then a newer value for `y`. -/
theorem substitute_laws_repeated :
    ∃ (expr there : Expr Scalar) (bindings newer : IdMap Scalar) (ids : List String)
      (sorted newSorted : List (Expr Scalar)),
      expr = sub (mul (var "x" (.int 2)) (var "y" (.int 3))) (neg (var "x" (.int 2))) ∧
      bindings = .ofList [("x", .int 5), ("z", .int 9)] ∧ newer = .ofList [("y", .int 1)] ∧
      expr.Genuine ∧ expr.substitute bindings = .ok there ∧
      there.substitute newer = expr.substitute (bindings.override newer) ∧
      expr.variableIds = .ok ids ∧
      (∀ other, (∀ id ∈ ids, other.get? id = bindings.get? id) →
        expr.substitute other = .ok there) ∧
      there.evaluate Decimal.arithmetic = .ok (.decimal (.finite false 20 0)) ∧
      expr.postorder = .ok sorted ∧ there.postorder = .ok newSorted ∧
      sorted.mapM (substitute bindings) = .ok newSorted := by
  let expr : Expr Scalar :=
    sub (mul (var "x" (.int 2)) (var "y" (.int 3))) (neg (var "x" (.int 2)))
  let bindings : IdMap Scalar := .ofList [("x", .int 5), ("z", .int 9)]
  have hGenuine : expr.Genuine := by simp [expr, Genuine]
  have hValue : expr.evaluateIn Decimal.arithmetic bindings =
      .ok (.decimal (.finite false 20 0)) := by rfl
  obtain ⟨there, _, ids, _, _, sorted, newSorted, hThere, hTwice, -, hCounted, hEvaluate, -, -, hIds,
    -, -, -, -, hSorted, hNewSorted, hEach⟩ := substitute_laws Decimal.arithmetic (fun _ => "")
      hGenuine bindings (.ofList [("y", .int 1)])
  exact ⟨expr, there, bindings, _, ids, sorted, newSorted, rfl, rfl, rfl, hGenuine, hThere, hTwice,
    hIds, hCounted, hEvaluate.trans hValue, hSorted, hNewSorted, hEach⟩

end Autodiff.Expr
