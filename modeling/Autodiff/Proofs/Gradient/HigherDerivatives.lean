import Autodiff.Proofs.Gradient.Leaves
import Autodiff.Proofs.Gradient.Variables

/-!
# Derivatives of derivatives

An entry of a symbolic gradient is a tree again and can be differentiated again, by the same or
by another variable. A derivative brings in no data: its leaves are those of the tree and the
constants 0 and 1. So neither does a derivative of a derivative, however often this is repeated,
and nothing goes wrong on the way unless a variable is asked for that is gone.

* `derivative` takes the symbolic gradient and selects an entry, and `exists_derivative_iff` says
  when there is one;
* `derivatives` does so for one id after the other, and `exists_derivatives_iff` says when that
  succeeds;
* `LeavesFrom` is what one derivative preserves, by `leavesFrom_of_derivative`, and thus what any
  number of them does, by `leavesFrom_of_derivatives`;
* `higher_derivatives_closed` puts this together.
-/

namespace Autodiff.Expr

variable {α : Type}

/-- Why a tree has no derivative by an id. -/
inductive NoDerivative (α : Type) where
  /-- A foreign value stands where an expression node is expected. -/
  | notNode (found : NotNode α)
  /-- The symbolic gradient has no entry for the id. -/
  | missing (id : String)
  deriving DecidableEq

/-- The entry of the symbolic gradient for an id. -/
def derivative (expr : Expr α) (id : String) : Except (NoDerivative α) (Expr α) :=
  match expr.symbolicGradient with
  | .error found => .error (.notNode found)
  | .ok terms =>
    match terms.get? id with
    | none => .error (.missing id)
    | some term => .ok term

/-- The derivative by the first id, its derivative by the second, and so on. -/
def derivatives (expr : Expr α) (ids : List String) : Except (NoDerivative α) (Expr α) :=
  ids.foldlM derivative expr

/-! ## One derivative -/

theorem derivative_eq_ok_iff {expr term : Expr α} {id : String} :
    expr.derivative id = .ok term ↔
      ∃ terms, expr.symbolicGradient = .ok terms ∧ terms.get? id = some term := by
  unfold derivative
  cases hRun : expr.symbolicGradient with
  | error found => simp
  | ok terms => cases hTerm : terms.get? id <;> simp [hTerm]

theorem leavesFrom_of_derivative {expr term : Expr α} {id : String}
    (hDerivative : expr.derivative id = .ok term) : LeavesFrom expr term := by
  obtain ⟨terms, hRun, hTerm⟩ := derivative_eq_ok_iff.1 hDerivative
  exact leavesFrom_of_symbolicGradient hRun hTerm

/-- A genuine tree has a derivative by its variables and by no other id. -/
theorem exists_derivative_iff {expr : Expr α} (hGenuine : expr.Genuine) {id : String} :
    (∃ term, expr.derivative id = .ok term) ↔ ∃ data, var id data ∈ expr.leaves := by
  have hRun : expr.symbolicGradient = .ok _ := symbolicGradientFrom_eq_ok_iff.2 ⟨hGenuine, rfl⟩
  simp only [derivative_eq_ok_iff, hRun, Except.ok.injEq, exists_eq_left']
  rw [← Option.ne_none_iff_exists', ne_eq, IdMap.get?_eq_none_iff, not_not,
    ids_symbolicGradient hRun, List.mem_eraseDups, mem_leafIds_iff_leaves]

/-! ## One derivative after the other -/

theorem derivatives_append_eq_ok_iff {expr result : Expr α} {front back : List String} :
    expr.derivatives (front ++ back) = .ok result ↔
      ∃ current, expr.derivatives front = .ok current ∧ current.derivatives back = .ok result := by
  rw [derivatives, List.foldlM_append, bind_eq_ok_iff]
  rfl

theorem derivatives_cons_eq_ok_iff {expr result : Expr α} {id : String} {ids : List String} :
    expr.derivatives (id :: ids) = .ok result ↔
      ∃ next, expr.derivative id = .ok next ∧ next.derivatives ids = .ok result := by
  rw [derivatives, List.foldlM_cons, bind_eq_ok_iff]
  rfl

theorem leavesFrom_of_derivatives {expr result : Expr α} {ids : List String}
    (hRun : expr.derivatives ids = .ok result) : LeavesFrom expr result := by
  induction ids generalizing expr with
  | nil =>
    cases hRun
    exact .refl _
  | cons id ids ih =>
    obtain ⟨next, hNext, hRest⟩ := derivatives_cons_eq_ok_iff.1 hRun
    exact (leavesFrom_of_derivative hNext).trans (ih hRest)

/-- A genuine tree can be differentiated by a list of ids exactly if every id is a variable of what
has been reached before it. -/
theorem exists_derivatives_iff {expr : Expr α} (hGenuine : expr.Genuine) {ids : List String} :
    (∃ result, expr.derivatives ids = .ok result) ↔
      ∀ front id back current, ids = front ++ id :: back →
        expr.derivatives front = .ok current → ∃ data, var id data ∈ current.leaves := by
  constructor
  · rintro ⟨result, hRun⟩ front id back current rfl hFront
    obtain ⟨reached, hReached, hRest⟩ := derivatives_append_eq_ok_iff.1 hRun
    cases hFront.symm.trans hReached
    obtain ⟨next, hNext, -⟩ := derivatives_cons_eq_ok_iff.1 hRest
    have hCurrent : current.Genuine := (leavesFrom_of_derivatives hFront).genuine hGenuine
    exact (exists_derivative_iff hCurrent).1 ⟨next, hNext⟩
  · -- The last id is the one that is asked for last, so the ids are taken off at the end.
    intro hOccurs
    induction ids using List.reverseRecOn with
    | nil => exact ⟨expr, rfl⟩
    | append_singleton front id ih =>
      obtain ⟨current, hFront⟩ := ih fun earlier other back reached hSplit =>
        hOccurs earlier other (back ++ [id]) reached (by rw [hSplit, List.append_assoc]; rfl)
      have hCurrent : current.Genuine := (leavesFrom_of_derivatives hFront).genuine hGenuine
      obtain ⟨next, hNext⟩ :=
        (exists_derivative_iff hCurrent).2 (hOccurs front id [] current rfl hFront)
      exact ⟨next, derivatives_append_eq_ok_iff.2
        ⟨current, hFront, derivatives_cons_eq_ok_iff.2 ⟨next, hNext, rfl⟩⟩⟩

/-! ## Any number of derivatives -/

/-- The derivatives of a genuine tree have leaves of the tree and the constants 0 and 1, are
genuine and have no other variables. They can be taken again and again as long as the variable is
there, and a derivative of any order has still only leaves of the tree, 0 and 1; if all variables of
an id carry the same datum in the tree, they do so in it. -/
theorem higher_derivatives_closed {expr : Expr α} (hGenuine : expr.Genuine) :
    (∃ terms all, expr.symbolicGradient = .ok terms ∧ expr.variableIds = .ok all ∧
      ∀ id term, terms.get? id = some term →
        (∀ leaf ∈ term.leaves, leaf ∈ expr.leaves ∨ leaf = const 0 ∨ leaf = const 1) ∧
          term.Genuine ∧ ∃ ids, term.variableIds = .ok ids ∧ ids ⊆ all) ∧
      (∀ ids, (∃ result, expr.derivatives ids = .ok result) ↔
        ∀ front id back current, ids = front ++ id :: back →
          expr.derivatives front = .ok current → ∃ data, var id data ∈ current.leaves) ∧
      ∀ ids result, expr.derivatives ids = .ok result →
        result.Genuine ∧
          (∀ leaf ∈ result.leaves, leaf ∈ expr.leaves ∨ leaf = const 0 ∨ leaf = const 1) ∧
          (∀ id data, var id data ∈ result.leaves → var id data ∈ expr.leaves) ∧
          ∀ id, (∀ data other, var id data ∈ expr.leaves → var id other ∈ expr.leaves →
              data = other) →
            ∀ data other, var id data ∈ result.leaves → var id other ∈ result.leaves →
              data = other := by
  refine ⟨?once, fun ids => exists_derivatives_iff hGenuine, ?again⟩
  case once =>
    have hRun : expr.symbolicGradient = .ok _ := symbolicGradientFrom_eq_ok_iff.2 ⟨hGenuine, rfl⟩
    refine ⟨_, _, hRun, variableIds_eq hGenuine, fun id term hTerm => ?_⟩
    have hLeaves := leavesFrom_of_symbolicGradient hRun hTerm
    have hTermGenuine := hLeaves.genuine hGenuine
    refine ⟨hLeaves, hTermGenuine, _, variableIds_eq hTermGenuine, fun other hMem => ?_⟩
    exact List.mem_eraseDups.2 (hLeaves.leafIds_subset (List.mem_eraseDups.1 hMem))
  case again =>
    intro ids result hRun
    have hLeaves := leavesFrom_of_derivatives hRun
    refine ⟨hLeaves.genuine hGenuine, hLeaves, fun id data => hLeaves.mem_of_var, ?_⟩
    intro id hSame data other hData hOther
    exact hSame data other (hLeaves.mem_of_var hData) (hLeaves.mem_of_var hOther)

/-- The third derivative of `x ^ 2 / y` by `x`, `y` and again `x` has no datum for `x` but 3. There
is no derivative by `z`. -/
theorem higher_derivatives_closed_quotient :
    ∃ expr result : Expr Scalar,
      expr = div (pow (var "x" (.int 3)) (const 2)) (var "y" (.int 4)) ∧ expr.Genuine ∧
      expr.derivatives ["x", "y", "x"] = .ok result ∧ result.Genuine ∧
      (∀ data, var "x" data ∈ result.leaves → data = .int 3) ∧
      expr.derivatives ["x", "z"] = .error (.missing "z") := by
  let expr : Expr Scalar := div (pow (var "x" (.int 3)) (const 2)) (var "y" (.int 4))
  have hGenuine : expr.Genuine := by simp [expr, Genuine]
  have hRun : expr.derivatives ["x", "y", "x"] = .ok _ := rfl
  obtain ⟨-, -, hEvery⟩ := higher_derivatives_closed hGenuine
  obtain ⟨hResult, -, hVars, -⟩ := hEvery _ _ hRun
  refine ⟨expr, _, rfl, hGenuine, hRun, hResult, fun data hMem => ?_, rfl⟩
  simpa [expr, leaves] using hVars "x" data hMem

end Autodiff.Expr
