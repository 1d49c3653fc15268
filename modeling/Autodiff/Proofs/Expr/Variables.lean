import Mathlib.Data.List.Induction
import Autodiff.Proofs.Expr.Occurrence

/-!
# The variables of a tree

The variable leaves of a tree, from left to right, have the ids `Expr.leafIds`, an id as often
as it has leaves. The variables of the tree are these ids without later repetitions, so an id
stands where its first leaf does.

* `distinct_eq_eraseDups` says that writing ids into a map leaves each at its first place;
* `filterMap_preorder` says that the walk over a stack reaches the variable leaves from left to
  right, and `variableIds_eq` what the variables are;
* `mem_leafIds_iff` says that they are the ids that some node has.
-/

namespace Autodiff.Expr

variable {α : Type}

/-! ## Distinct ids -/

/-- Of the places of an id the first one is kept. -/
theorem distinct_eq_eraseDups (ids : List String) : distinct ids = ids.eraseDups := by
  -- the last id is written last, and it is new if no id before it is the same
  induction ids using List.reverseRecOn with
  | nil => rfl
  | append_singleton ids id ih =>
    have hLast : distinct (ids ++ [id]) =
        if id ∈ distinct ids then distinct ids else distinct ids ++ [id] := by
      rw [distinct, List.foldl_append]
      exact IdMap.ids_insert _ id ()
    rw [hLast, ih, List.eraseDups_append]
    by_cases hMem : id ∈ ids
    · simp [List.removeAll, hMem]
    · simp [List.removeAll, hMem, List.eraseDups_cons]

theorem nodup_distinct (ids : List String) : (distinct ids).Nodup :=
  IdMap.nodup _

/-! ## The variable leaves -/

/-- The ids of the variable leaves, left to right. -/
def leafIds : Expr α → List String
  | var id _ => [id]
  | lit _ => []
  | const _ => []
  | binary _ left right => left.leafIds ++ right.leafIds
  | unary _ operand => operand.leafIds
  | foreign _ => []

theorem filterMap_occurrences (expr : Expr α) :
    (expr.occurrences.map Occurrence.node).filterMap id? = expr.leafIds := by
  induction expr with
  | var | lit | const | foreign => rfl
  | binary op left right ihLeft ihRight =>
    have hOperands : (binary op left right).operands = .ok [left, right] := rfl
    rw [map_node_occurrences hOperands, List.filterMap_cons_none rfl]
    simp [leafIds, ihLeft, ihRight]
  | unary fn operand ih =>
    have hOperands : (unary fn operand).operands = .ok [operand] := rfl
    rw [map_node_occurrences hOperands, List.filterMap_cons_none rfl]
    simp [leafIds, ih]

/-- The walk reaches the variable leaves from left to right. -/
theorem filterMap_preorder {expr : Expr α} {nodes : List (Expr α)} (hGenuine : expr.Genuine)
    (hNodes : expr.preorder = .ok nodes) : nodes.filterMap id? = expr.leafIds := by
  cases hNodes.symm.trans (preorder_eq_occurrences hGenuine)
  exact filterMap_occurrences expr

/-- The variables are the ids of the variable leaves without later repetitions. -/
theorem variableIds_eq {expr : Expr α} (hGenuine : expr.Genuine) :
    expr.variableIds = .ok expr.leafIds.eraseDups := by
  rw [variableIds, preorder_eq_occurrences hGenuine, ok_bind, filterMap_occurrences,
    distinct_eq_eraseDups]
  rfl

theorem id?_eq_some_iff {expr : Expr α} {id : String} :
    expr.id? = some id ↔ ∃ data, expr = var id data := by
  cases expr <;> simp [id?]

theorem mem_leafIds_iff {expr : Expr α} {nodes : List (Expr α)} (hGenuine : expr.Genuine)
    (hNodes : expr.preorder = .ok nodes) {id : String} :
    id ∈ expr.leafIds ↔ ∃ data, var id data ∈ nodes := by
  rw [← filterMap_preorder hGenuine hNodes, List.mem_filterMap]
  constructor
  · rintro ⟨node, hMem, hId⟩
    obtain ⟨data, rfl⟩ := id?_eq_some_iff.1 hId
    exact ⟨data, hMem⟩
  · rintro ⟨data, hMem⟩
    exact ⟨var id data, hMem, rfl⟩

end Autodiff.Expr
