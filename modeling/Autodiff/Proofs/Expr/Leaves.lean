import Autodiff.Proofs.Expr.Variables

/-!
# The leaves of a tree

The data of a tree stand in its leaves: in variables and literals, in integer constants, and in
foreign values, which count as leaves here.

* `leaves` lists them from left to right, and `mem_leafIds_iff_leaves` finds the ids of the
  variables there;
* `genuine_iff_leaves` says that a tree is genuine exactly if its leaves are;
* `firstForeign?_eq_some_iff` says that of the leaves before the leftmost foreign value none is
  foreign.
-/

namespace Autodiff.Expr

variable {α : Type}

/-- The leaves of a tree, left to right. -/
def leaves : Expr α → List (Expr α)
  | var id data => [var id data]
  | lit data => [lit data]
  | const n => [const n]
  | binary _ left right => left.leaves ++ right.leaves
  | unary _ operand => operand.leaves
  | foreign value => [foreign value]

theorem filterMap_leaves (expr : Expr α) : expr.leaves.filterMap id? = expr.leafIds := by
  induction expr with
  | var | lit | const | foreign => rfl
  | binary op left right ihLeft ihRight =>
    rw [leaves, List.filterMap_append, ihLeft, ihRight, leafIds]
  | unary fn operand ih => rw [leaves, ih, leafIds]

theorem mem_leafIds_iff_leaves {expr : Expr α} {id : String} :
    id ∈ expr.leafIds ↔ ∃ data, var id data ∈ expr.leaves := by
  rw [← filterMap_leaves, List.mem_filterMap]
  constructor
  · rintro ⟨leaf, hMem, hId⟩
    obtain ⟨data, rfl⟩ := id?_eq_some_iff.1 hId
    exact ⟨data, hMem⟩
  · rintro ⟨data, hMem⟩
    exact ⟨var id data, hMem, rfl⟩

/-! ## Foreign values -/

theorem genuine_iff_leaves {expr : Expr α} :
    expr.Genuine ↔ ∀ leaf ∈ expr.leaves, leaf.Genuine := by
  induction expr with
  | var | lit | const | foreign => simp [leaves]
  | binary op left right ihLeft ihRight =>
    rw [leaves, List.forall_mem_append, ← ihLeft, ← ihRight, Genuine]
  | unary fn operand ih => rw [leaves, ← ih, Genuine]

theorem firstForeign?_eq_findSome? (expr : Expr α) :
    expr.firstForeign? = expr.leaves.findSome? firstForeign? := by
  induction expr with
  | var | lit | const | foreign => rfl
  | binary op left right ihLeft ihRight =>
    rw [leaves, List.findSome?_append, ← ihLeft, ← ihRight, firstForeign?]
  | unary fn operand ih => rw [leaves, ← ih, firstForeign?]

/-- A leaf in which a foreign value is found is that value. -/
theorem eq_foreign_of_mem_leaves {expr leaf : Expr α} (hMem : leaf ∈ expr.leaves) {value : α}
    (hFirst : leaf.firstForeign? = some value) : leaf = foreign value := by
  induction expr with
  | var | lit | const =>
    cases List.mem_singleton.1 hMem
    cases hFirst
  | foreign =>
    cases List.mem_singleton.1 hMem
    cases hFirst
    rfl
  | binary op left right ihLeft ihRight =>
    rcases List.mem_append.1 hMem with hLeft | hRight
    · exact ihLeft hLeft
    · exact ihRight hRight
  | unary fn operand ih => exact ih hMem

theorem firstForeign?_eq_some_iff {expr : Expr α} {value : α} :
    expr.firstForeign? = some value ↔
      ∃ front back, expr.leaves = front ++ foreign value :: back ∧
        ∀ leaf ∈ front, leaf.Genuine := by
  rw [firstForeign?_eq_findSome?, List.findSome?_eq_some_iff]
  constructor
  · rintro ⟨front, leaf, back, hLeaves, hFirst, hFront⟩
    have hMem : leaf ∈ expr.leaves := by simp [hLeaves]
    cases eq_foreign_of_mem_leaves hMem hFirst
    exact ⟨front, back, hLeaves, fun earlier hEarlier =>
      (firstForeign?_eq_none_iff earlier).1 (hFront earlier hEarlier)⟩
  · rintro ⟨front, back, hLeaves, hFront⟩
    exact ⟨front, _, back, hLeaves, rfl, fun earlier hEarlier =>
      (firstForeign?_eq_none_iff earlier).2 (hFront earlier hEarlier)⟩

end Autodiff.Expr
