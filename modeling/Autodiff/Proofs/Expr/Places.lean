import Autodiff.Proofs.Expr.Occurrence
import Autodiff.Proofs.Expr.Order

/-!
# Places, operands first

The places of a tree in the order in which the recursive walk lists their nodes. A place is never
listed before a place below it, so the operands of a node stand before the node, and the root
stands at the end.

* `Occurrence.operands` are the places of the operands of a node, from left to right;
* `mem_occurrences_iff` says that `Expr.occurrences` has every place of a tree;
* `Expr.postfixPlaces` lists the places, operands first: `map_node_postfixPlaces` says which nodes
  stand there, `perm_postfixPlaces` and `nodup_postfixPlaces` that each place is listed once;
* `index_lt_of_mem_operands` says that an operand stands before its node.
-/

namespace Autodiff

variable {α : Type}

namespace Occurrence

/-- The places of the operands of the node at a place, left to right. -/
def operands (place : Occurrence α) : List (Occurrence α) :=
  match place.node with
  | .binary op left right =>
    [⟨place.path ++ [.left op right], left⟩, ⟨place.path ++ [.right op left], right⟩]
  | .unary fn operand => [⟨place.path ++ [.operand fn], operand⟩]
  | _ => []

/-- Whether the first place is the second one or above it. -/
def Covers (place other : Occurrence α) : Prop := place.path <+: other.path

theorem operands_under (step : Step α) (place : Occurrence α) :
    (place.under step).operands = place.operands.map (.under step) := by
  obtain ⟨path, node⟩ := place
  cases node <;> rfl

/-- The operands of a node stand at the places of its operands. -/
theorem map_node_operands {place : Occurrence α} {children : List (Expr α)}
    (hOperands : place.node.operands = .ok children) :
    place.operands.map Occurrence.node = children := by
  obtain ⟨path, node⟩ := place
  cases node <;> cases hOperands <;> rfl

/-- An operand is one step below its node. -/
theorem path_of_mem_operands {place below : Occurrence α} (hMem : below ∈ place.operands) :
    ∃ step, below.path = place.path ++ [step] ∧ step.parent below.node = place.node := by
  obtain ⟨path, node⟩ := place
  cases node with
  | var | lit | const | foreign => cases hMem
  | binary op left right =>
    rcases List.mem_cons.1 hMem with rfl | hMem
    · exact ⟨.left op right, rfl, rfl⟩
    · cases List.mem_singleton.1 hMem
      exact ⟨.right op left, rfl, rfl⟩
  | unary fn operand =>
    cases List.mem_singleton.1 hMem
    exact ⟨.operand fn, rfl, rfl⟩

/-- A place is among the places of the tree that its path and its subtree make up. -/
theorem mem_occurrences_root (place : Occurrence α) : place ∈ place.root.occurrences := by
  obtain ⟨path, node⟩ := place
  induction path with
  | nil => cases node <;> simp [root, Expr.occurrences]
  | cons step path ih =>
    -- the place below the first step is listed there, and from above it is seen under that step
    have hBelow := List.mem_map_of_mem (f := Occurrence.under step) ih
    cases step with
    | left op beside => exact List.mem_cons_of_mem _ (List.mem_append_left _ hBelow)
    | right op beside => exact List.mem_cons_of_mem _ (List.mem_append_right _ hBelow)
    | operand fn => exact List.mem_cons_of_mem _ hBelow

end Occurrence

namespace Expr

/-- The places of a tree are those whose path and subtree make it up. -/
theorem mem_occurrences_iff {expr : Expr α} {place : Occurrence α} :
    place ∈ expr.occurrences ↔ place.root = expr := by
  constructor
  · exact root_of_mem_occurrences
  · rintro rfl
    exact place.mem_occurrences_root

/-- The places of a tree, those of the operands first and from left to right. -/
def postfixPlaces : Expr α → List (Occurrence α)
  | var id data => [⟨[], var id data⟩]
  | lit data => [⟨[], lit data⟩]
  | const n => [⟨[], const n⟩]
  | binary op left right =>
    left.postfixPlaces.map (.under (.left op right)) ++
      right.postfixPlaces.map (.under (.right op left)) ++ [⟨[], binary op left right⟩]
  | unary fn operand => operand.postfixPlaces.map (.under (.operand fn)) ++ [⟨[], unary fn operand⟩]
  | foreign value => [⟨[], foreign value⟩]

theorem map_node_postfixPlaces (expr : Expr α) :
    expr.postfixPlaces.map Occurrence.node = expr.postfixNodes := by
  induction expr with
  | var | lit | const | foreign => rfl
  | binary op left right ihLeft ihRight =>
    rw [postfixPlaces, List.map_append, List.map_append, map_node_under, map_node_under, ihLeft,
      ihRight]
    rfl
  | unary fn operand ih =>
    rw [postfixPlaces, List.map_append, map_node_under, ih]
    rfl

theorem length_postfixPlaces (expr : Expr α) : expr.postfixPlaces.length = expr.size := by
  induction expr with
  | var | lit | const | foreign => rfl
  | binary op left right ihLeft ihRight =>
    simp [postfixPlaces, size, ihLeft, ihRight, Nat.add_assoc]
  | unary fn operand ih => simp [postfixPlaces, size, ih]

theorem getLast?_postfixPlaces (expr : Expr α) : expr.postfixPlaces.getLast? = some ⟨[], expr⟩ := by
  cases expr <;> simp [postfixPlaces]

/-- Both orders list the same places. -/
theorem perm_postfixPlaces (expr : Expr α) : expr.postfixPlaces.Perm expr.occurrences := by
  induction expr with
  | var | lit | const | foreign => exact .refl _
  | binary op left right ihLeft ihRight =>
    exact List.perm_append_singleton _ _ |>.trans
      (.cons _ ((ihLeft.map _).append (ihRight.map _)))
  | unary fn operand ih =>
    exact List.perm_append_singleton _ _ |>.trans (.cons _ (ih.map _))

theorem mem_postfixPlaces_iff {expr : Expr α} {place : Occurrence α} :
    place ∈ expr.postfixPlaces ↔ place.root = expr := by
  rw [expr.perm_postfixPlaces.mem_iff, mem_occurrences_iff]

theorem pairwise_under {places : List (Occurrence α)} (step : Step α)
    (hPairwise : places.Pairwise fun earlier later => ¬ earlier.Covers later) :
    (places.map (Occurrence.under step)).Pairwise fun earlier later => ¬ earlier.Covers later := by
  refine List.pairwise_map.2 (hPairwise.imp ?_)
  intro earlier later hApart hPrefix
  exact hApart (List.cons_prefix_cons.1 hPrefix).2

/-- The root may stand behind everything that is below it. -/
theorem pairwise_append_root {places : List (Occurrence α)} (expr : Expr α)
    (hPairwise : places.Pairwise fun earlier later => ¬ earlier.Covers later)
    (hBelow : ∀ place ∈ places, place.path ≠ []) :
    (places ++ [(⟨[], expr⟩ : Occurrence α)]).Pairwise fun earlier later =>
      ¬ earlier.Covers later := by
  refine List.pairwise_append.2 ⟨hPairwise, List.pairwise_singleton _ _, ?_⟩
  intro earlier hEarlier later hLater hCovers
  cases List.mem_singleton.1 hLater
  exact hBelow earlier hEarlier (List.prefix_nil.1 hCovers)

theorem path_ne_nil_of_mem_under {places : List (Occurrence α)} {step : Step α}
    {place : Occurrence α} (hMem : place ∈ places.map (Occurrence.under step)) :
    place.path ≠ [] := by
  obtain ⟨below, -, rfl⟩ := List.mem_map.1 hMem
  exact List.cons_ne_nil _ _

/-- No place stands before a place below it. -/
theorem pairwise_postfixPlaces (expr : Expr α) :
    expr.postfixPlaces.Pairwise fun earlier later => ¬ earlier.Covers later := by
  induction expr with
  | var | lit | const | foreign => exact List.pairwise_singleton _ _
  | binary op left right ihLeft ihRight =>
    refine pairwise_append_root _ (List.pairwise_append.2
      ⟨pairwise_under _ ihLeft, pairwise_under _ ihRight, ?apart⟩) ?below
    case apart =>
      -- the paths to places in different operands part at their first step
      intro earlier hEarlier later hLater hCovers
      obtain ⟨inLeft, -, rfl⟩ := List.mem_map.1 hEarlier
      obtain ⟨inRight, -, rfl⟩ := List.mem_map.1 hLater
      cases (List.cons_prefix_cons.1 hCovers).1
    case below =>
      intro place hMem
      rcases List.mem_append.1 hMem with hLeft | hRight
      · exact path_ne_nil_of_mem_under hLeft
      · exact path_ne_nil_of_mem_under hRight
  | unary fn operand ih =>
    exact pairwise_append_root _ (pairwise_under _ ih) fun place => path_ne_nil_of_mem_under

/-- Each place is listed once. -/
theorem nodup_postfixPlaces (expr : Expr α) : expr.postfixPlaces.Nodup := by
  refine expr.pairwise_postfixPlaces.imp ?_
  rintro earlier later hApart rfl
  exact hApart (List.prefix_refl _)

/-- The operands of a node stand before the node. -/
theorem index_lt_of_mem_operands {expr : Expr α} {i j : Nat} {place below : Occurrence α}
    (hPlace : expr.postfixPlaces[i]? = some place) (hBelow : expr.postfixPlaces[j]? = some below)
    (hMem : below ∈ place.operands) : j < i := by
  obtain ⟨step, hPath, -⟩ := Occurrence.path_of_mem_operands hMem
  obtain ⟨hi, hPlace⟩ := List.getElem?_eq_some_iff.1 hPlace
  obtain ⟨hj, hBelow⟩ := List.getElem?_eq_some_iff.1 hBelow
  rcases Nat.lt_trichotomy i j with hLt | rfl | hGt
  · have hApart := List.pairwise_iff_getElem.1 expr.pairwise_postfixPlaces i j hi hj hLt
    rw [hPlace, hBelow] at hApart
    exact absurd ⟨[step], hPath.symm⟩ hApart
  · rw [hPlace] at hBelow
    rw [hBelow] at hPath
    simp at hPath
  · exact hGt

end Expr

end Autodiff
