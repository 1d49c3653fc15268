import Autodiff.Expr.Traversal
import Autodiff.Proofs.Outcome

/-!
# Places in a tree

A subtree may stand at several places of a tree. An `Occurrence` is one such place: the
steps that lead down to it from the root, each with the operand it leaves beside the path,
and the subtree that stands there. Path and subtree make up the whole tree again.

* `Expr.occurrences` lists the places of a tree, a node before its operands;
* `root_of_mem_occurrences` says that they are places of that tree and of no other;
* `preorder_eq_occurrences` says that the walk over a stack lists the same nodes in the
  same order.
-/

namespace Autodiff

variable {α : Type}

/-- One step down a tree: the operator of a node and the operand beside the path. -/
inductive Step (α : Type) where
  /-- Into the left operand; the right one stays beside the path. -/
  | left (op : Op) (beside : Expr α)
  /-- Into the right operand; the left one stays beside the path. -/
  | right (op : Op) (beside : Expr α)
  | operand (fn : Fn)

/-- The node that a step leaves, from the operand that it enters. -/
def Step.parent : Step α → Expr α → Expr α
  | left op beside, below => .binary op below beside
  | right op beside, below => .binary op beside below
  | operand fn, below => .unary fn below

theorem Step.genuine_of_parent (step : Step α) {below : Expr α}
    (hParent : (step.parent below).Genuine) : below.Genuine := by
  cases step with
  | left => exact hParent.1
  | right => exact hParent.2
  | operand => exact hParent

/-- A place in a tree. -/
structure Occurrence (α : Type) where
  /-- The steps from the root to the place, the first one first. -/
  path : List (Step α)
  /-- The subtree that stands there. -/
  node : Expr α

namespace Occurrence

/-- The tree in which the place is. -/
def root (occurrence : Occurrence α) : Expr α :=
  occurrence.path.foldr Step.parent occurrence.node

/-- The same place, seen from the parent of the root. -/
def under (step : Step α) (occurrence : Occurrence α) : Occurrence α :=
  ⟨step :: occurrence.path, occurrence.node⟩

@[simp] theorem node_under (step : Step α) (occurrence : Occurrence α) :
    (occurrence.under step).node = occurrence.node := rfl

@[simp] theorem root_under (step : Step α) (occurrence : Occurrence α) :
    (occurrence.under step).root = step.parent occurrence.root := rfl

theorem genuine_node (occurrence : Occurrence α) (hRoot : occurrence.root.Genuine) :
    occurrence.node.Genuine := by
  obtain ⟨path, node⟩ := occurrence
  induction path with
  | nil => exact hRoot
  | cons step path ih => exact ih (step.genuine_of_parent hRoot)

end Occurrence

namespace Expr

/-- The places of a tree, a node before its operands and a left operand before a right
one. -/
def occurrences : Expr α → List (Occurrence α)
  | var id data => [⟨[], var id data⟩]
  | lit data => [⟨[], lit data⟩]
  | const n => [⟨[], const n⟩]
  | binary op left right =>
    ⟨[], binary op left right⟩ ::
      (left.occurrences.map (.under (.left op right)) ++
        right.occurrences.map (.under (.right op left)))
  | unary fn operand => ⟨[], unary fn operand⟩ :: operand.occurrences.map (.under (.operand fn))
  | foreign value => [⟨[], foreign value⟩]

theorem root_of_mem_occurrences {expr : Expr α} {occurrence : Occurrence α}
    (hMem : occurrence ∈ expr.occurrences) : occurrence.root = expr := by
  induction expr generalizing occurrence with
  | var | lit | const | foreign =>
    rw [occurrences, List.mem_singleton] at hMem
    subst hMem
    rfl
  | binary op left right ihLeft ihRight =>
    simp only [occurrences, List.mem_cons, List.mem_append, List.mem_map] at hMem
    rcases hMem with rfl | ⟨below, hBelow, rfl⟩ | ⟨below, hBelow, rfl⟩
    · rfl
    · rw [Occurrence.root_under, ihLeft hBelow]
      rfl
    · rw [Occurrence.root_under, ihRight hBelow]
      rfl
  | unary fn operand ih =>
    simp only [occurrences, List.mem_cons, List.mem_map] at hMem
    rcases hMem with rfl | ⟨below, hBelow, rfl⟩
    · rfl
    · rw [Occurrence.root_under, ih hBelow]
      rfl

/-- The subtrees of a genuine tree are genuine. -/
theorem Genuine.of_mem_occurrences {expr : Expr α} (hGenuine : expr.Genuine)
    {occurrence : Occurrence α} (hMem : occurrence ∈ expr.occurrences) :
    occurrence.node.Genuine := by
  apply occurrence.genuine_node
  rw [root_of_mem_occurrences hMem]
  exact hGenuine

/-! ## The walk over a stack -/

theorem map_node_under (step : Step α) (places : List (Occurrence α)) :
    (places.map (.under step)).map Occurrence.node = places.map Occurrence.node := by
  simp [Function.comp_def]

/-- The nodes of a tree are its root and the nodes of its operands, in order. -/
theorem map_node_occurrences {expr : Expr α} {children : List (Expr α)}
    (hOperands : expr.operands = .ok children) :
    expr.occurrences.map Occurrence.node =
      expr :: children.flatMap fun child => child.occurrences.map Occurrence.node := by
  cases expr <;> cases hOperands <;>
    simp [occurrences, map_node_under, -List.map_map]

theorem Genuine.of_mem_operands {expr : Expr α} (hGenuine : expr.Genuine)
    {children : List (Expr α)} (hOperands : expr.operands = .ok children) :
    ∀ child ∈ children, child.Genuine := by
  cases expr with
  | var | lit | const => cases hOperands; simp
  | binary op left right => cases hOperands; simpa [Genuine] using hGenuine
  | unary fn operand => cases hOperands; simpa [Genuine] using hGenuine
  | foreign => exact hGenuine.elim

/-- The walk lists the nodes of the waiting trees, one tree after the other. -/
theorem walk_eq (stack : List (Expr α)) (hGenuine : ∀ expr ∈ stack, expr.Genuine) :
    walk stack = .ok (stack.flatMap fun expr => expr.occurrences.map Occurrence.node) := by
  -- what waits after a node is left are its operands, and below them what waited before
  have hNext {node : Expr α} {waiting children : List (Expr α)}
      (hStack : ∀ expr ∈ node :: waiting, expr.Genuine)
      (hOperands : node.operands = .ok children) :
      ∀ expr ∈ children ++ waiting, expr.Genuine := by
    intro expr hMem
    rcases List.mem_append.1 hMem with hChild | hWaiting
    · exact (hStack node List.mem_cons_self).of_mem_operands hOperands expr hChild
    · exact hStack expr (List.mem_cons_of_mem node hWaiting)
  fun_induction walk stack with
  | case1 => rfl
  | case2 node waiting found hOperands =>
    have hForeign := (operands_eq_error_iff node found.value).1 hOperands
    subst hForeign
    exact (hGenuine _ List.mem_cons_self).elim
  | case3 node waiting children hOperands found hRest ih =>
    cases hRest.symm.trans (ih (hNext hGenuine hOperands))
  | case4 node waiting children hOperands later hRest ih =>
    cases hRest.symm.trans (ih (hNext hGenuine hOperands))
    simp [map_node_occurrences hOperands]

theorem preorder_eq_occurrences {expr : Expr α} (hGenuine : expr.Genuine) :
    expr.preorder = .ok (expr.occurrences.map Occurrence.node) := by
  rw [preorder, walk_eq [expr] (by simpa using hGenuine)]
  simp

end Expr

end Autodiff
