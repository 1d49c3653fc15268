import Autodiff.Proofs.Expr.Places
import Autodiff.Proofs.Graph.Numbering

/-!
# The walks over a tree

A tree is walked over with a stack, which yields a node before its operands, and by recursion,
which lists a node after them. The loop over the stack takes its last tree and puts the operands in
its place, the last one first, so that the left one is taken next.

* `Expr.prefixNodes` lists a node before its operands, and `Expr.mirroredNodes` does so with the
  right operands first, which `reverse_postfixNodes` finds in the recursive walk from behind;
* `Walk.turn` is one turn of the loop, and `Walk.pending` what it has still to list:
  `turn_of_pending` says that a turn lists the first pending node and leaves the others, and
  `turns_eq` what is listed after some turns;
* `walks_list_places` states what the walks list.
-/

namespace Autodiff

variable {α : Type}

/-! ## Recursive orders -/

namespace Expr

/-- The nodes of a tree, a node before its operands and the operands from left to right. -/
def prefixNodes : Expr α → List (Expr α)
  | var id data => [var id data]
  | lit data => [lit data]
  | const n => [const n]
  | binary op left right => binary op left right :: (left.prefixNodes ++ right.prefixNodes)
  | unary fn operand => unary fn operand :: operand.prefixNodes
  | foreign value => [foreign value]

/-- The nodes of a tree, a node before its operands and the operands from right to left. -/
def mirroredNodes : Expr α → List (Expr α)
  | var id data => [var id data]
  | lit data => [lit data]
  | const n => [const n]
  | binary op left right => binary op left right :: (right.mirroredNodes ++ left.mirroredNodes)
  | unary fn operand => unary fn operand :: operand.mirroredNodes
  | foreign value => [foreign value]

theorem prefixNodes_of_operands {expr : Expr α} {children : List (Expr α)}
    (hOperands : expr.operands = .ok children) :
    expr.prefixNodes = expr :: children.flatMap prefixNodes := by
  cases expr <;> cases hOperands <;> simp [prefixNodes]

theorem map_node_occurrences_eq (expr : Expr α) :
    expr.occurrences.map Occurrence.node = expr.prefixNodes := by
  induction expr with
  | var | lit | const | foreign => rfl
  | binary op left right ihLeft ihRight =>
    rw [occurrences, List.map_cons, List.map_append, map_node_under, map_node_under, ihLeft,
      ihRight]
    rfl
  | unary fn operand ih =>
    rw [occurrences, List.map_cons, map_node_under, ih]
    rfl

theorem length_prefixNodes (expr : Expr α) : expr.prefixNodes.length = expr.size := by
  rw [← map_node_occurrences_eq, List.length_map, ← expr.perm_postfixPlaces.length_eq,
    length_postfixPlaces]

theorem reverse_postfixNodes (expr : Expr α) : expr.postfixNodes.reverse = expr.mirroredNodes := by
  induction expr with
  | var | lit | const | foreign => rfl
  | binary op left right ihLeft ihRight =>
    rw [postfixNodes, List.reverse_append, List.reverse_append, ihLeft, ihRight]
    rfl
  | unary fn operand ih =>
    rw [postfixNodes, List.reverse_append, ih]
    rfl

end Expr

/-! ## The loop over the stack -/

/-- The state of the loop. -/
structure Walk (α : Type) where
  /-- What was listed, the first node first. -/
  listed : List (Expr α)
  /-- The subtrees that wait; the last one is taken next. -/
  stack : List (Expr α)

namespace Walk

/-- One turn of the loop: take a node, list it, and let its operands wait. -/
def turn (state : Walk α) : Except (NotNode α) (Walk α) :=
  match state.stack.getLast? with
  | none => .ok state
  | some node => do
    let children ← node.operands
    return ⟨state.listed ++ [node], state.stack.dropLast ++ children.reverse⟩

/-- A number of turns. -/
def turns : Nat → Walk α → Except (NotNode α) (Walk α)
  | 0, state => .ok state
  | count + 1, state => do
    let next ← state.turn
    turns count next

/-- The nodes that have still to be listed. -/
def pending (state : Walk α) : List (Expr α) := state.stack.reverse.flatMap Expr.prefixNodes

theorem pending_eq_nil_iff (state : Walk α) : state.pending = [] ↔ state.stack = [] := by
  have hNodes (expr : Expr α) : expr.prefixNodes ≠ [] := by cases expr <;> simp [Expr.prefixNodes]
  constructor
  · intro hPending
    by_contra hStack
    obtain ⟨expr, hMem⟩ := List.exists_mem_of_ne_nil _ hStack
    exact hNodes expr (List.flatMap_eq_nil_iff.1 hPending expr (List.mem_reverse.2 hMem))
  · intro hStack
    rw [pending, hStack]
    rfl

/-- A turn lists the first pending node and leaves the others. -/
theorem turn_of_pending {state : Walk α} {node : Expr α} {rest : List (Expr α)}
    (hGenuine : ∀ expr ∈ state.stack, expr.Genuine) (hPending : state.pending = node :: rest) :
    ∃ next, state.turn = .ok next ∧ next.listed = state.listed ++ [node] ∧ next.pending = rest ∧
      ∀ expr ∈ next.stack, expr.Genuine := by
  obtain ⟨listed, stack⟩ := state
  rcases stack.eq_nil_or_concat' with rfl | ⟨below, top, rfl⟩
  · cases hPending
  have hTop : top.Genuine := hGenuine top (by simp)
  obtain ⟨children, hOperands⟩ : ∃ children, top.operands = .ok children := by
    cases hOutcome : top.operands with
    | ok children => exact ⟨children, rfl⟩
    | error found =>
      rw [(Expr.operands_eq_error_iff top found.value).1 hOutcome] at hTop
      exact hTop.elim
  -- the top of the stack is the node that is pending first, and its operands come next
  simp only [pending, List.reverse_append, List.reverse_singleton, List.flatMap_cons,
    List.cons_append, Expr.prefixNodes_of_operands hOperands, List.cons.injEq] at hPending
  obtain ⟨rfl, rfl⟩ := hPending
  refine ⟨⟨listed ++ [top], below ++ children.reverse⟩, ?_, rfl, ?_, ?_⟩
  · simp [turn, hOperands, pure, Except.pure]
  · simp [pending]
  · intro expr hMem
    rcases List.mem_append.1 hMem with hBelow | hChild
    · exact hGenuine expr (List.mem_append_left _ hBelow)
    · exact hTop.of_mem_operands hOperands expr (List.mem_reverse.1 hChild)

/-- After some turns the first pending nodes are listed and the others are pending. -/
theorem turns_eq {count : Nat} {state : Walk α} (hGenuine : ∀ expr ∈ state.stack, expr.Genuine)
    (hCount : count ≤ state.pending.length) :
    ∃ reached, turns count state = .ok reached ∧
      reached.listed = state.listed ++ state.pending.take count ∧
      reached.pending = state.pending.drop count := by
  induction count generalizing state with
  | zero => exact ⟨state, rfl, by simp, rfl⟩
  | succ count ih =>
    obtain ⟨node, rest, hPending⟩ :=
      List.exists_cons_of_length_pos (Nat.lt_of_lt_of_le (Nat.succ_pos count) hCount)
    obtain ⟨next, hTurn, hListed, hRest, hNext⟩ := turn_of_pending hGenuine hPending
    rw [hPending, List.length_cons] at hCount
    obtain ⟨reached, hTurns, hReached, hLeft⟩ :=
      ih hNext (by rw [hRest]; exact Nat.le_of_succ_le_succ hCount)
    refine ⟨reached, ?_, ?_, ?_⟩
    · rw [turns, hTurn, ok_bind, hTurns]
    · rw [hReached, hListed, hRest, hPending, List.take_succ_cons, List.append_assoc,
        List.singleton_append]
    · rw [hLeft, hRest, hPending, List.drop_succ_cons]

/-- From a tree alone on the stack, one turn for each node lists the nodes and empties the stack,
and after fewer turns something waits. -/
theorem turns_of_tree {expr : Expr α} (hGenuine : expr.Genuine) {count : Nat}
    (hCount : count ≤ expr.size) :
    ∃ stack, turns count ⟨[], [expr]⟩ = .ok ⟨expr.prefixNodes.take count, stack⟩ ∧
      (stack = [] ↔ count = expr.size) := by
  have hPending : pending ⟨[], [expr]⟩ = expr.prefixNodes := by simp [pending]
  have hStack : ∀ tree ∈ (⟨[], [expr]⟩ : Walk α).stack, tree.Genuine :=
    List.forall_mem_singleton.2 hGenuine
  have hPendingCount : count ≤ (pending ⟨[], [expr]⟩).length := by
    rw [hPending, expr.length_prefixNodes]
    exact hCount
  obtain ⟨⟨listed, stack⟩, hTurns, hListed, hLeft⟩ := turns_eq hStack hPendingCount
  rw [hPending] at hListed hLeft
  rw [List.nil_append] at hListed
  subst hListed
  refine ⟨stack, hTurns, ?_⟩
  rw [← pending_eq_nil_iff ⟨expr.prefixNodes.take count, stack⟩, hLeft, List.drop_eq_nil_iff,
    expr.length_prefixNodes]
  omega

end Walk

/-! ## What the walks list -/

/-- The walks over a genuine tree. The walk over the stack yields the nodes parent first: after as
many turns of its loop as there are nodes nothing waits, and not before. The recursive walk lists
them operands first, with the root at the end. Both list every place of the tree once. In the
second order an operand stands before the node that uses it, from behind it is the order that
takes the right operands first, and the nodes are numbered in it. -/
theorem walks_list_places {expr : Expr α} (hGenuine : expr.Genuine) :
    expr.preorder = .ok expr.prefixNodes ∧
    (∀ count ≤ expr.size, ∃ stack,
      Walk.turns count ⟨[], [expr]⟩ = .ok ⟨expr.prefixNodes.take count, stack⟩ ∧
        (stack = [] ↔ count = expr.size)) ∧
    expr.prefixNodes.length = expr.size ∧
    expr.prefixNodes = expr.occurrences.map Occurrence.node ∧ expr.occurrences.Nodup ∧
    (∀ place, place ∈ expr.occurrences ↔ place.root = expr) ∧
    expr.postorder = .ok expr.postfixNodes ∧
    expr.postfixNodes = expr.postfixPlaces.map Occurrence.node ∧ expr.postfixPlaces.Nodup ∧
    (∀ place, place ∈ expr.postfixPlaces ↔ place.root = expr) ∧
    (∀ (i j : Nat) (place below : Occurrence α), expr.postfixPlaces[i]? = some place →
      expr.postfixPlaces[j]? = some below → below ∈ place.operands → j < i) ∧
    expr.postfixPlaces.getLast? = some ⟨[], expr⟩ ∧
    expr.postfixNodes.reverse = expr.mirroredNodes ∧
    ∃ entries, Graph.number expr = .ok entries ∧
      entries.map Graph.Entry.node = expr.postfixNodes := by
  refine ⟨?preorder, fun count => Walk.turns_of_tree hGenuine, expr.length_prefixNodes,
    expr.map_node_occurrences_eq.symm, expr.perm_postfixPlaces.nodup expr.nodup_postfixPlaces,
    fun place => Expr.mem_occurrences_iff, Expr.postorder_eq hGenuine,
    expr.map_node_postfixPlaces.symm, expr.nodup_postfixPlaces,
    fun place => Expr.mem_postfixPlaces_iff, fun i j place below => Expr.index_lt_of_mem_operands,
    expr.getLast?_postfixPlaces, expr.reverse_postfixNodes, _, Graph.number_eq_numbered hGenuine,
    Graph.map_node_numberedFrom 0 expr⟩
  case preorder => rw [Expr.preorder_eq_occurrences hGenuine, Expr.map_node_occurrences_eq]

/-- The walks over `log x - log x`, where the same subtree stands at two places. -/
theorem walks_list_places_repeated :
    ∃ (expr log leaf : Expr Int) (entries : List (Graph.Entry Int)),
      leaf = .var "x" 2 ∧ log = .log leaf ∧ expr = .sub log log ∧ expr.Genuine ∧
      expr.preorder = .ok [expr, log, leaf, log, leaf] ∧
      Walk.turns 5 ⟨[], [expr]⟩ = .ok ⟨[expr, log, leaf, log, leaf], []⟩ ∧
      expr.postorder = .ok [leaf, log, leaf, log, expr] ∧
      Graph.number expr = .ok entries ∧
      entries.map Graph.Entry.node = [leaf, log, leaf, log, expr] := by
  let leaf : Expr Int := .var "x" 2
  have hGenuine : (Expr.sub (.log leaf) (.log leaf)).Genuine := ⟨trivial, trivial⟩
  obtain ⟨hPreorder, hTurns, -, -, -, -, hPostorder, -, -, -, -, -, -, entries, hNumber,
    hEntries⟩ := walks_list_places hGenuine
  obtain ⟨stack, hStack, hEmpty⟩ := hTurns 5 (by decide)
  rw [hEmpty.2 rfl] at hStack
  exact ⟨_, _, leaf, entries, rfl, rfl, rfl, hGenuine, hPreorder, hStack, hPostorder, hNumber,
    hEntries⟩

end Autodiff
