import Autodiff.Proofs.Graph.Drawing

/-!
# The tree in a graph

The statements of a graph tell a tree: the numbers and the labels of its nodes, and an edge from
each operand to the node that uses it. From the last number on, the edges lead down to the leaves
again.

* `Dot.Line` is what a statement tells of the tree;
* `Outline` is a tree of labels, `Expr.outline` that of an expression, and `Dot.outline?` that
  which is read from lines;
* `Dot.Depicts` says that statements draw a tree, and `depicts_groups` that those of a graph do;
* `Dot.Depicts.outline?_eq` says that the tree is read back from what draws it.
-/

namespace Autodiff

/-- A tree of labels. -/
inductive Outline where
  | node (label : String) (operands : List Outline)

/-- The labels of an expression, with its shape and the order of its operands. -/
def Expr.outline {α : Type} (text : α → String) : Expr α → Outline
  | .binary op left right =>
    .node (label text (.binary op left right)) [left.outline text, right.outline text]
  | .unary fn operand => .node (label text (.unary fn operand)) [operand.outline text]
  | .var id data => .node (label text (.var id data)) []
  | .lit data => .node (label text (.lit data)) []
  | .const n => .node (label text (.const n)) []
  | .foreign value => .node (label text (.foreign value)) []

namespace Graph

variable {α ε : Type}

namespace Dot

/-! ## Reading a tree -/

/-- What a statement tells of the tree. -/
inductive Line where
  | node (number : Nat) (label : String)
  | edge (source target : Nat)
  deriving DecidableEq

def Statement.line : Statement → Line
  | node number label _ _ => .node number label
  | edge source target => .edge source target

def Line.node? : Line → Option (Nat × String)
  | node number label => some (number, label)
  | edge _ _ => none

def Line.edge? : Line → Option (Nat × Nat)
  | node _ _ => none
  | edge source target => some (source, target)

/-- The numbers of the nodes with their labels. -/
def nodes (lines : List Line) : List (Nat × String) := lines.filterMap Line.node?

/-- The edges, each with its source and its target. -/
def edges (lines : List Line) : List (Nat × Nat) := lines.filterMap Line.edge?

/-- The sources of the edges into a node, in the order of the lines. -/
def sources (lines : List Line) (n : Nat) : List Nat :=
  (edges lines).filterMap fun edge => if edge.2 = n then some edge.1 else none

/-- The tree at a node. An edge from a node that is not before its target leads nowhere. -/
def outlineAt? (lines : List Line) (n : Nat) : Option Outline := do
  let label ← (nodes lines).lookup n
  let operands ← (sources lines n).mapM fun m => if m < n then outlineAt? lines m else none
  return .node label operands
termination_by n

/-- The tree at the node with the last number. -/
def outline? (lines : List Line) : Option Outline := outlineAt? lines ((nodes lines).length - 1)

/-! ## Drawing a tree -/

/-- The statements draw a tree. -/
structure Depicts (text : α → String) (root : Expr α) (statements : List Statement) : Prop where
  /-- There is a line for each node, with the numbers in the order of the recursive walk. -/
  nodes_eq : nodes (statements.map Statement.line) =
    root.postfixNodes.zipIdx.map fun (node, number) => (number, node.label text)
  /-- Every node but the root is the source of one edge, and the root of none. -/
  sources_perm : ((edges (statements.map Statement.line)).map Prod.fst).Perm
    (List.range (root.size - 1))
  /-- An edge leads to a larger number. -/
  edge_lt : ∀ edge ∈ edges (statements.map Statement.line), edge.1 < edge.2 ∧ edge.2 < root.size
  /-- The line of a node is followed by the edges into it: one from each operand, in their
  order. -/
  group_at : ∀ (i : Nat) (place : Occurrence α), root.postfixPlaces[i]? = some place →
    ∃ (numbers : List Nat) (description : String) (shape : Shape),
      .node i (place.node.label text) description shape :: numbers.map (.edge · i) <:+:
        statements ∧
      sources (statements.map Statement.line) i = numbers ∧ numbers.Pairwise (· < ·) ∧
      List.Forall₂ (fun n below => root.postfixPlaces[n]? = some below) numbers place.operands ∧
      (∀ children, place.node.operands = .ok children → numbers.length = children.length) ∧
      (shape = .box ↔ numbers = [])

/-! ## The lines of a tree -/

/-- What the statements of a node tell of the tree. -/
def lineGroup (text : α → String) (numbered : Entry α × Nat) : List Line :=
  .node numbered.2 (numbered.1.node.label text) ::
    numbered.1.operands.map fun operand => .edge operand numbered.2

theorem map_line_groupOf (text : α → String) (numbered : Entry α × Nat) (description : String) :
    (groupOf text numbered description).map Statement.line = lineGroup text numbered := by
  simp [groupOf, lineGroup, Statement.line]

theorem nodes_flatMap (text : α → String) (entries : List (Entry α × Nat)) :
    nodes (entries.flatMap (lineGroup text)) =
      entries.map fun numbered => (numbered.2, numbered.1.node.label text) := by
  have hGroup (numbered : Entry α × Nat) : (lineGroup text numbered).filterMap Line.node? =
      [(numbered.2, numbered.1.node.label text)] := by
    simp [lineGroup, Line.node?]
  rw [nodes, List.filterMap_flatMap]
  simp only [hGroup]
  exact List.map_eq_flatMap.symm

theorem edges_flatMap (text : α → String) (entries : List (Entry α × Nat)) :
    edges (entries.flatMap (lineGroup text)) = entries.flatMap fun numbered =>
      numbered.1.operands.map fun operand => (operand, numbered.2) := by
  have hGroup (numbered : Entry α × Nat) : (lineGroup text numbered).filterMap Line.edge? =
      numbered.1.operands.map fun operand => (operand, numbered.2) := by
    rw [lineGroup, List.filterMap_cons_none rfl, List.filterMap_map]
    exact congrFun List.filterMap_eq_map _
  rw [edges, List.filterMap_flatMap]
  simp only [hGroup]

theorem sources_flatMap (text : α → String) {entries : List (Entry α)} {i : Nat} {entry : Entry α}
    (hEntry : entries[i]? = some entry) :
    sources (entries.zipIdx.flatMap (lineGroup text)) i = entry.operands := by
  have hGroup (numbered : Entry α × Nat) :
      ((numbered.1.operands.map fun operand => (operand, numbered.2)).filterMap fun edge =>
        if edge.2 = i then some edge.1 else none) =
      if numbered.2 = 0 + i then numbered.1.operands else [] := by
    by_cases hNumber : numbered.2 = i <;> simp [hNumber]
  rw [sources, edges_flatMap, List.filterMap_flatMap]
  simp only [hGroup]
  exact flatMap_zipIdx_ite Entry.operands hEntry 0

/-- The statements of a graph draw the tree. -/
theorem depicts_groups {picture : Picture α ε} {root : Expr α}
    {groups : List (List Statement)}
    (hGroups : List.Forall₂ (picture.Made lineBreak (groupOf picture.text)) (numbered root).zipIdx
      groups) :
    Depicts picture.text root groups.flatten := by
  have hLines : groups.flatten.map Statement.line =
      (numbered root).zipIdx.flatMap (lineGroup picture.text) := by
    refine map_flatten_of_forall₂ hGroups ?_
    rintro numbered group ⟨description, -, rfl⟩
    exact map_line_groupOf picture.text numbered description
  have hEdges : edges (groups.flatten.map Statement.line) =
      (numbered root).zipIdx.flatMap fun numbered =>
        numbered.1.operands.map fun operand => (operand, numbered.2) := by
    rw [hLines, edges_flatMap]
  refine ⟨?nodes, ?sources, ?edges, fun i place hPlace => ?group⟩
  case nodes =>
    rw [hLines, nodes_flatMap, ← map_zipIdx_numbered, List.map_map]
    rfl
  case sources =>
    have hOperands : (edges (groups.flatten.map Statement.line)).map Prod.fst =
        (numbered root).flatMap Entry.operands := by
      have hFirst : (numbered root).zipIdx.map Prod.fst = numbered root := List.zipIdx_map_fst 0 _
      rw [hEdges, List.map_flatMap, ← hFirst, List.flatMap_map, hFirst]
      simp only [List.map_map, Function.comp_def, List.map_id_fun', id]
    rw [hOperands, List.range_eq_range']
    exact perm_operands_numberedFrom 0 root
  case edges =>
    intro edge hEdge
    rw [hEdges, List.mem_flatMap] at hEdge
    obtain ⟨⟨entry, number⟩, hNumbered, hEdge⟩ := hEdge
    obtain ⟨operand, hOperand, rfl⟩ := List.mem_map.1 hEdge
    have hEntry : (numbered root)[number]? = some entry := List.mem_zipIdx_iff_getElem?.1 hNumbered
    have hNumber : number < root.size := by
      rw [← length_numberedFrom 0 root]
      exact (List.getElem?_eq_some_iff.1 hEntry).1
    have hBound : number < root.postfixPlaces.length := root.length_postfixPlaces ▸ hNumber
    obtain ⟨found, hFound, -, -, -, hBefore⟩ := exists_entry (List.getElem?_eq_getElem hBound)
    cases hFound.symm.trans hEntry
    exact ⟨hBefore operand hOperand, hNumber⟩
  case group =>
    obtain ⟨entry, hEntry, hNode, hOperands, hIncreasing, -⟩ := exists_entry hPlace
    obtain ⟨description, -, hGroup⟩ := Picture.getElem?_of_made hGroups hEntry
    have hInfix := List.infix_of_mem_flatten (List.mem_of_getElem? hGroup)
    rw [groupOf, hNode] at hInfix
    refine ⟨entry.operands, description, _, hInfix, ?_, hIncreasing, hOperands, ?_, ?_⟩
    · rw [hLines, sources_flatMap _ hEntry]
    · intro children hChildren
      rw [hOperands.length_eq, ← Occurrence.map_node_operands hChildren, List.length_map]
    · cases entry.operands <;> simp

/-! ## Reading a tree that is drawn -/

theorem outline_node (text : α → String) (place : Occurrence α) :
    place.node.outline text = .node (place.node.label text)
      (place.operands.map fun below => below.node.outline text) := by
  obtain ⟨path, node⟩ := place
  cases node <;> rfl

namespace Depicts

variable {text : α → String} {root : Expr α} {statements : List Statement}

/-- Every subtree is read back at the number of its place. -/
theorem outlineAt?_eq (h : Depicts text root statements) {i : Nat} {place : Occurrence α}
    (hPlace : root.postfixPlaces[i]? = some place) :
    outlineAt? (statements.map Statement.line) i = some (place.node.outline text) := by
  -- the edges into a node lead to smaller numbers, where the operands are read back
  induction i using Nat.strongRecOn generalizing place with
  | ind i ih =>
    obtain ⟨numbers, description, shape, -, hSources, -, hOperands, -, -⟩ :=
      h.group_at i place hPlace
    have hLabel : (nodes (statements.map Statement.line)).lookup i =
        some (place.node.label text) := by
      have hNode : root.postfixNodes[i]? = some place.node := by
        rw [← root.map_node_postfixPlaces, List.getElem?_map, hPlace, Option.map_some]
      have hLookup := lookup_zipIdx (Expr.label text) root.postfixNodes 0 i
      rw [Nat.zero_add, hNode] at hLookup
      rw [h.nodes_eq]
      exact hLookup
    have hBefore : ∀ n ∈ numbers, n < i := by
      intro n hMem
      rw [← hSources, sources, List.mem_filterMap] at hMem
      obtain ⟨⟨source, target⟩, hEdge, hTarget⟩ := hMem
      obtain ⟨rfl, hSource⟩ := Option.ite_none_right_eq_some.1 hTarget
      cases hSource
      exact (h.edge_lt _ hEdge).1
    have hBelow : numbers.mapM (fun m =>
        if m < i then outlineAt? (statements.map Statement.line) m else none) =
        some (place.operands.map fun below => below.node.outline text) := by
      refine mapM_eq_some_iff.2 (List.forall₂_map_right_iff.2 ?_)
      have hBoth : List.Forall₂ (fun n below => n < i ∧ root.postfixPlaces[n]? = some below)
          numbers place.operands := (List.forall₂_and_left _ _).2 ⟨hBefore, hOperands⟩
      refine hBoth.imp ?_
      rintro n below ⟨hLt, hFound⟩
      rw [if_pos hLt, ih n hLt hFound]
    rw [outlineAt?, hLabel, hSources, outline_node]
    simp [hBelow]

/-- The tree is read back from the statements that draw it. -/
theorem outline?_eq (h : Depicts text root statements) :
    outline? (statements.map Statement.line) = some (root.outline text) := by
  have hRoot : root.postfixPlaces[root.size - 1]? = some ⟨[], root⟩ := by
    rw [← root.length_postfixPlaces, ← List.getLast?_eq_getElem?, root.getLast?_postfixPlaces]
  have hCount : (nodes (statements.map Statement.line)).length = root.size := by
    rw [h.nodes_eq, List.length_map, List.length_zipIdx, ← root.map_node_postfixPlaces,
      List.length_map, root.length_postfixPlaces]
  rw [outline?, hCount]
  exact h.outlineAt?_eq hRoot

end Depicts

end Dot

end Graph

end Autodiff
