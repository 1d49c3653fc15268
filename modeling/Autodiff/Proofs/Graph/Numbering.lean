import Autodiff.Graph.Numbering
import Autodiff.Proofs.Expr.Places
import Autodiff.Proofs.Sequence

/-!
# Numbers of the nodes

Only a foreign value stops the numbering of a tree. On a genuine tree it is the function
`Graph.numbered`. A subtree has the numbers of a range, and the root of the subtree has the last
one of them.

* `visit` appends the entries of a tree to one list, and `map_fst_visit` says that the numbering is
  a visit with the empty list;
* `number_eq_numbered` says that it is the function on genuine trees, and `map_node_number` that
  the nodes are numbered in the order of the recursive walk, foreign values included;
* `refers_numberedFrom` says that the numbers of the operands are those of the places right below a
  node, and not only of subtrees that look the same;
* `pairwise_operands_numberedFrom` says that they increase from left to right, and `exists_entry`
  that they are below the number of the node as well;
* `perm_operands_numberedFrom` says that every number but that of the root is an operand once.
-/

namespace Autodiff.Graph

open Autodiff.Expr (binary unary)

variable {α : Type}

/-! ## Numbering with one list -/

/-- The list of the entries so far with one more, and the number of that one. -/
def enter (out : List (Entry α)) (entry : Entry α) : List (Entry α) × Nat :=
  let longer := out ++ [entry]
  (longer, longer.length - 1)

/-- Visit a tree, given the entries so far: the operands first, from left to right, and then the
node, which is entered with the numbers that they got. -/
def visit (out : List (Entry α)) : Expr α → Except (NotNode α) (List (Entry α) × Nat)
  | .var id data => .ok (enter out ⟨.var id data, []⟩)
  | .lit data => .ok (enter out ⟨.lit data, []⟩)
  | .const n => .ok (enter out ⟨.const n, []⟩)
  | .binary op left right => do
    let (before, leftNumber) ← visit out left
    let (between, rightNumber) ← visit before right
    return enter between ⟨.binary op left right, [leftNumber, rightNumber]⟩
  | .unary fn operand => do
    let (before, number) ← visit out operand
    return enter before ⟨.unary fn operand, [number]⟩
  | .foreign value => .error ⟨value⟩

/-- A visit appends the entries of the tree, numbered from the length of the list on, and its number
is that of the last of them. -/
theorem visit_eq (out : List (Entry α)) (root : Expr α) :
    visit out root = (numberFrom out.length root).map fun entries =>
      (out ++ entries, (out ++ entries).length - 1) := by
  induction root generalizing out with
  | var | lit | const | foreign => rfl
  | binary op left right ihLeft ihRight =>
    rw [visit, numberFrom, ihLeft]
    cases hLeft : numberFrom out.length left with
    | error found => rfl
    | ok before =>
      simp only [Except.map, ok_bind, ihRight, List.length_append]
      cases numberFrom (out.length + before.length) right with
      | error found => rfl
      | ok between =>
        -- the left operand has entries, so that nothing is lost in its number
        have hNumber : out.length + before.length + between.length - 1 =
            out.length + before.length - 1 + between.length := by
          have hSize := numberFrom_length hLeft
          have hPos := left.size_pos
          omega
        simp only [ok_bind, hNumber, enter]
        simp [pure, Except.pure]
  | unary fn operand ih =>
    rw [visit, numberFrom, ih]
    cases numberFrom out.length operand with
    | error found => rfl
    | ok before => simp [Except.map, enter, pure, Except.pure]

/-- The entries of a tree are what a visit with the empty list leaves behind. -/
theorem map_fst_visit (root : Expr α) : (visit [] root).map Prod.fst = number root := by
  rw [visit_eq, number]
  cases numberFrom ([] : List (Entry α)).length root <;> rfl

/-! ## Numbering as a total function -/

/-- The entries of a tree whose first node has the given number. -/
def numberedFrom (first : Nat) : Expr α → List (Entry α)
  | .var id data => [⟨.var id data, []⟩]
  | .lit data => [⟨.lit data, []⟩]
  | .const n => [⟨.const n, []⟩]
  | .binary op left right =>
    numberedFrom first left ++ numberedFrom (first + left.size) right ++
      [⟨.binary op left right, [first + left.size - 1, first + left.size + right.size - 1]⟩]
  | .unary fn operand =>
    numberedFrom first operand ++ [⟨.unary fn operand, [first + operand.size - 1]⟩]
  | .foreign value => [⟨.foreign value, []⟩]

/-- The entries of a tree, in the order of their numbers. -/
def numbered (root : Expr α) : List (Entry α) := numberedFrom 0 root

theorem length_numberedFrom (first : Nat) (root : Expr α) :
    (numberedFrom first root).length = root.size := by
  induction root generalizing first with
  | var | lit | const | foreign => rfl
  | binary op left right ihLeft ihRight =>
    simp [numberedFrom, Expr.size, ihLeft, ihRight, Nat.add_assoc]
  | unary fn operand ih => simp [numberedFrom, Expr.size, ih]

theorem numberFrom_eq_numberedFrom (first : Nat) {root : Expr α} (hGenuine : root.Genuine) :
    numberFrom first root = .ok (numberedFrom first root) := by
  induction root generalizing first with
  | var | lit | const => rfl
  | foreign => exact hGenuine.elim
  | binary op left right ihLeft ihRight =>
    have hNumber : first + left.size - 1 + right.size = first + left.size + right.size - 1 := by
      have := left.size_pos
      omega
    simp only [numberFrom, ihLeft first hGenuine.1, ihRight _ hGenuine.2, ok_bind,
      length_numberedFrom, hNumber]
    rfl
  | unary fn operand ih =>
    simp only [numberFrom, ih first hGenuine, ok_bind, length_numberedFrom]
    rfl

theorem number_eq_numbered {root : Expr α} (hGenuine : root.Genuine) :
    number root = .ok (numbered root) :=
  numberFrom_eq_numberedFrom 0 hGenuine

theorem map_node_numberedFrom (first : Nat) (root : Expr α) :
    (numberedFrom first root).map Entry.node = root.postfixNodes := by
  induction root generalizing first with
  | var | lit | const | foreign => rfl
  | binary op left right ihLeft ihRight =>
    rw [numberedFrom, List.map_append, List.map_append, ihLeft, ihRight]
    rfl
  | unary fn operand ih =>
    rw [numberedFrom, List.map_append, ih]
    rfl

/-- The nodes are numbered in the order of the recursive walk, and the numbering stops where the
walk does. -/
theorem map_node_number (root : Expr α) :
    (number root).map (List.map Entry.node) = root.postorder := by
  suffices hFrom : ∀ first, (numberFrom first root).map (List.map Entry.node) = root.postorder from
    hFrom 0
  intro first
  induction root generalizing first with
  | var | lit | const | foreign => rfl
  | binary op left right ihLeft ihRight =>
    rw [numberFrom, Expr.postorder, ← ihLeft first]
    cases numberFrom first left with
    | error found => rfl
    | ok before =>
      simp only [Except.map, ok_bind]
      rw [← ihRight (first + before.length)]
      cases numberFrom (first + before.length) right with
      | error found => rfl
      | ok between => simp [Except.map, pure, Except.pure]
  | unary fn operand ih =>
    rw [numberFrom, Expr.postorder, ← ih first]
    cases numberFrom first operand with
    | error found => rfl
    | ok before => simp [Except.map, pure, Except.pure]

/-! ## The numbers of the operands -/

/-- What is found at the numbers of the operands of an entry belongs to the operands of a place. -/
def Refers {β : Type} (look : Nat → Option β) (f : Occurrence α → β) (entry : Entry α)
    (place : Occurrence α) : Prop :=
  List.Forall₂ (fun n below => look n = some (f below)) entry.operands place.operands

theorem refers_under {β : Type} {look : Nat → Option β} {f : Occurrence α → β} (step : Step α)
    {entries : List (Entry α)} {places : List (Occurrence α)}
    (hRefers : List.Forall₂ (Refers look fun place => f (place.under step)) entries places) :
    List.Forall₂ (Refers look f) entries (places.map (.under step)) := by
  refine List.forall₂_map_right_iff.2 (hRefers.imp ?_)
  intro entry place hEntry
  rw [Refers, Occurrence.operands_under]
  exact List.forall₂_map_right_iff.2 hEntry

/-- Where the places of a tree are found from some number on, the places of the operands of each
node are found at the numbers of its operands. -/
theorem refers_numberedFrom {β : Type} (look : Nat → Option β) (root : Expr α) {first : Nat}
    (f : Occurrence α → β)
    (hLook : ∀ i place, root.postfixPlaces[i]? = some place → look (first + i) = some (f place)) :
    List.Forall₂ (Refers look f) (numberedFrom first root) root.postfixPlaces := by
  -- the root of a tree has the last of its numbers
  have hLast (tree : Expr α) : tree.postfixPlaces[tree.size - 1]? = some ⟨[], tree⟩ := by
    rw [← tree.length_postfixPlaces, ← List.getLast?_eq_getElem?, tree.getLast?_postfixPlaces]
  induction root generalizing first f with
  | var | lit | const | foreign => exact .cons .nil .nil
  | binary op left right ihLeft ihRight =>
    -- the left operand has the numbers from `first` on, and the right one has the next ones
    have hLookLeft (i : Nat) (place : Occurrence α) (hPlace : left.postfixPlaces[i]? = some place) :
        look (first + i) = some (f (place.under (.left op right))) := by
      have hBound := (List.getElem?_eq_some_iff.1 hPlace).1
      apply hLook
      rw [Expr.postfixPlaces, List.append_assoc, List.getElem?_append_left (by simpa using hBound),
        List.getElem?_map, hPlace, Option.map_some]
    have hLookRight (i : Nat) (place : Occurrence α)
        (hPlace : right.postfixPlaces[i]? = some place) :
        look (first + left.size + i) = some (f (place.under (.right op left))) := by
      have hBound := (List.getElem?_eq_some_iff.1 hPlace).1
      rw [Nat.add_assoc]
      apply hLook
      rw [Expr.postfixPlaces, List.getElem?_append_left, List.getElem?_append_right,
        List.length_map, left.length_postfixPlaces, Nat.add_sub_cancel_left, List.getElem?_map,
        hPlace, Option.map_some]
      · simp [left.length_postfixPlaces]
      · simpa [left.length_postfixPlaces] using hBound
    have hRoot : Refers look f
        ⟨binary op left right, [first + left.size - 1, first + left.size + right.size - 1]⟩
        ⟨[], binary op left right⟩ := by
      have hLeftRoot := hLookLeft _ _ (hLast left)
      have hRightRoot := hLookRight _ _ (hLast right)
      rw [← Nat.add_sub_assoc left.size_pos] at hLeftRoot
      rw [← Nat.add_sub_assoc right.size_pos] at hRightRoot
      exact .cons hLeftRoot (.cons hRightRoot .nil)
    have hBelow := List.rel_append (refers_under _ (ihLeft _ hLookLeft))
      (refers_under _ (ihRight _ hLookRight))
    exact List.rel_append hBelow (.cons hRoot .nil)
  | unary fn operand ih =>
    have hLookOperand (i : Nat) (place : Occurrence α)
        (hPlace : operand.postfixPlaces[i]? = some place) :
        look (first + i) = some (f (place.under (.operand fn))) := by
      have hBound := (List.getElem?_eq_some_iff.1 hPlace).1
      apply hLook
      rw [Expr.postfixPlaces, List.getElem?_append_left (by simpa using hBound),
        List.getElem?_map, hPlace, Option.map_some]
    have hRoot : Refers look f ⟨unary fn operand, [first + operand.size - 1]⟩
        ⟨[], unary fn operand⟩ := by
      have hOperandRoot := hLookOperand _ _ (hLast operand)
      rw [← Nat.add_sub_assoc operand.size_pos] at hOperandRoot
      exact .cons hOperandRoot .nil
    exact List.rel_append (refers_under _ (ih _ hLookOperand)) (.cons hRoot .nil)

theorem pairwise_operands_numberedFrom {first : Nat} {root : Expr α} {entry : Entry α}
    (hMem : entry ∈ numberedFrom first root) : entry.operands.Pairwise (· < ·) := by
  induction root generalizing first with
  | var | lit | const | foreign =>
    cases List.mem_singleton.1 hMem
    exact .nil
  | binary op left right ihLeft ihRight =>
    rw [numberedFrom, List.mem_append, List.mem_append, List.mem_singleton] at hMem
    rcases hMem with (hLeft | hRight) | rfl
    · exact ihLeft hLeft
    · exact ihRight hRight
    · have hLeftSize := left.size_pos
      have hRightSize := right.size_pos
      refine List.pairwise_pair.2 ?_
      omega
  | unary fn operand ih =>
    rw [numberedFrom, List.mem_append, List.mem_singleton] at hMem
    rcases hMem with hOperand | rfl
    · exact ih hOperand
    · exact List.pairwise_singleton _ _

/-- The entry of a place: its operands are those right below it, with increasing numbers below its
own. -/
theorem exists_entry {root : Expr α} {i : Nat} {place : Occurrence α}
    (hPlace : root.postfixPlaces[i]? = some place) :
    ∃ entry, (numbered root)[i]? = some entry ∧ entry.node = place.node ∧
      List.Forall₂ (fun n below => root.postfixPlaces[n]? = some below) entry.operands
        place.operands ∧
      entry.operands.Pairwise (· < ·) ∧ ∀ n ∈ entry.operands, n < i := by
  obtain ⟨hi, hPlace⟩ := List.getElem?_eq_some_iff.1 hPlace
  have hEntries : i < (numbered root).length := by
    rw [numbered, length_numberedFrom, ← root.length_postfixPlaces]
    exact hi
  have hRefers : Refers (fun n => root.postfixPlaces[n]?) id (numbered root)[i] place := by
    have hAll : List.Forall₂ (Refers (fun n => root.postfixPlaces[n]?) id) (numbered root)
        root.postfixPlaces :=
      refers_numberedFrom _ root id fun i place hFound => by rw [Nat.zero_add, hFound, id]
    rw [← hPlace]
    exact hAll.get hEntries hi
  have hNode : (numbered root)[i].node = place.node := by
    have hNodes : (numbered root).map Entry.node = root.postfixPlaces.map Occurrence.node := by
      rw [numbered, map_node_numberedFrom, root.map_node_postfixPlaces]
    have hAt := congrArg (fun nodes => nodes[i]?) hNodes
    simpa [hEntries, hi, hPlace] using hAt
  refine ⟨(numbered root)[i], List.getElem?_eq_getElem hEntries, hNode, hRefers,
    pairwise_operands_numberedFrom (List.getElem_mem hEntries), ?_⟩
  -- what stands at the number of an operand is below the place
  intro n hMem
  obtain ⟨below, hBelow, hFound⟩ := exists_of_forall₂ hRefers hMem
  exact Expr.index_lt_of_mem_operands (List.getElem?_eq_some_iff.2 ⟨hi, hPlace⟩) hFound hBelow

/-- Every number but that of the root is the number of an operand once. -/
theorem perm_operands_numberedFrom (first : Nat) (root : Expr α) :
    ((numberedFrom first root).flatMap Entry.operands).Perm
      (List.range' first (root.size - 1)) := by
  -- the numbers of a subtree are those below its root and that of the root
  have hNumbers (start : Nat) (tree : Expr α) : List.range' start tree.size =
      List.range' start (tree.size - 1) ++ [start + tree.size - 1] := by
    have hSize := tree.size_pos
    rw [Nat.add_sub_assoc hSize, ← List.range'_1_concat, Nat.sub_add_cancel hSize]
  induction root generalizing first with
  | var | lit | const | foreign => exact .nil
  | binary op left right ihLeft ihRight =>
    rw [Expr.size, Nat.add_sub_cancel, ← List.range'_append_1, hNumbers first left,
      hNumbers _ right, numberedFrom, List.flatMap_append, List.flatMap_append]
    -- the number of the left operand stands behind those of the right part, and not before them
    refine (((ihLeft first).append (ihRight _)).append_right _).trans ?_
    rw [List.append_assoc, List.append_assoc]
    have hMove (numbers : List Nat) (a b : Nat) :
        (numbers ++ [a, b]).Perm ([a] ++ (numbers ++ [b])) := List.perm_middle
    exact (hMove _ _ _).append_left _
  | unary fn operand ih =>
    rw [Expr.size, Nat.add_sub_cancel, hNumbers first operand, numberedFrom, List.flatMap_append]
    exact (ih first).append_right _

end Autodiff.Graph
