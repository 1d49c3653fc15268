import Autodiff.Capability.Decimal
import Autodiff.Expr.Traversal
import Autodiff.Proofs.Graph.Drawing
import Autodiff.Proofs.Text.Digits

/-!
# Labels in a listing

A row of a listing is labelled with the id of a variable or with a name that is made of the number
of the node, and the row of an operator names its operands by the labels of their rows. Both kinds
of labels share one space: nothing keeps a variable from being called like another node.

* `Clashes` says that a variable is called like another node;
* `RowOf` says what the row of a place is, and `Listed` that each place has one;
  `listed_of_draw_text` says that the rows of a listing are of this kind;
* `Unambiguous` says that only rows of the same variable have the same label, and
  `Listed.unambiguous_iff` that this is so exactly if no variable clashes;
* `listing_names_operands` states what a listing consists of and when its labels say which row is
  meant, and `not_unambiguous_add_var_neg` is about a tree in which they do not.
-/

namespace Autodiff.Graph

variable {α ε : Type}

/-! ## Labels -/

theorem labelOf_of_id? {number : Nat} {node : Expr α} {id : String} (hId : node.id? = some id) :
    labelOf number node = id := by
  cases node <;> cases hId
  rfl

theorem labelOf_of_id?_eq_none {number : Nat} {node : Expr α} (hId : node.id? = none) :
    labelOf number node = "v" ++ Text.natText number := by
  cases node <;> first | rfl | cases hId

theorem getElem?_labels (entries : List (Entry α)) (n : Nat) :
    (labels entries)[n]? = entries[n]?.map fun entry => labelOf n entry.node := by
  rw [labels, List.getElem?_map, List.getElem?_zipIdx, Option.map_map, Nat.zero_add]
  rfl

/-- The id of a variable is the label that another node has from its number. -/
def Clashes (root : Expr α) : Prop :=
  ∃ (i number : Nat) (place other : Occurrence α), root.postfixPlaces[i]? = some place ∧
    root.postfixPlaces[number]? = some other ∧ other.node.id? = none ∧
    place.node.id? = some ("v" ++ Text.natText number)

/-! ## Rows -/

/-- The row of the place with a number, among the rows of the tree from the last to the first. -/
structure RowOf (picture : Picture α ε) (root : Expr α) (rows : List Row) (number : Nat)
    (place : Occurrence α) (row : Row) : Prop where
  label_eq : row.label = labelOf number place.node
  shows : picture.Shows ", " place.node row.description
  leaf : place.operands = [] → row.operation = none
  /-- An operator names its operands by the labels of their rows. -/
  operator : place.operands ≠ [] → ∃ names,
    row.operation = some (place.node.label picture.text, names) ∧
    List.Forall₂ (fun name below => ∃ (n : Nat) (named : Row),
      root.postfixPlaces[n]? = some below ∧ rows.reverse[n]? = some named ∧ named.label = name)
      names place.operands

/-- The rows of a tree: each place has one, the root the first one. -/
structure Listed (picture : Picture α ε) (root : Expr α) (rows : List Row) : Prop where
  length_eq : rows.length = root.size
  row_at : ∀ (i : Nat) (place : Occurrence α), root.postfixPlaces[i]? = some place →
    ∃ row, rows.reverse[i]? = some row ∧ RowOf picture root rows i place row

theorem listed_of_draw_text {picture : Picture α ε} {root : Expr α} (hGenuine : root.Genuine)
    {drawing : String} (hDraw : draw picture "text" root = .ok drawing) :
    ∃ rows, drawing = "\n".intercalate (Picture.heading ++ rows.map Row.text) ∧
      Listed picture root rows := by
  obtain ⟨rows, hDrawing, hRows⟩ := rows_of_draw_text hGenuine hDraw
  refine ⟨rows, hDrawing, ?length, fun i place hPlace => ?row⟩
  case length =>
    have hLength := hRows.length_eq
    rw [List.length_zipIdx, List.length_reverse, numbered, length_numberedFrom] at hLength
    exact hLength.symm
  case row =>
    obtain ⟨entry, hEntry, hNode, hOperands, -, -⟩ := exists_entry hPlace
    obtain ⟨description, hShows, hFound⟩ := Picture.getElem?_of_made hRows hEntry
    have hEmpty : entry.operands = [] ↔ place.operands = [] := by
      rw [← List.length_eq_zero_iff, hOperands.length_eq, List.length_eq_zero_iff]
    refine ⟨_, hFound, congrArg (labelOf i) hNode, hNode ▸ hShows, ?leaf, ?operator⟩
    case leaf =>
      intro hLeaf
      simp [rowOf, hEmpty.2 hLeaf]
    case operator =>
      intro hOperator
      refine ⟨entry.operands.map fun operand => ((labels (numbered root))[operand]?).getD "",
        ?_, List.forall₂_map_left_iff.2 (hOperands.imp ?_)⟩
      · simp [rowOf, mt hEmpty.1 hOperator, hNode]
      · -- the label at the number of an operand is that of the row there
        intro n below hBelow
        obtain ⟨other, hOther, -⟩ := exists_entry hBelow
        obtain ⟨_, -, hNamed⟩ := Picture.getElem?_of_made hRows hOther
        refine ⟨n, _, hBelow, hNamed, ?_⟩
        rw [getElem?_labels, hOther]
        rfl

/-! ## Unambiguous labels -/

/-- Only rows of the same variable have the same label. -/
def Unambiguous (root : Expr α) (rows : List Row) : Prop :=
  ∀ (i j : Nat) (place other : Occurrence α) (row otherRow : Row),
    root.postfixPlaces[i]? = some place → root.postfixPlaces[j]? = some other →
    rows.reverse[i]? = some row → rows.reverse[j]? = some otherRow → row.label = otherRow.label →
    i = j ∨ ∃ id, place.node.id? = some id ∧ other.node.id? = some id

namespace Listed

variable {picture : Picture α ε} {root : Expr α} {rows : List Row}

theorem label_at (hListed : Listed picture root rows) {i : Nat} {place : Occurrence α} {row : Row}
    (hPlace : root.postfixPlaces[i]? = some place) (hRow : rows.reverse[i]? = some row) :
    row.label = labelOf i place.node := by
  obtain ⟨found, hFound, hRowOf⟩ := hListed.row_at i place hPlace
  cases hFound.symm.trans hRow
  exact hRowOf.label_eq

/-- The labels are unambiguous exactly if no variable is called like another node. -/
theorem unambiguous_iff (hListed : Listed picture root rows) :
    Unambiguous root rows ↔ ¬ Clashes root := by
  constructor
  · rintro hUnambiguous ⟨i, number, place, other, hPlace, hOther, hNone, hId⟩
    obtain ⟨row, hRow, hRowOf⟩ := hListed.row_at i place hPlace
    obtain ⟨otherRow, hOtherRow, hOtherRowOf⟩ := hListed.row_at number other hOther
    have hLabel : row.label = otherRow.label := by
      rw [hRowOf.label_eq, hOtherRowOf.label_eq, labelOf_of_id? hId, labelOf_of_id?_eq_none hNone]
    rcases hUnambiguous i number place other row otherRow hPlace hOther hRow hOtherRow hLabel with
      rfl | ⟨id, -, hOtherId⟩
    · cases hPlace.symm.trans hOther
      rw [hNone] at hId
      cases hId
    · rw [hNone] at hOtherId
      cases hOtherId
  · intro hApart i j place other row otherRow hPlace hOther hRow hOtherRow hLabel
    rw [hListed.label_at hPlace hRow, hListed.label_at hOther hOtherRow] at hLabel
    cases hId : place.node.id? with
    | some id =>
      rw [labelOf_of_id? hId] at hLabel
      cases hOtherId : other.node.id? with
      | some otherId =>
        rw [labelOf_of_id? hOtherId] at hLabel
        exact .inr ⟨id, rfl, congrArg some hLabel.symm⟩
      | none =>
        rw [labelOf_of_id?_eq_none hOtherId] at hLabel
        exact absurd ⟨i, j, place, other, hPlace, hOther, hOtherId, hLabel ▸ hId⟩ hApart
    | none =>
      rw [labelOf_of_id?_eq_none hId] at hLabel
      cases hOtherId : other.node.id? with
      | some otherId =>
        rw [labelOf_of_id? hOtherId] at hLabel
        exact absurd ⟨j, i, other, place, hOther, hPlace, hId, hLabel ▸ hOtherId⟩ hApart
      | none =>
        rw [labelOf_of_id?_eq_none hOtherId] at hLabel
        exact .inl (Text.natText_inj.1 (String.append_right_inj _ |>.1 hLabel))

end Listed

/-! ## What a listing says -/

/-- A listing of a genuine tree has a row for each place, the root first, and an operator names
its operands by the labels of their rows. Only rows of the same variable have the same label
exactly if no variable is called like another node, and then a name in the row of an operator says
which operand is meant, up to another leaf of the same variable. -/
theorem listing_names_operands (picture : Picture α ε) {root : Expr α} (hGenuine : root.Genuine)
    {drawing : String} (hDraw : draw picture "text" root = .ok drawing) :
    ∃ rows, drawing = "\n".intercalate (Picture.heading ++ rows.map Row.text) ∧
      Listed picture root rows ∧ (Unambiguous root rows ↔ ¬ Clashes root) ∧
      (¬ Clashes root → ∀ (i : Nat) (place : Occurrence α) (row : Row) (operator : String)
        (names : List String), root.postfixPlaces[i]? = some place →
        rows.reverse[i]? = some row → row.operation = some (operator, names) →
        List.Forall₂ (fun name below => ∀ (j : Nat) (other : Occurrence α) (otherRow : Row),
          root.postfixPlaces[j]? = some other → rows.reverse[j]? = some otherRow →
          otherRow.label = name →
          other = below ∨ ∃ id, other.node.id? = some id ∧ below.node.id? = some id)
          names place.operands) := by
  obtain ⟨rows, hDrawing, hListed⟩ := listed_of_draw_text hGenuine hDraw
  refine ⟨rows, hDrawing, hListed, hListed.unambiguous_iff, ?_⟩
  intro hApart i place row operator names hPlace hRow hOperation
  have hUnambiguous := hListed.unambiguous_iff.2 hApart
  obtain ⟨found, hFound, hRowOf⟩ := hListed.row_at i place hPlace
  cases hFound.symm.trans hRow
  have hOperator : place.operands ≠ [] := by
    intro hLeaf
    rw [hRowOf.leaf hLeaf] at hOperation
    cases hOperation
  obtain ⟨_, hNames, hNamed⟩ := hRowOf.operator hOperator
  cases hNames.symm.trans hOperation
  refine hNamed.imp ?_
  rintro name below ⟨n, named, hBelow, hNamedRow, rfl⟩ j other otherRow hOther hOtherRow hLabel
  rcases hUnambiguous j n other below otherRow named hOther hBelow hOtherRow hNamedRow hLabel with
    rfl | hSame
  · exact .inl (Option.some.inj (hOther.symm.trans hBelow))
  · exact .inr hSame

/-- The listing of `x - (-x)` in decimal arithmetic: the two rows of the variable are the only ones
with the same label. -/
theorem listing_names_operands_repeated :
    ∃ (picture : Picture Scalar ScalarError) (root : Expr Scalar) (drawing : String)
      (rows : List Row),
      picture = ⟨Decimal.arithmetic, Scalar.write, Scalar.toDouble, .empty⟩ ∧
      root = .sub (.var "x" (.int 1)) (.neg (.var "x" (.int 1))) ∧ root.Genuine ∧
      draw picture "text" root = .ok drawing ∧
      drawing = "\n".intercalate (Picture.heading ++ rows.map Row.text) ∧
      Listed picture root rows ∧ Unambiguous root rows := by
  let root : Expr Scalar := .sub (.var "x" (.int 1)) (.neg (.var "x" (.int 1)))
  have hGenuine : root.Genuine := ⟨trivial, trivial⟩
  have hDraw : draw ⟨Decimal.arithmetic, Scalar.write, Scalar.toDouble, .empty⟩ "text" root =
      .ok ("\n".intercalate (Picture.heading ++ ["        v3: data=2.0000 = -(x, v2)",
        "        v2: data=-1.0000 = neg(x)", "         x: data=1.0000",
        "         x: data=1.0000"])) := by
    rfl
  obtain ⟨rows, hDrawing, hListed, hUnambiguous, -⟩ := listing_names_operands _ hGenuine hDraw
  refine ⟨_, root, _, rows, rfl, rfl, hGenuine, hDraw, hDrawing, hListed, hUnambiguous.2 ?_⟩
  -- the only id is `x`, which does not begin like the label of another node
  rintro ⟨i, number, place, other, hPlace, -, -, hId⟩
  have hMem : place.node ∈ root.postfixNodes := by
    rw [← root.map_node_postfixPlaces]
    exact List.mem_map_of_mem (List.mem_of_getElem? hPlace)
  have hIds : ∀ node ∈ root.postfixNodes, ∀ id ∈ node.id?, id = "x" := by decide
  have hName : "v" ++ Text.natText number = "x" := hIds _ hMem _ hId
  have hFirst := congrArg (fun name => name.toList.head?) hName
  simp at hFirst

/-- The listing of a sum of a variable `v2` and a negated variable: the negation is the node with
the number 2, so its row is labelled like that of the variable, and the sum names both operands
alike. -/
theorem not_unambiguous_add_var_neg :
    ∃ (picture : Picture Scalar ScalarError) (root : Expr Scalar) (drawing : String)
      (rows : List Row),
      picture = ⟨Decimal.arithmetic, Scalar.write, Scalar.toDouble, .empty⟩ ∧
      root = .add (.var "v2" (.int 1)) (.neg (.var "v1" (.int 2))) ∧ root.Genuine ∧
      draw picture "text" root = .ok drawing ∧
      drawing = "\n".intercalate (Picture.heading ++ ["        v3: data=-1.0000 = +(v2, v2)",
        "        v2: data=-2.0000 = neg(v1)", "        v1: data=2.0000",
        "        v2: data=1.0000"]) ∧
      drawing = "\n".intercalate (Picture.heading ++ rows.map Row.text) ∧
      Listed picture root rows ∧ ¬ Unambiguous root rows := by
  let root : Expr Scalar := .add (.var "v2" (.int 1)) (.neg (.var "v1" (.int 2)))
  have hGenuine : root.Genuine := ⟨trivial, trivial⟩
  have hDraw : draw ⟨Decimal.arithmetic, Scalar.write, Scalar.toDouble, .empty⟩ "text" root =
      .ok ("\n".intercalate (Picture.heading ++ ["        v3: data=-1.0000 = +(v2, v2)",
        "        v2: data=-2.0000 = neg(v1)", "        v1: data=2.0000",
        "        v2: data=1.0000"])) := by
    rfl
  obtain ⟨rows, hDrawing, hListed⟩ := listed_of_draw_text hGenuine hDraw
  refine ⟨_, root, _, rows, rfl, rfl, hGenuine, hDraw, rfl, hDrawing, hListed, ?_⟩
  rw [hListed.unambiguous_iff, not_not]
  exact ⟨0, 2, _, _, rfl, rfl, rfl, rfl⟩

end Autodiff.Graph
