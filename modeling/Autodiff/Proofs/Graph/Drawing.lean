import Autodiff.Graph.Draw
import Autodiff.Proofs.Graph.Numbering

/-!
# What is drawn of a node

A node is drawn if it has a value, and if the value and the gradient that it shows are taken for
doubles. Otherwise the drawing fails with the error of the value, or with that of the first of the
two that is refused.

* `Picture.Shows`, `Picture.Accepts` and `Picture.Rejects` say what a node shows, that it can be
  shown, and why it is not;
* `describe_eq_ok_iff` and `describe_eq_error_iff` say that these are the outcomes of a
  description, and `exists_shows_iff` that nothing else stops one;
* `rowOf` and `groupOf` are the row and the statements of a node with its description, and
  `rows_of_draw_text` and `groups_of_draw_dot` say that drawings are made of these, one for each
  entry, in the sense of `Picture.Made`;
* `draw_text_eq_error_iff` and `draw_dot_eq_error_iff` say that a drawing fails as the descriptions
  of the nodes do, taken from the last one on or from the first one on.
-/

namespace Autodiff.Graph

variable {α ε : Type}

namespace Picture

variable {picture : Picture α ε}

/-! ## Descriptions -/

/-- A text that shows the value of a node with four places and, for a variable that has one, its
gradient. -/
def Shows (picture : Picture α ε) (separator : String) (node : Expr α)
    (description : String) : Prop :=
  ∃ value x, node.evaluate picture.num = .ok value ∧ picture.toDouble value = .ok x ∧
    match picture.gradient? node with
    | none => description = "data=" ++ x.fixedText 4
    | some slope => ∃ y, picture.toDouble slope = .ok y ∧
        description = "data=" ++ x.fixedText 4 ++ separator ++ "grad=" ++ y.fixedText 4

/-- The value of a node, if there is one, and its gradient, if it shows one, are taken for
doubles. -/
structure Accepts (picture : Picture α ε) (node : Expr α) : Prop where
  value : ∀ value, node.evaluate picture.num = .ok value → ∃ x, picture.toDouble value = .ok x
  gradient : ∀ slope, picture.gradient? node = some slope → ∃ y, picture.toDouble slope = .ok y

/-- The value of a node is not taken for a double, or else its gradient is not. -/
def Rejects (picture : Picture α ε) (node : Expr α) (rejection : ε) : Prop :=
  ∃ value, node.evaluate picture.num = .ok value ∧
    (picture.toDouble value = .error rejection ∨
      (∃ x, picture.toDouble value = .ok x) ∧ ∃ slope, picture.gradient? node = some slope ∧
        picture.toDouble slope = .error rejection)

theorem shown_eq_ok_iff {value : α} {written : String} :
    picture.shown value = .ok written ↔
      ∃ x, picture.toDouble value = .ok x ∧ x.fixedText 4 = written := by
  rw [shown]
  cases picture.toDouble value <;> simp [pure, Except.pure]

theorem shown_eq_error_iff {value : α} {cause : Fault α ε} :
    picture.shown value = .error cause ↔
      ∃ rejection, picture.toDouble value = .error rejection ∧ .arithmetic rejection = cause := by
  rw [shown]
  cases picture.toDouble value <;> simp [pure, Except.pure]

theorem describe_eq_ok_iff {separator : String} {node : Expr α} {description : String} :
    picture.describe separator node = .ok description ↔
      picture.Shows separator node description := by
  rw [describe, bind_eq_ok_iff]
  constructor
  · rintro ⟨value, hValue, hRest⟩
    obtain ⟨data, hData, hRest⟩ := bind_eq_ok_iff.1 hRest
    obtain ⟨x, hDouble, rfl⟩ := shown_eq_ok_iff.1 hData
    refine ⟨value, x, hValue, hDouble, ?_⟩
    cases hSlope : picture.gradient? node with
    | none =>
      rw [hSlope] at hRest
      exact (Except.ok.inj hRest).symm
    | some slope =>
      rw [hSlope] at hRest
      obtain ⟨grad, hGrad, hPure⟩ := bind_eq_ok_iff.1 hRest
      obtain ⟨y, hSlopeDouble, rfl⟩ := shown_eq_ok_iff.1 hGrad
      exact ⟨y, hSlopeDouble, (Except.ok.inj hPure).symm⟩
  · rintro ⟨value, x, hValue, hDouble, hText⟩
    refine ⟨value, hValue, bind_eq_ok_iff.2 ⟨_, shown_eq_ok_iff.2 ⟨x, hDouble, rfl⟩, ?_⟩⟩
    cases hSlope : picture.gradient? node with
    | none =>
      rw [hSlope] at hText
      exact congrArg Except.ok hText.symm
    | some slope =>
      rw [hSlope] at hText
      obtain ⟨y, hSlopeDouble, rfl⟩ := hText
      exact bind_eq_ok_iff.2 ⟨_, shown_eq_ok_iff.2 ⟨y, hSlopeDouble, rfl⟩, rfl⟩

theorem describe_eq_error_iff {separator : String} {node : Expr α} {cause : Fault α ε} :
    picture.describe separator node = .error cause ↔
      node.evaluate picture.num = .error cause ∨
        ∃ rejection, picture.Rejects node rejection ∧ .arithmetic rejection = cause := by
  rw [describe, bind_eq_error_iff]
  refine or_congr_right ?_
  constructor
  · rintro ⟨value, hValue, hRest⟩
    rcases bind_eq_error_iff.1 hRest with hData | ⟨data, hData, hRest⟩
    · obtain ⟨rejection, hRejection, rfl⟩ := shown_eq_error_iff.1 hData
      exact ⟨rejection, ⟨value, hValue, .inl hRejection⟩, rfl⟩
    · obtain ⟨x, hDouble, -⟩ := shown_eq_ok_iff.1 hData
      cases hSlope : picture.gradient? node with
      | none =>
        rw [hSlope] at hRest
        cases hRest
      | some slope =>
        rw [hSlope] at hRest
        rcases bind_eq_error_iff.1 hRest with hGrad | ⟨grad, -, hPure⟩
        · obtain ⟨rejection, hRejection, rfl⟩ := shown_eq_error_iff.1 hGrad
          exact ⟨rejection, ⟨value, hValue, .inr ⟨⟨x, hDouble⟩, slope, hSlope, hRejection⟩⟩, rfl⟩
        · cases hPure
  · rintro ⟨rejection, ⟨value, hValue, hRefused | ⟨⟨x, hDouble⟩, slope, hSlope, hRefused⟩⟩, rfl⟩
    · exact ⟨value, hValue,
        bind_eq_error_iff.2 (.inl (shown_eq_error_iff.2 ⟨rejection, hRefused, rfl⟩))⟩
    · refine ⟨value, hValue, bind_eq_error_iff.2
        (.inr ⟨_, shown_eq_ok_iff.2 ⟨x, hDouble, rfl⟩, ?_⟩)⟩
      rw [hSlope]
      exact bind_eq_error_iff.2 (.inl (shown_eq_error_iff.2 ⟨rejection, hRefused, rfl⟩))

/-- A node can be shown exactly if it has a value and is accepted. -/
theorem exists_shows_iff {separator : String} {node : Expr α} :
    (∃ description, picture.Shows separator node description) ↔
      (∃ value, node.evaluate picture.num = .ok value) ∧ picture.Accepts node := by
  constructor
  · rintro ⟨description, value, x, hValue, hDouble, hText⟩
    refine ⟨⟨value, hValue⟩, ⟨fun other hOther => ?_, fun slope hSlope => ?_⟩⟩
    · rw [hValue] at hOther
      cases hOther
      exact ⟨x, hDouble⟩
    · rw [hSlope] at hText
      obtain ⟨y, hSlopeDouble, -⟩ := hText
      exact ⟨y, hSlopeDouble⟩
  · rintro ⟨⟨value, hValue⟩, hAccepts⟩
    obtain ⟨x, hDouble⟩ := hAccepts.value value hValue
    cases hSlope : picture.gradient? node with
    | none => exact ⟨_, value, x, hValue, hDouble, by rw [hSlope]⟩
    | some slope =>
      obtain ⟨y, hSlopeDouble⟩ := hAccepts.gradient slope hSlope
      exact ⟨_, value, x, hValue, hDouble, by rw [hSlope]; exact ⟨y, hSlopeDouble, rfl⟩⟩

/-- A node with a value that is not accepted is refused for a reason. -/
theorem exists_rejects {node : Expr α} {value : α}
    (hValue : node.evaluate picture.num = .ok value) (hRefused : ¬ picture.Accepts node) :
    ∃ rejection, picture.Rejects node rejection := by
  cases hOutcome : picture.describe "" node with
  | ok description =>
    exact absurd (exists_shows_iff.1 ⟨description, describe_eq_ok_iff.1 hOutcome⟩).2 hRefused
  | error cause =>
    rcases describe_eq_error_iff.1 hOutcome with hFault | ⟨rejection, hRejects, -⟩
    · rw [hValue] at hFault
      cases hFault
    · exact ⟨rejection, hRejects⟩

end Picture

/-! ## Rows and statements -/

/-- The row of a node, from its description and the labels of all nodes. -/
def rowOf (text : α → String) (labels : List String) (numbered : Entry α × Nat)
    (description : String) : Row :=
  ⟨labelOf numbered.2 numbered.1.node, description,
    if numbered.1.operands.isEmpty then none
    else some (numbered.1.node.label text,
      numbered.1.operands.map fun operand => (labels[operand]?).getD "")⟩

/-- The statements of a node, from its description. -/
def groupOf (text : α → String) (numbered : Entry α × Nat) (description : String) :
    List Dot.Statement :=
  .node numbered.2 (numbered.1.node.label text) description
      (if numbered.1.operands.isEmpty then .box else .circle) ::
    numbered.1.operands.map fun operand => .edge operand numbered.2

theorem map_node_zipIdx_numbered (root : Expr α) :
    (numbered root).zipIdx.map (fun numbered => numbered.1.node) = root.postfixNodes := by
  have hFirst : (numbered root).zipIdx.map Prod.fst = numbered root := List.zipIdx_map_fst 0 _
  rw [← map_node_numberedFrom 0 root]
  exact (List.map_map ..).symm.trans (congrArg (List.map Entry.node) hFirst)

/-- The nodes with their numbers. -/
theorem map_zipIdx_numbered (root : Expr α) :
    (numbered root).zipIdx.map (fun numbered => (numbered.1.node, numbered.2)) =
      root.postfixNodes.zipIdx := by
  rw [← map_node_numberedFrom 0 root, List.zipIdx_map]
  rfl

namespace Picture

variable {picture : Picture α ε}

/-- What is made of a description of an entry. -/
def Made {β : Type} (picture : Picture α ε) (separator : String)
    (make : Entry α × Nat → String → β) (numbered : Entry α × Nat) (result : β) : Prop :=
  ∃ description, picture.Shows separator numbered.1.node description ∧
    make numbered description = result

theorem forall₂_made {β : Type} {separator : String} {make : Entry α × Nat → String → β}
    {f : Entry α × Nat → Except (Fault α ε) β}
    (hMap : ∀ numbered, f numbered =
      (picture.describe separator numbered.1.node).map (make numbered))
    {entries : List (Entry α × Nat)} {results : List β}
    (hResults : entries.mapM f = .ok results) :
    List.Forall₂ (picture.Made separator make) entries results := by
  refine (mapM_eq_ok_iff.1 hResults).imp ?_
  intro numbered result hResult
  obtain ⟨description, hDescription, hMake⟩ :=
    map_eq_ok_iff.1 ((hMap numbered).symm.trans hResult)
  exact ⟨description, describe_eq_ok_iff.1 hDescription, hMake⟩

/-- What is made of the entry with a number. -/
theorem getElem?_of_made {β : Type} {separator : String} {make : Entry α × Nat → String → β}
    {entries : List (Entry α)} {results : List β}
    (hMade : List.Forall₂ (picture.Made separator make) entries.zipIdx results) {i : Nat}
    {entry : Entry α} (hEntry : entries[i]? = some entry) :
    ∃ description, picture.Shows separator entry.node description ∧
      results[i]? = some (make (entry, i) description) := by
  have hNumbered : entries.zipIdx[i]? = some (entry, i) := by
    rw [List.getElem?_zipIdx, hEntry, Option.map_some, Nat.zero_add]
  obtain ⟨result, hResult, description, hShows, rfl⟩ :=
    exists_getElem?_of_forall₂ hMade hNumbered
  exact ⟨description, hShows, hResult⟩

theorem row_eq (labels : List String) (numbered : Entry α × Nat) :
    picture.row labels numbered.1 numbered.2 =
      (picture.describe ", " numbered.1.node).map (rowOf picture.text labels numbered) := by
  rw [row]
  cases picture.describe ", " numbered.1.node <;> rfl

theorem nodeStatements_eq (numbered : Entry α × Nat) :
    picture.nodeStatements numbered.1 numbered.2 =
      (picture.describe Dot.lineBreak numbered.1.node).map (groupOf picture.text numbered) := by
  rw [nodeStatements]
  cases picture.describe Dot.lineBreak numbered.1.node <;> rfl

end Picture

/-! ## Drawings -/

/-- A drawing is the text of its rows, or it fails as they do. -/
theorem draw_text_eq (picture : Picture α ε) {root : Expr α} (hGenuine : root.Genuine) :
    draw picture "text" root =
      match picture.rows (numbered root) with
      | .ok rows => .ok ("\n".intercalate (Picture.heading ++ rows.map Row.text))
      | .error cause => .error (.fault cause) := by
  have hFormat : DrawFormat.find? "text" = some .text := rfl
  simp only [draw, hFormat, Picture.drawAs, number_eq_numbered hGenuine, Fault.liftWalk, ok_bind,
    Picture.listing]
  cases picture.rows (numbered root) <;> rfl

/-- A drawing is the text of its statements, or it fails as the statements of a node do. -/
theorem draw_dot_eq (picture : Picture α ε) {root : Expr α} (hGenuine : root.Genuine) :
    draw picture "dot" root =
      match (numbered root).zipIdx.mapM fun (entry, number) =>
        picture.nodeStatements entry number with
      | .ok groups => .ok ("\n".intercalate
          (Dot.opening ++ groups.flatten.map Dot.Statement.text ++ [Dot.closing]))
      | .error cause => .error (.fault cause) := by
  have hFormat : DrawFormat.find? "dot" = some .dot := rfl
  simp only [draw, hFormat, Picture.drawAs, number_eq_numbered hGenuine, Fault.liftWalk, ok_bind,
    Picture.dot, Picture.statements, bind_assoc]
  cases (numbered root).zipIdx.mapM fun (entry, number) => picture.nodeStatements entry number <;>
    rfl

/-- The rows of a drawing, from the last to the first, are those of the entries. -/
theorem rows_of_draw_text {picture : Picture α ε} {root : Expr α} (hGenuine : root.Genuine)
    {drawing : String} (hDraw : draw picture "text" root = .ok drawing) :
    ∃ rows : List Row, drawing = "\n".intercalate (Picture.heading ++ rows.map Row.text) ∧
      List.Forall₂ (picture.Made ", " (rowOf picture.text (labels (numbered root))))
        (numbered root).zipIdx rows.reverse := by
  rw [draw_text_eq picture hGenuine] at hDraw
  cases hRows : picture.rows (numbered root) with
  | error cause =>
    rw [hRows] at hDraw
    cases hDraw
  | ok rows =>
    rw [hRows] at hDraw
    refine ⟨rows, (Except.ok.inj hDraw).symm, ?_⟩
    rw [← List.forall₂_reverse_iff, List.reverse_reverse]
    exact Picture.forall₂_made (Picture.row_eq _) hRows

/-- The statements of a drawing are those of the entries. -/
theorem groups_of_draw_dot {picture : Picture α ε} {root : Expr α} (hGenuine : root.Genuine)
    {drawing : String} (hDraw : draw picture "dot" root = .ok drawing) :
    ∃ groups : List (List Dot.Statement), drawing = "\n".intercalate
        (Dot.opening ++ groups.flatten.map Dot.Statement.text ++ [Dot.closing]) ∧
      List.Forall₂ (picture.Made Dot.lineBreak (groupOf picture.text)) (numbered root).zipIdx
        groups := by
  rw [draw_dot_eq picture hGenuine] at hDraw
  cases hGroups : (numbered root).zipIdx.mapM fun (entry, number) =>
      picture.nodeStatements entry number with
  | error cause =>
    rw [hGroups] at hDraw
    cases hDraw
  | ok groups =>
    rw [hGroups] at hDraw
    exact ⟨groups, (Except.ok.inj hDraw).symm,
      Picture.forall₂_made Picture.nodeStatements_eq hGroups⟩

/-- A listing fails as the description of a node does, the last one first. -/
theorem draw_text_eq_error_iff {picture : Picture α ε} {root : Expr α} (hGenuine : root.Genuine)
    {error : DrawError α ε} :
    draw picture "text" root = .error error ↔
      ∃ cause, root.postfixNodes.reverse.mapM (picture.describe ", ") = .error cause ∧
        .fault cause = error := by
  have hRows (cause : Fault α ε) : picture.rows (numbered root) = .error cause ↔
      root.postfixNodes.reverse.mapM (picture.describe ", ") = .error cause := by
    rw [← map_node_zipIdx_numbered, ← List.map_reverse]
    exact mapM_map_eq_error_iff (Picture.row_eq _)
  simp only [draw_text_eq picture hGenuine, ← hRows]
  cases picture.rows (numbered root) <;> simp

/-- A graph fails as the description of a node does, the first one first. -/
theorem draw_dot_eq_error_iff {picture : Picture α ε} {root : Expr α} (hGenuine : root.Genuine)
    {error : DrawError α ε} :
    draw picture "dot" root = .error error ↔
      ∃ cause, root.postfixNodes.mapM (picture.describe Dot.lineBreak) = .error cause ∧
        .fault cause = error := by
  have hGroups (cause : Fault α ε) : ((numbered root).zipIdx.mapM fun (entry, number) =>
      picture.nodeStatements entry number) = .error cause ↔
      root.postfixNodes.mapM (picture.describe Dot.lineBreak) = .error cause := by
    rw [← map_node_zipIdx_numbered]
    exact mapM_map_eq_error_iff Picture.nodeStatements_eq
  simp only [draw_dot_eq picture hGenuine, ← hGroups]
  cases (numbered root).zipIdx.mapM fun (entry, number) => picture.nodeStatements entry number <;>
    simp

end Autodiff.Graph
