import Autodiff.Capability.Decimal
import Autodiff.Proofs.Binary.Places
import Autodiff.Proofs.Expr.StackMachine
import Autodiff.Proofs.Expr.Traversal
import Autodiff.Proofs.Graph.Drawing

/-!
# Why a tree is not drawn

The nodes of a listing are computed from the root on, and those of a graph from the first leaf on;
every one of them is shown as soon as it is computed. A tree without a value fails with the error
of the first node, operands first, that has none. A graph fails earlier if a node before that one
is refused. A tree with a value is drawn if no node is refused.

* `first_refused` finds the first node that is refused;
* `draw_text_of_fault` and `draw_dot_of_fault` are about a tree without a value,
  `draw_text_of_refused` and `draw_dot_of_refused` about a node that is refused;
* `exists_draw_text_iff` and `exists_draw_dot_iff` say which trees are drawn;
* `Picture.Displays` says what is shown of a node without the computation, `Picture.ShownBy` and
  `Picture.ShownByGroup` say which line of a drawing shows it, and `lines_of_draw_text` and
  `lines_of_draw_dot` that drawings consist of such lines;
* `draw_follows_evaluation` states how a drawing depends on the evaluation.
-/

namespace Autodiff.Graph

variable {α ε : Type} {picture : Picture α ε} {root : Expr α}

/-! ## Nodes that are refused -/

/-- Among nodes with values, all are accepted or one is the first that is refused. -/
theorem first_refused {nodes : List (Expr α)}
    (hValues : ∀ node ∈ nodes, ∃ value, node.evaluate picture.num = .ok value) :
    (∀ node ∈ nodes, picture.Accepts node) ∨
      ∃ front refused back rejection, nodes = front ++ refused :: back ∧
        (∀ earlier ∈ front, picture.Accepts earlier) ∧ picture.Rejects refused rejection := by
  induction nodes with
  | nil => exact .inl (by simp)
  | cons node rest ih =>
    obtain ⟨⟨value, hValue⟩, hRest⟩ := List.forall_mem_cons.1 hValues
    by_cases hAccepts : picture.Accepts node
    · rcases ih hRest with hAll | ⟨front, refused, back, rejection, rfl, hFront, hRejects⟩
      · exact .inl (List.forall_mem_cons.2 ⟨hAccepts, hAll⟩)
      · exact .inr ⟨node :: front, refused, back, rejection, rfl,
          List.forall_mem_cons.2 ⟨hAccepts, hFront⟩, hRejects⟩
    · obtain ⟨rejection, hRejects⟩ := Picture.exists_rejects hValue hAccepts
      exact .inr ⟨[], node, rest, rejection, rfl, by simp, hRejects⟩

/-- Descriptions fail at a node that has none where those before it are accepted. -/
theorem mapM_describe_eq_error {separator : String} {front back : List (Expr α)} {node : Expr α}
    {cause : Fault α ε}
    (hValues : ∀ earlier ∈ front, ∃ value, earlier.evaluate picture.num = .ok value)
    (hFront : ∀ earlier ∈ front, picture.Accepts earlier)
    (hNode : picture.describe separator node = .error cause) :
    (front ++ node :: back).mapM (picture.describe separator) = .error cause := by
  refine mapM_eq_error_iff.2 ⟨front, node, back, rfl, ?_, hNode⟩
  intro earlier hMem
  obtain ⟨description, hShows⟩ :=
    Picture.exists_shows_iff.2 ⟨hValues earlier hMem, hFront earlier hMem⟩
  exact ⟨description, Picture.describe_eq_ok_iff.2 hShows⟩

theorem describe_of_rejects {separator : String} {node : Expr α} {rejection : ε}
    (hRejects : picture.Rejects node rejection) :
    picture.describe separator node = .error (.arithmetic rejection) :=
  Picture.describe_eq_error_iff.2 (.inr ⟨rejection, hRejects, rfl⟩)

/-! ## Trees without a value -/

/-- A listing begins with the root, so its error is that of the tree. -/
theorem draw_text_of_fault (hGenuine : root.Genuine) {cause : Fault α ε}
    (hFault : root.evaluate picture.num = .error cause) :
    draw picture "text" root = .error (.fault cause) := by
  obtain ⟨below, hRoot⟩ : ∃ below, root.postfixNodes.reverse = [] ++ root :: below := by
    rw [root.reverse_postfixNodes]
    cases root <;> exact ⟨_, rfl⟩
  refine (draw_text_eq_error_iff hGenuine).2 ⟨cause, ?_, rfl⟩
  rw [hRoot]
  exact mapM_describe_eq_error (by simp) (by simp)
    (Picture.describe_eq_error_iff.2 (.inl hFault))

/-- A graph gets as far as the first node that is refused or has no value. -/
theorem draw_dot_of_fault (hGenuine : root.Genuine) {before after : List (Expr α)} {node : Expr α}
    {cause : Fault α ε} (hNodes : root.postfixNodes = before ++ node :: after)
    (hBefore : ∀ earlier ∈ before, ∃ value, earlier.evaluate picture.num = .ok value)
    (hFault : node.evaluate picture.num = .error cause) :
    (∀ earlier ∈ before, picture.Accepts earlier) ∧
        draw picture "dot" root = .error (.fault cause) ∨
      ∃ front refused back rejection, before = front ++ refused :: back ∧
        (∀ earlier ∈ front, picture.Accepts earlier) ∧ picture.Rejects refused rejection ∧
        draw picture "dot" root = .error (.fault (.arithmetic rejection)) := by
  rcases first_refused hBefore with hAll | ⟨front, refused, back, rejection, rfl, hFront, hRejects⟩
  · refine .inl ⟨hAll, (draw_dot_eq_error_iff hGenuine).2 ⟨cause, ?_, rfl⟩⟩
    rw [hNodes]
    exact mapM_describe_eq_error hBefore hAll (Picture.describe_eq_error_iff.2 (.inl hFault))
  · refine .inr ⟨front, refused, back, rejection, rfl, hFront, hRejects,
      (draw_dot_eq_error_iff hGenuine).2 ⟨_, ?_, rfl⟩⟩
    rw [hNodes, List.append_assoc, List.cons_append]
    exact mapM_describe_eq_error (fun earlier hMem => hBefore earlier (by simp [hMem])) hFront
      (describe_of_rejects hRejects)

/-! ## Trees with values -/

/-- A listing fails with the last node that is refused. -/
theorem draw_text_of_refused (hGenuine : root.Genuine) {front back : List (Expr α)}
    {refused : Expr α} {rejection : ε}
    (hValues : ∀ node ∈ root.postfixNodes, ∃ value, node.evaluate picture.num = .ok value)
    (hNodes : root.postfixNodes = front ++ refused :: back)
    (hBack : ∀ later ∈ back, picture.Accepts later) (hRejects : picture.Rejects refused rejection) :
    draw picture "text" root = .error (.fault (.arithmetic rejection)) := by
  refine (draw_text_eq_error_iff hGenuine).2 ⟨_, ?_, rfl⟩
  rw [hNodes] at hValues ⊢
  rw [List.reverse_append, List.reverse_cons, List.append_assoc, List.singleton_append]
  refine mapM_describe_eq_error (fun later hMem => hValues later ?_)
    (fun later hMem => hBack later (List.mem_reverse.1 hMem)) (describe_of_rejects hRejects)
  simp [List.mem_reverse.1 hMem]

/-- A graph fails with the first node that is refused. -/
theorem draw_dot_of_refused (hGenuine : root.Genuine) {front back : List (Expr α)}
    {refused : Expr α} {rejection : ε}
    (hValues : ∀ node ∈ root.postfixNodes, ∃ value, node.evaluate picture.num = .ok value)
    (hNodes : root.postfixNodes = front ++ refused :: back)
    (hFront : ∀ earlier ∈ front, picture.Accepts earlier)
    (hRejects : picture.Rejects refused rejection) :
    draw picture "dot" root = .error (.fault (.arithmetic rejection)) := by
  refine (draw_dot_eq_error_iff hGenuine).2 ⟨_, ?_, rfl⟩
  rw [hNodes] at hValues ⊢
  exact mapM_describe_eq_error (fun earlier hMem => hValues earlier (by simp [hMem])) hFront
    (describe_of_rejects hRejects)

/-- All descriptions are there exactly if each node has a value and is accepted. -/
theorem exists_mapM_describe_iff {separator : String} {nodes : List (Expr α)} :
    (∃ descriptions, nodes.mapM (picture.describe separator) = .ok descriptions) ↔
      ∀ node ∈ nodes, (∃ value, node.evaluate picture.num = .ok value) ∧ picture.Accepts node := by
  simp only [exists_mapM_eq_ok_iff, Picture.describe_eq_ok_iff, Picture.exists_shows_iff]

theorem exists_draw_text_iff (hGenuine : root.Genuine) :
    (∃ drawing, draw picture "text" root = .ok drawing) ↔
      ∀ node ∈ root.postfixNodes,
        (∃ value, node.evaluate picture.num = .ok value) ∧ picture.Accepts node := by
  rw [exists_ok_iff_of_error_iff fun error => draw_text_eq_error_iff hGenuine,
    exists_mapM_describe_iff]
  simp only [List.mem_reverse]

theorem exists_draw_dot_iff (hGenuine : root.Genuine) :
    (∃ drawing, draw picture "dot" root = .ok drawing) ↔
      ∀ node ∈ root.postfixNodes,
        (∃ value, node.evaluate picture.num = .ok value) ∧ picture.Accepts node := by
  rw [exists_ok_iff_of_error_iff fun error => draw_dot_eq_error_iff hGenuine,
    exists_mapM_describe_iff]

/-! ## What is shown -/

namespace Picture

/-- A text that shows the value of a node to four places and, for a variable that has one, its
gradient. -/
def Displays (picture : Picture α ε) (separator : String) (node : Expr α)
    (description : String) : Prop :=
  ∃ value x data, node.evaluate picture.num = .ok value ∧ picture.toDouble value = .ok x ∧
    x.ShownTo 4 data ∧
    match picture.gradient? node with
    | none => description = "data=" ++ data
    | some slope => ∃ y grad, picture.toDouble slope = .ok y ∧ y.ShownTo 4 grad ∧
        description = "data=" ++ data ++ separator ++ "grad=" ++ grad

theorem Shows.displays {separator : String} {node : Expr α} {description : String}
    (h : picture.Shows separator node description) :
    picture.Displays separator node description := by
  obtain ⟨value, x, hValue, hDouble, hText⟩ := h
  refine ⟨value, x, x.fixedText 4, hValue, hDouble, Binary.shownTo_fixedText 4 x, ?_⟩
  cases hSlope : picture.gradient? node with
  | none =>
    rw [hSlope] at hText
    exact hText
  | some slope =>
    rw [hSlope] at hText
    obtain ⟨y, hSlopeDouble, hText⟩ := hText
    exact ⟨y, y.fixedText 4, hSlopeDouble, Binary.shownTo_fixedText 4 y, hText⟩

/-- A line that shows a node with a number: its label, what is shown of it and, if it has operands,
its operator with names for them. -/
def ShownBy (picture : Picture α ε) (node : Expr α) (number : Nat) (line : String) : Prop :=
  ∃ description names, picture.Displays ", " node description ∧
    line = alignRight labelWidth (labelOf number node) ++ ": " ++ description ++
      if names = [] then ""
      else " = " ++ node.label picture.text ++ "(" ++ ", ".intercalate names ++ ")"

/-- Lines that show a node with a number: its own, with its label and what is shown of it, and then
the edges that lead to it. -/
def ShownByGroup (picture : Picture α ε) (node : Expr α) (number : Nat)
    (lines : List String) : Prop :=
  ∃ description sources, picture.Displays "\\n" node description ∧
    lines = ("  n" ++ Text.natText number ++ " [label=\"" ++ node.label picture.text ++ "\\n" ++
        description ++ "\", shape=" ++ (if sources = [] then "box" else "circle") ++ "];") ::
      sources.map fun source =>
        "  n" ++ Text.natText source ++ " -> n" ++ Text.natText number ++ ";"

end Picture

/-- Behind the heading, from the last one on, every line of a listing shows its own node. -/
theorem lines_of_draw_text (hGenuine : root.Genuine) {drawing : String}
    (hDraw : draw picture "text" root = .ok drawing) :
    ∃ lines : List String, drawing = "\n".intercalate (Picture.heading ++ lines) ∧
      List.Forall₂ (fun (node, number) line => picture.ShownBy node number line)
        root.postfixNodes.zipIdx lines.reverse := by
  obtain ⟨rows, hDrawing, hRows⟩ := rows_of_draw_text hGenuine hDraw
  refine ⟨rows.map Row.text, hDrawing, ?_⟩
  rw [← map_zipIdx_numbered, List.forall₂_map_left_iff, ← List.map_reverse,
    List.forall₂_map_right_iff]
  refine hRows.imp ?_
  rintro ⟨entry, number⟩ row ⟨description, hShows, rfl⟩
  refine ⟨description, entry.operands.map fun operand =>
    ((labels (numbered root))[operand]?).getD "", hShows.displays, ?_⟩
  rw [rowOf, Row.text]
  cases entry.operands <;> rfl

/-- Between the first two lines and the last one, the lines of a graph show one node after the
other. -/
theorem lines_of_draw_dot (hGenuine : root.Genuine) {drawing : String}
    (hDraw : draw picture "dot" root = .ok drawing) :
    ∃ groups : List (List String), drawing = "\n".intercalate
        (Dot.opening ++ groups.flatten ++ [Dot.closing]) ∧
      List.Forall₂ (fun (node, number) lines => picture.ShownByGroup node number lines)
        root.postfixNodes.zipIdx groups := by
  obtain ⟨groups, hDrawing, hGroups⟩ := groups_of_draw_dot hGenuine hDraw
  refine ⟨groups.map (List.map Dot.Statement.text), by rw [← List.map_flatten]; exact hDrawing, ?_⟩
  rw [← map_zipIdx_numbered, List.forall₂_map_left_iff, List.forall₂_map_right_iff]
  refine hGroups.imp ?_
  rintro ⟨entry, number⟩ group ⟨description, hShows, rfl⟩
  refine ⟨description, entry.operands, hShows.displays, ?_⟩
  have hShape : (if entry.operands.isEmpty then Dot.Shape.box else .circle).name =
      if entry.operands = [] then "box" else "circle" := by
    cases entry.operands <;> rfl
  rw [groupOf, List.map_cons, List.map_map, Dot.Statement.text, hShape]
  rfl

/-! ## Drawing and evaluation -/

/-- How the drawing of a genuine tree depends on its evaluation, provided that there is a zero.
Without a value, a listing fails with the error of the tree, and a graph with that of the first
node that has no value, which is the same, or with the rejection of a node before that one. With
a value, all nodes have values, and both formats draw the tree exactly if its nodes are accepted;
else a listing fails with the rejection of the last node that is refused, and a graph with that of
the first one. The lines of what is drawn show every node at its place, with its value and its
gradient to four places. -/
theorem draw_follows_evaluation (picture : Picture α ε) {root : Expr α} (hGenuine : root.Genuine)
    {zero : α} (hZero : picture.num.ofInt 0 = .ok zero) :
    (∀ cause, root.evaluate picture.num = .error cause →
      draw picture "text" root = .error (.fault cause) ∧
      ∃ before node after, root.postfixNodes = before ++ node :: after ∧
        (∀ earlier ∈ before, ∃ value, earlier.evaluate picture.num = .ok value) ∧
        node.evaluate picture.num = .error cause ∧
        ((∀ earlier ∈ before, picture.Accepts earlier) ∧
            draw picture "dot" root = .error (.fault cause) ∨
          ∃ front refused back rejection, before = front ++ refused :: back ∧
            (∀ earlier ∈ front, picture.Accepts earlier) ∧ picture.Rejects refused rejection ∧
            draw picture "dot" root = .error (.fault (.arithmetic rejection)))) ∧
    (∀ value, root.evaluate picture.num = .ok value →
      (∀ node ∈ root.postfixNodes, ∃ value, node.evaluate picture.num = .ok value) ∧
      (∀ format ∈ ["text", "dot"], (∃ drawing, draw picture format root = .ok drawing) ↔
        ∀ node ∈ root.postfixNodes, picture.Accepts node) ∧
      ∀ front refused back rejection, root.postfixNodes = front ++ refused :: back →
        picture.Rejects refused rejection →
        ((∀ later ∈ back, picture.Accepts later) →
          draw picture "text" root = .error (.fault (.arithmetic rejection))) ∧
        ((∀ earlier ∈ front, picture.Accepts earlier) →
          draw picture "dot" root = .error (.fault (.arithmetic rejection)))) ∧
    (∀ drawing, draw picture "text" root = .ok drawing →
      ∃ lines : List String, drawing = "\n".intercalate (Picture.heading ++ lines) ∧
        List.Forall₂ (fun (node, number) line => picture.ShownBy node number line)
          root.postfixNodes.zipIdx lines.reverse) ∧
    ∀ drawing, draw picture "dot" root = .ok drawing →
      ∃ groups : List (List String), drawing = "\n".intercalate
          (Dot.opening ++ groups.flatten ++ [Dot.closing]) ∧
        List.Forall₂ (fun (node, number) lines => picture.ShownByGroup node number lines)
          root.postfixNodes.zipIdx groups := by
  refine ⟨fun cause hFault => ⟨draw_text_of_fault hGenuine hFault, ?fault⟩,
    fun value hValue => ⟨fun node => StackMachine.exists_value_of_mem_postfixNodes hZero hValue,
      ?drawn, ?refused⟩, fun drawing => lines_of_draw_text hGenuine,
    fun drawing => lines_of_draw_dot hGenuine⟩
  case fault =>
    obtain ⟨before, node, after, -, hNodes, hBefore, hNode, -, -⟩ :=
      StackMachine.stopsWith_postfixNodes hZero hFault []
    exact ⟨before, node, after, hNodes, hBefore, hNode,
      draw_dot_of_fault hGenuine hNodes hBefore hNode⟩
  all_goals
    have hValues (node : Expr α) (hMem : node ∈ root.postfixNodes) :
        ∃ value, node.evaluate picture.num = .ok value :=
      StackMachine.exists_value_of_mem_postfixNodes hZero hValue hMem
  case drawn =>
    have hAccepts : (∀ node ∈ root.postfixNodes,
        (∃ value, node.evaluate picture.num = .ok value) ∧ picture.Accepts node) ↔
        ∀ node ∈ root.postfixNodes, picture.Accepts node :=
      forall₂_congr fun node hMem => and_iff_right (hValues node hMem)
    rw [List.forall_mem_cons, List.forall_mem_singleton, exists_draw_text_iff hGenuine,
      exists_draw_dot_iff hGenuine, hAccepts]
    exact ⟨.rfl, .rfl⟩
  case refused =>
    intro front refused back rejection hNodes hRejects
    exact ⟨fun hBack => draw_text_of_refused hGenuine hValues hNodes hBack hRejects,
      fun hFront => draw_dot_of_refused hGenuine hValues hNodes hFront hRejects⟩

/-- The drawings of `x * 3` at 2 with a gradient, and those of `x + 1 / 0` where `x` is a text that
is no number, in decimal arithmetic. In the second tree the quotient has no value and stops the
listing. The text is the value of its leaf, and the graph stops there already. -/
theorem draw_follows_evaluation_product :
    ∃ (picture : Picture Scalar ScalarError) (root unreadable : Expr Scalar) (zero : Scalar)
      (listing graph : String),
      picture = ⟨Decimal.arithmetic, Scalar.write, Scalar.toDouble, .ofList [("x", .int 3)]⟩ ∧
      root = .mul (.var "x" (.int 2)) (.lit (.int 3)) ∧
      unreadable = .add (.var "x" (.text "one")) (.div (.lit (.int 1)) (.lit (.int 0))) ∧
      root.Genuine ∧ unreadable.Genuine ∧ picture.num.ofInt 0 = .ok zero ∧
      listing = "\n".intercalate (Picture.heading ++ ["        v2: data=6.0000 = *(x, v1)",
        "        v1: data=3.0000", "         x: data=2.0000, grad=3.0000"]) ∧
      draw picture "text" root = .ok listing ∧
      (∃ lines, listing = "\n".intercalate (Picture.heading ++ lines) ∧
        List.Forall₂ (fun (node, number) line => picture.ShownBy node number line)
          root.postfixNodes.zipIdx lines.reverse) ∧
      graph = "\n".intercalate (Dot.opening ++
        ["  n0 [label=\"x\\ndata=2.0000\\ngrad=3.0000\", shape=box];",
          "  n1 [label=\"3\\ndata=3.0000\", shape=box];",
          "  n2 [label=\"*\\ndata=6.0000\", shape=circle];", "  n0 -> n2;", "  n1 -> n2;"] ++
        [Dot.closing]) ∧
      draw picture "dot" root = .ok graph ∧
      (∃ groups : List (List String), graph = "\n".intercalate
          (Dot.opening ++ groups.flatten ++ [Dot.closing]) ∧
        List.Forall₂ (fun (node, number) lines => picture.ShownByGroup node number lines)
          root.postfixNodes.zipIdx groups) ∧
      draw picture "text" unreadable =
        .error (.fault (.arithmetic (.decimal .divisionByZero))) ∧
      draw picture "dot" unreadable = .error (.fault (.arithmetic (.unreadable "one"))) := by
  let picture : Picture Scalar ScalarError :=
    ⟨Decimal.arithmetic, Scalar.write, Scalar.toDouble, .ofList [("x", .int 3)]⟩
  let root : Expr Scalar := .mul (.var "x" (.int 2)) (.lit (.int 3))
  let leaf : Expr Scalar := .var "x" (.text "one")
  let unreadable : Expr Scalar := .add leaf (.div (.lit (.int 1)) (.lit (.int 0)))
  have hRoot : root.Genuine := ⟨trivial, trivial⟩
  have hGenuine : unreadable.Genuine := ⟨trivial, trivial, trivial⟩
  have hZero : picture.num.ofInt 0 = .ok (.decimal (.ofInt 0)) := rfl
  have hListing : draw picture "text" root = .ok ("\n".intercalate (Picture.heading ++
      ["        v2: data=6.0000 = *(x, v1)", "        v1: data=3.0000",
        "         x: data=2.0000, grad=3.0000"])) := by
    decide +kernel
  have hGraph : draw picture "dot" root = .ok ("\n".intercalate (Dot.opening ++
      ["  n0 [label=\"x\\ndata=2.0000\\ngrad=3.0000\", shape=box];",
        "  n1 [label=\"3\\ndata=3.0000\", shape=box];",
        "  n2 [label=\"*\\ndata=6.0000\", shape=circle];", "  n0 -> n2;", "  n1 -> n2;"] ++
      [Dot.closing])) := by
    decide +kernel
  obtain ⟨-, -, hLines, hGroups⟩ := draw_follows_evaluation picture hRoot hZero
  have hValue : leaf.evaluate picture.num = .ok (.text "one") := rfl
  have hRefused : picture.toDouble (.text "one") = .error (.unreadable "one") := rfl
  have hLeaf : ¬ picture.Accepts leaf := by
    intro hAccepts
    obtain ⟨x, hDouble⟩ := hAccepts.value _ hValue
    rw [hRefused] at hDouble
    cases hDouble
  have hFault : unreadable.evaluate picture.num =
      .error (.arithmetic (.decimal .divisionByZero)) := rfl
  obtain ⟨hText, before, node, after, hNodes, -, hNode, hDot⟩ :=
    (draw_follows_evaluation picture hGenuine hZero).1 _ hFault
  refine ⟨picture, root, unreadable, _, _, _, rfl, rfl, rfl, hRoot, hGenuine, hZero, rfl, hListing,
    hLines _ hListing, rfl, hGraph, hGroups _ hGraph, hText, ?_⟩
  -- the text is the first node of all, it has a value, and it is refused
  have hFirst : unreadable.postfixNodes = leaf :: unreadable.postfixNodes.tail := rfl
  rw [hFirst] at hNodes
  rcases hDot with ⟨hAll, -⟩ | ⟨front, refused, back, rejection, rfl, hFront, hRejects, hDot⟩
  · cases before with
    | nil =>
      obtain ⟨rfl, -⟩ := List.cons.inj hNodes
      rw [hValue] at hNode
      cases hNode
    | cons first before =>
      obtain ⟨rfl, -⟩ := List.cons.inj hNodes
      exact absurd (hAll _ List.mem_cons_self) hLeaf
  · cases front with
    | nil =>
      obtain ⟨rfl, -⟩ := List.cons.inj hNodes
      obtain ⟨value, hOther, hRejected | ⟨⟨x, hDouble⟩, -⟩⟩ := hRejects
      · rw [hValue] at hOther
        cases hOther
        rw [hRefused] at hRejected
        cases hRejected
        exact hDot
      · rw [hValue] at hOther
        cases hOther
        rw [hRefused] at hDouble
        cases hDouble
    | cons first front =>
      obtain ⟨rfl, -⟩ := List.cons.inj hNodes
      exact absurd (hFront _ List.mem_cons_self) hLeaf

end Autodiff.Graph
