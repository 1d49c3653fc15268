import Autodiff.Capability.Decimal
import Autodiff.Proofs.Binary.Places
import Autodiff.Proofs.Graph.Dot
import Autodiff.Proofs.Text.Numeral

/-!
# Reading a graph back

The lines of a graph are read back one by one, and so is the tree that they draw. Labels are
written as they are, so this takes labels that have no line break of their own: such a label spreads
a line over several ones.

* `Dot.textLines` are the lines of a text, and `textLines_intercalate_iff` says that lines which
  were put together are found again exactly if none of them has a line break;
* `Dot.readLine?` reads a line, up to what is shown below the label; `readLine?_text` says that it
  finds what the statement tells;
* `Dot.readOutline?` reads the tree from a drawing;
* `graph_draws_tree` states what a graph consists of and that the tree is read back from it, and
  `textLines_draw_line_break` is about a label with a line break.
-/

namespace Autodiff.Graph

variable {α ε : Type}

namespace Dot

/-! ## Lines of a text -/

/-- The lines of a text. -/
def textLines (drawing : String) : List String :=
  (drawing.toList.splitOn '\n').map String.ofList

theorem not_mem_of_mem_splitOn {β : Type} [BEq β] [LawfulBEq β] {a : β} {elements piece : List β}
    (hPiece : piece ∈ elements.splitOn a) : a ∉ piece := by
  induction elements generalizing piece with
  | nil =>
    rw [List.splitOn_nil, List.mem_singleton] at hPiece
    rw [hPiece]
    exact List.not_mem_nil
  | cons head rest ih =>
    rw [List.splitOn_cons_eq_if_modifyHead] at hPiece
    split at hPiece
    · rcases List.mem_cons.1 hPiece with rfl | hRest
      · exact List.not_mem_nil
      · exact ih hRest
    · next hHead =>
      cases hPieces : rest.splitOn a with
      | nil =>
        rw [hPieces] at hPiece
        cases hPiece
      | cons first later =>
        rw [hPieces] at hPiece ih
        rcases List.mem_cons.1 hPiece with rfl | hLater
        · rw [List.mem_cons, not_or]
          exact ⟨fun hEq => hHead (beq_iff_eq.2 hEq.symm), ih List.mem_cons_self⟩
        · exact ih (List.mem_cons_of_mem _ hLater)

/-- Lines that were put together are found again exactly if none of them has a line break. -/
theorem textLines_intercalate_iff {lines : List String} (hLines : lines ≠ []) :
    textLines ("\n".intercalate lines) = lines ↔ ∀ line ∈ lines, '\n' ∉ line.toList := by
  have hBreak : "\n".toList = ['\n'] := rfl
  rw [textLines, String.toList_intercalate, hBreak]
  constructor
  · intro hFound line hMem
    rw [← hFound] at hMem
    obtain ⟨piece, hPiece, rfl⟩ := List.mem_map.1 hMem
    rw [String.toList_ofList]
    exact not_mem_of_mem_splitOn hPiece
  · intro hNone
    have hPieces : ∀ piece ∈ lines.map String.toList, '\n' ∉ piece := by
      intro piece hPiece
      obtain ⟨line, hMem, rfl⟩ := List.mem_map.1 hPiece
      exact hNone line hMem
    rw [List.splitOn_intercalate _ hPieces (by simpa using hLines), List.map_map]
    simp

/-! ## Reading a line -/

/-- The text before the last place of a mark. -/
def beforeLast? (mark : List Char) : List Char → Option (List Char)
  | [] => none
  | c :: rest =>
    match beforeLast? mark rest with
    | some front => some (c :: front)
    | none => if mark <+: c :: rest then some [] else none

/-- A number at the front of a text, and the text after it. -/
def readNumber (chars : List Char) : Nat × List Char :=
  (Text.ofDigits (chars.takeWhile Text.isDigit), chars.dropWhile Text.isDigit)

/-- What stands between the label of a node and its value. -/
def valueMark : List Char := lineBreak.toList ++ "data=".toList

/-- Read the line of a statement. A label ends before the last place where a value begins. -/
def readLine? (line : String) : Option Line := do
  let numbered ← line.toList.dropPrefix? "  n".toList
  let (number, rest) := readNumber numbered
  match rest.dropPrefix? " -> n".toList with
  | some target => return .edge number (readNumber target).1
  | none =>
    let quoted ← rest.dropPrefix? " [label=\"".toList
    let label ← beforeLast? valueMark quoted
    return .node number (String.ofList label)

/-- Read the lines between the first two and the last one. -/
def read? (drawing : String) : Option (List Line) :=
  ((textLines drawing).drop opening.length).dropLast.mapM readLine?

/-- Read the tree from a drawing. -/
def readOutline? (drawing : String) : Option Outline := do
  let lines ← read? drawing
  outline? lines

theorem dropPrefix?_append (front back : List Char) :
    (front ++ back).dropPrefix? front = some back :=
  List.dropPrefix?_eq_some_iff.2 ⟨front, rfl, beq_self_eq_true front⟩

theorem readNumber_digits (n : Nat) {rest : List Char}
    (hRest : ∀ c ∈ rest.head?, Text.isDigit c = false) :
    readNumber (Text.digits n ++ rest) = (n, rest) := by
  obtain ⟨hTake, hDrop⟩ := Text.Numeral.Written.span_digits
    (fun c hMem => Text.isDigit_of_mem_digits hMem) hRest
  rw [readNumber, hTake, hDrop, Text.ofDigits_digits]

theorem beforeLast?_append_some {mark chars front : List Char} (before : List Char)
    (hFront : beforeLast? mark chars = some front) :
    beforeLast? mark (before ++ chars) = some (before ++ front) := by
  induction before with
  | nil => exact hFront
  | cons c before ih => rw [List.cons_append, beforeLast?, ih, List.cons_append]

/-- A mark is nowhere in a text without one of its characters. -/
theorem beforeLast?_eq_none {mark chars : List Char} {c : Char} (hMark : c ∈ mark)
    (hNone : c ∉ chars) : beforeLast? mark chars = none := by
  induction chars with
  | nil => rfl
  | cons head rest ih =>
    have hPrefix : ¬ mark <+: head :: rest := fun hPrefix => hNone (hPrefix.subset hMark)
    rw [beforeLast?, ih fun hMem => hNone (List.mem_cons_of_mem _ hMem), if_neg hPrefix]

/-- A mark begins nowhere in a text without its first character. -/
theorem beforeLast?_append_none {first : Char} {mark chars : List Char}
    (hNone : beforeLast? (first :: mark) chars = none) {before : List Char}
    (hBefore : first ∉ before) : beforeLast? (first :: mark) (before ++ chars) = none := by
  induction before with
  | nil => exact hNone
  | cons c before ih =>
    obtain ⟨hFirst, hRest⟩ := not_or.1 (mt List.mem_cons.2 hBefore)
    have hPrefix : ¬ first :: mark <+: c :: (before ++ chars) :=
      fun hPrefix => hFirst (List.cons_prefix_cons.1 hPrefix).1
    rw [List.cons_append, beforeLast?, ih hRest, if_neg hPrefix]

/-- A label is what stands before a value, whatever the label is. -/
theorem beforeLast?_valueMark (label : List Char) {tail : List Char} (hTail : 't' ∉ tail) :
    beforeLast? valueMark (label ++ (valueMark ++ tail)) = some label := by
  have hNone : beforeLast? valueMark ("ndata=".toList ++ tail) = none :=
    beforeLast?_append_none (beforeLast?_eq_none (by decide) hTail) (by decide)
  have hMark : valueMark ++ tail = '\\' :: ("ndata=".toList ++ tail) := rfl
  have hHere : beforeLast? valueMark (valueMark ++ tail) = some [] := by
    rw [hMark, beforeLast?, hNone, ← hMark]
    exact if_pos (List.prefix_append valueMark tail)
  rw [beforeLast?_append_some label hHere, List.append_nil]

/-! ## Descriptions -/

/-- What is read of a node is followed by a text without the letter `t` and without line breaks. -/
def IsDescription (description : String) : Prop :=
  ∃ tail, description.toList = "data=".toList ++ tail ∧ 't' ∉ tail ∧ '\n' ∉ tail

theorem isDescription_of_shows {picture : Picture α ε} {node : Expr α} {description : String}
    (hShows : picture.Shows lineBreak node description) : IsDescription description := by
  have hNone {c : Char} (hDigit : c.isDigit = false)
      (hLetter : c ∉ ['-', '.', 'n', 'a', 'i', 'f']) (x : Binary .double) :
      c ∉ (x.fixedText 4).toList := by
    intro hMem
    rcases (Binary.shownTo_fixedText 4 x).mem hMem with hIsDigit | hIsLetter
    · rw [hDigit] at hIsDigit
      cases hIsDigit
    · exact hLetter hIsLetter
  have hNumber (x : Binary .double) :
      't' ∉ (x.fixedText 4).toList ∧ '\n' ∉ (x.fixedText 4).toList :=
    ⟨hNone (by decide) (by decide) x, hNone (by decide) (by decide) x⟩
  obtain ⟨value, x, -, -, hText⟩ := hShows
  cases hSlope : picture.gradient? node with
  | none =>
    rw [hSlope] at hText
    refine ⟨(x.fixedText 4).toList, ?_, hNumber x⟩
    rw [hText, String.toList_append]
  | some slope =>
    rw [hSlope] at hText
    obtain ⟨y, -, rfl⟩ := hText
    refine ⟨(x.fixedText 4).toList ++ (lineBreak.toList ++ ("grad=".toList ++
      (y.fixedText 4).toList)), by simp [String.toList_append], ?_, ?_⟩
    · simp [hNumber x, hNumber y, lineBreak]
    · simp [hNumber x, hNumber y, lineBreak]

/-! ## Statements -/

/-- A statement in which a node shows a number, and perhaps another one. -/
def Statement.Described : Statement → Prop
  | node _ _ description _ => IsDescription description
  | edge _ _ => True

theorem readLine?_text {statement : Statement} (hDescribed : statement.Described) :
    readLine? statement.text = some statement.line := by
  cases statement with
  | edge source target =>
    have hText : (Statement.edge source target).text.toList = "  n".toList ++
        (Text.digits source ++ (" -> n".toList ++ (Text.digits target ++ ";".toList))) := by
      simp only [Statement.text, Text.natText, String.toList_append, String.toList_ofList,
        List.append_assoc]
    have hSource : readNumber (Text.digits source ++ (" -> n".toList ++
        (Text.digits target ++ ";".toList))) =
        (source, " -> n".toList ++ (Text.digits target ++ ";".toList)) :=
      readNumber_digits source (by simp; decide)
    have hTarget : readNumber (Text.digits target ++ ";".toList) = (target, ";".toList) :=
      readNumber_digits target (by simp; decide)
    rw [readLine?, hText, dropPrefix?_append, Option.bind_eq_bind, Option.bind_some]
    simp only [hSource, dropPrefix?_append, hTarget]
    rfl
  | node number label description shape =>
    obtain ⟨tail, hTail, hLetter, -⟩ := hDescribed
    let ending : List Char := tail ++ ("\", shape=".toList ++ (shape.name.toList ++ "];".toList))
    let quoted : List Char := " [label=\"".toList ++ (label.toList ++ (valueMark ++ ending))
    have hText : (Statement.node number label description shape).text.toList =
        "  n".toList ++ (Text.digits number ++ quoted) := by
      simp only [Statement.text, Text.natText, String.toList_append, String.toList_ofList, hTail,
        valueMark, ending, quoted, List.append_assoc]
    have hEnding : 't' ∉ ending := by
      cases shape <;> simp [ending, hLetter, Shape.name]
    have hNumber : readNumber (Text.digits number ++ quoted) = (number, quoted) :=
      readNumber_digits number (by simp [quoted]; decide)
    have hNode : quoted.dropPrefix? " -> n".toList = none := rfl
    have hLabel : quoted.dropPrefix? " [label=\"".toList =
        some (label.toList ++ (valueMark ++ ending)) := dropPrefix?_append _ _
    rw [readLine?, hText, dropPrefix?_append, Option.bind_eq_bind, Option.bind_some]
    simp only [hNumber, hNode, hLabel, Option.bind_some,
      beforeLast?_valueMark label.toList hEnding, String.ofList_toList]
    rfl

/-- A statement fills one line unless its label has a line break. -/
theorem lineBreak_mem_text_iff {statement : Statement} (hDescribed : statement.Described) :
    '\n' ∈ statement.text.toList ↔
      ∃ number label description shape, statement = .node number label description shape ∧
        '\n' ∈ label.toList := by
  have hDigits (n : Nat) : '\n' ∉ Text.digits n := by
    intro hMem
    exact absurd (Text.isDigit_of_mem_digits hMem) (by decide)
  cases statement with
  | edge source target =>
    simp [Statement.text, Text.natText, hDigits]
  | node number label description shape =>
    obtain ⟨tail, hTail, -, hBreak⟩ := hDescribed
    cases shape <;>
      simp [Statement.text, Text.natText, hDigits, hTail, hBreak, lineBreak, Shape.name]

/-- The labels in the statements that draw a tree are those of its nodes. -/
theorem Depicts.exists_node_iff {text : α → String} {root : Expr α} {statements : List Statement}
    (h : Depicts text root statements) {label : String} :
    (∃ number description shape, .node number label description shape ∈ statements) ↔
      ∃ node ∈ root.postfixNodes, node.label text = label := by
  have hNodes : (∃ number, (number, label) ∈ nodes (statements.map Statement.line)) ↔
      ∃ number description shape, .node number label description shape ∈ statements := by
    refine exists_congr fun number => ?_
    rw [nodes, List.mem_filterMap]
    constructor
    · rintro ⟨line, hLine, hNode⟩
      obtain ⟨statement, hMem, rfl⟩ := List.mem_map.1 hLine
      cases statement with
      | edge => cases hNode
      | node other written description shape =>
        cases hNode
        exact ⟨description, shape, hMem⟩
    · rintro ⟨description, shape, hMem⟩
      exact ⟨.node number label, List.mem_map.2 ⟨_, hMem, rfl⟩, rfl⟩
  rw [← hNodes, h.nodes_eq]
  constructor
  · rintro ⟨number, hMem⟩
    obtain ⟨⟨node, position⟩, hNode, hEq⟩ := List.mem_map.1 hMem
    obtain ⟨-, hLabel⟩ := Prod.mk.inj hEq
    exact ⟨node, List.mem_of_getElem? (List.mem_zipIdx_iff_getElem?.1 hNode), hLabel⟩
  · rintro ⟨node, hMem, hLabel⟩
    obtain ⟨number, hNumber⟩ := List.mem_iff_getElem?.1 hMem
    exact ⟨number, List.mem_map.2 ⟨(node, number), List.mem_zipIdx_iff_getElem?.2 hNumber,
      congrArg (Prod.mk number) hLabel⟩⟩

/-- Between two fixed lines every statement fills one line exactly if no label has a line break. -/
theorem Depicts.textLines_eq_iff {text : α → String} {root : Expr α} {statements : List Statement}
    (h : Depicts text root statements)
    (hDescribed : ∀ statement ∈ statements, statement.Described) :
    textLines ("\n".intercalate (opening ++ statements.map Statement.text ++ [closing])) =
        opening ++ statements.map Statement.text ++ [closing] ↔
      ∀ node ∈ root.postfixNodes, '\n' ∉ (node.label text).toList := by
  rw [textLines_intercalate_iff (by simp), List.forall_mem_append, List.forall_mem_append]
  constructor
  · rintro ⟨⟨-, hNone⟩, -⟩ node hNode hBreak
    obtain ⟨number, description, shape, hMem⟩ := h.exists_node_iff.2 ⟨node, hNode, rfl⟩
    exact hNone _ (List.mem_map_of_mem hMem)
      ((lineBreak_mem_text_iff (hDescribed _ hMem)).2 ⟨_, _, _, _, rfl, hBreak⟩)
  · intro hNone
    refine ⟨⟨by decide, ?_⟩, by decide⟩
    intro line hLine hBreak
    obtain ⟨statement, hMem, rfl⟩ := List.mem_map.1 hLine
    obtain ⟨number, label, description, shape, rfl, hLabel⟩ :=
      (lineBreak_mem_text_iff (hDescribed _ hMem)).1 hBreak
    obtain ⟨node, hNode, rfl⟩ := h.exists_node_iff.1 ⟨number, description, shape, hMem⟩
    exact hNone node hNode hLabel

end Dot

/-! ## Drawings -/

theorem described_of_groups {picture : Picture α ε} {root : Expr α}
    {groups : List (List Dot.Statement)}
    (hGroups : List.Forall₂ (picture.Made Dot.lineBreak (groupOf picture.text))
      (numbered root).zipIdx groups) :
    ∀ statement ∈ groups.flatten, statement.Described := by
  intro statement hMem
  obtain ⟨group, hGroup, hMem⟩ := List.mem_flatten.1 hMem
  obtain ⟨numbered, -, description, hShows, rfl⟩ := exists_of_forall₂ hGroups.flip hGroup
  rcases List.mem_cons.1 hMem with rfl | hEdge
  · exact Dot.isDescription_of_shows hShows
  · obtain ⟨operand, -, rfl⟩ := List.mem_map.1 hEdge
    trivial

/-- A graph of a genuine tree consists of statements that draw the tree, and the tree is read back
from what they tell. Each statement is a line exactly if no label has a line break, and then the
statements and the tree are read back from the text. -/
theorem graph_draws_tree (picture : Picture α ε) {root : Expr α} (hGenuine : root.Genuine)
    {drawing : String} (hDraw : draw picture "dot" root = .ok drawing) :
    ∃ statements : List Dot.Statement, drawing = "\n".intercalate
        (Dot.opening ++ statements.map Dot.Statement.text ++ [Dot.closing]) ∧
      Dot.Depicts picture.text root statements ∧
      Dot.outline? (statements.map Dot.Statement.line) = some (root.outline picture.text) ∧
      (Dot.textLines drawing =
          Dot.opening ++ statements.map Dot.Statement.text ++ [Dot.closing] ↔
        ∀ node ∈ root.postfixNodes, '\n' ∉ (node.label picture.text).toList) ∧
      ((∀ node ∈ root.postfixNodes, '\n' ∉ (node.label picture.text).toList) →
        Dot.read? drawing = some (statements.map Dot.Statement.line) ∧
        Dot.readOutline? drawing = some (root.outline picture.text)) := by
  obtain ⟨groups, hDrawing, hGroups⟩ := groups_of_draw_dot hGenuine hDraw
  have hDepicts := Dot.depicts_groups hGroups
  have hDescribed := described_of_groups hGroups
  have hLines : Dot.textLines drawing =
      Dot.opening ++ groups.flatten.map Dot.Statement.text ++ [Dot.closing] ↔
      ∀ node ∈ root.postfixNodes, '\n' ∉ (node.label picture.text).toList := by
    rw [hDrawing]
    exact hDepicts.textLines_eq_iff hDescribed
  refine ⟨groups.flatten, hDrawing, hDepicts, hDepicts.outline?_eq, hLines, fun hNone => ?_⟩
  have hRead : Dot.read? drawing = some (groups.flatten.map Dot.Statement.line) := by
    rw [Dot.read?, hLines.2 hNone, List.append_assoc, List.drop_left, List.dropLast_concat]
    refine mapM_eq_some_iff.2
      (List.forall₂_map_left_iff.2 (List.forall₂_map_right_iff.2 (List.forall₂_same.2 ?_)))
    intro statement hMem
    exact Dot.readLine?_text (hDescribed statement hMem)
  refine ⟨hRead, ?_⟩
  rw [Dot.readOutline?, hRead]
  exact hDepicts.outline?_eq

/-- The graph of `x - (-x)` in decimal arithmetic, with the tree that is read from it. -/
theorem graph_draws_tree_repeated :
    ∃ (picture : Picture Scalar ScalarError) (root : Expr Scalar) (drawing : String)
      (statements : List Dot.Statement),
      picture = ⟨Decimal.arithmetic, Scalar.write, Scalar.toDouble, .empty⟩ ∧
      root = .sub (.var "x" (.int 1)) (.neg (.var "x" (.int 1))) ∧ root.Genuine ∧
      draw picture "dot" root = .ok drawing ∧
      (∀ node ∈ root.postfixNodes, '\n' ∉ (node.label picture.text).toList) ∧
      Dot.textLines drawing =
        Dot.opening ++ statements.map Dot.Statement.text ++ [Dot.closing] ∧
      Dot.Depicts picture.text root statements ∧
      Dot.readOutline? drawing =
        some (.node "-" [.node "x" [], .node "neg" [.node "x" []]]) := by
  let root : Expr Scalar := .sub (.var "x" (.int 1)) (.neg (.var "x" (.int 1)))
  have hGenuine : root.Genuine := ⟨trivial, trivial⟩
  have hDraw : draw ⟨Decimal.arithmetic, Scalar.write, Scalar.toDouble, .empty⟩ "dot" root =
      .ok ("\n".intercalate (Dot.opening ++ ["  n0 [label=\"x\\ndata=1.0000\", shape=box];",
        "  n1 [label=\"x\\ndata=1.0000\", shape=box];",
        "  n2 [label=\"neg\\ndata=-1.0000\", shape=circle];", "  n1 -> n2;",
        "  n3 [label=\"-\\ndata=2.0000\", shape=circle];", "  n0 -> n3;", "  n2 -> n3;"] ++
        [Dot.closing])) := by
    rfl
  have hNone : ∀ node ∈ root.postfixNodes, '\n' ∉ (node.label Scalar.write).toList := by decide
  obtain ⟨statements, -, hDepicts, -, hLines, hRead⟩ := graph_draws_tree _ hGenuine hDraw
  exact ⟨_, root, _, statements, rfl, rfl, hGenuine, hDraw, hNone, hLines.2 hNone, hDepicts,
    (hRead hNone).2⟩

/-- The graph of one variable with a line break in its id has two lines between the first two and
the last one, and no tree is read from them. -/
theorem textLines_draw_line_break :
    ∃ (picture : Picture Scalar ScalarError) (root : Expr Scalar) (drawing : String),
      picture = ⟨Decimal.arithmetic, Scalar.write, Scalar.toDouble, .empty⟩ ∧
      root = .var "a\nb" (.int 1) ∧ root.Genuine ∧ root.size = 1 ∧
      draw picture "dot" root = .ok drawing ∧
      Dot.textLines drawing =
        Dot.opening ++ ["  n0 [label=\"a", "b\\ndata=1.0000\", shape=box];"] ++ [Dot.closing] ∧
      Dot.readOutline? drawing = none := by
  let lines : List String :=
    Dot.opening ++ ["  n0 [label=\"a", "b\\ndata=1.0000\", shape=box];"] ++ [Dot.closing]
  have hDraw : draw ⟨Decimal.arithmetic, Scalar.write, Scalar.toDouble, .empty⟩ "dot"
      (.var "a\nb" (.int 1)) = .ok ("\n".intercalate lines) := by
    rfl
  have hLines : Dot.textLines ("\n".intercalate lines) = lines :=
    (Dot.textLines_intercalate_iff (List.concat_ne_nil _ _)).2 (by decide)
  refine ⟨_, _, _, rfl, rfl, trivial, rfl, hDraw, hLines, ?_⟩
  rw [Dot.readOutline?, Dot.read?, hLines]
  rfl

/-- Two trees with different labels have the same graph: the text between the letters breaks out of
its label and reads like the beginning of another node. -/
theorem draw_dot_not_injective :
    ∃ (picture : Picture Scalar ScalarError) (first second : Expr Scalar) (drawing : String),
      draw picture "dot" first = .ok drawing ∧ draw picture "dot" second = .ok drawing ∧
      first.Genuine ∧ second.Genuine ∧
      first.outline picture.text ≠ second.outline picture.text := by
  let between : String := "\\ndata=1.0000\", shape=box];\n  n1 [label=\""
  let first : Expr Scalar := .add (.var ("a" ++ between ++ "b") (.int 1)) (.var "c" (.int 1))
  let second : Expr Scalar := .add (.var "a" (.int 1)) (.var ("b" ++ between ++ "c") (.int 1))
  let picture : Picture Scalar ScalarError :=
    ⟨Decimal.arithmetic, Scalar.write, Scalar.toDouble, .empty⟩
  have hSame : draw picture "dot" first = draw picture "dot" second := by
    rfl
  have hDraw : ∃ drawing, draw picture "dot" second = .ok drawing := ⟨_, by rfl⟩
  obtain ⟨drawing, hDraw⟩ := hDraw
  refine ⟨picture, first, second, drawing, hSame.trans hDraw, hDraw, ⟨trivial, trivial⟩,
    ⟨trivial, trivial⟩, ?_⟩
  intro hOutline
  have hLabels : ("a" ++ between ++ "b" = "a") ∧ "c" = "b" ++ between ++ "c" := by
    simpa [first, second, Expr.outline, Expr.label] using hOutline
  exact absurd hLabels.1 (by decide)

end Autodiff.Graph
