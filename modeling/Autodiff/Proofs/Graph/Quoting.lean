import Autodiff.Proofs.Graph.ReadBack

/-!
# Labels as quoted strings

A label is written between quotes as it is. By the rules for quoted strings a quote ends the
string, a backslash takes the next character with it, and a line break is written as an escape. So
a label comes back exactly if it has none of these three characters; otherwise it ends early, or it
stands for another text, or it has no end on its line.

* `Dot.readQuoted?` reads a quoted string, and `Dot.escape` writes one: `readQuoted?_escape` says
  that what is written comes back, and `length_escape_le` that nothing shorter does;
* `Dot.IsPlain` are the texts that need no escape, and `readQuoted?_label_iff` says that these are
  the labels that come back;
* `escape_of_shows` says that what is shown below a label is escaped as it should be;
* `draw_dot_quotes` puts these together for the lines of a graph.
-/

namespace Autodiff.Graph

variable {α ε : Type}

namespace Dot

/-! ## Quoted strings -/

/-- What a character behind a backslash stands for: a line break or itself. -/
def unescape (c : Char) : Char := if c = 'n' then '\n' else c

/-- Read a quoted string from behind its first quote on: what it stands for, and the text behind
the quote that ends it. It has to end on its line. -/
def readQuoted? : List Char → Option (List Char × List Char)
  | [] => none
  | '"' :: rest => some ([], rest)
  | '\n' :: _ => none
  | ['\\'] => none
  | '\\' :: c :: rest => (readQuoted? rest).map (Prod.map (unescape c :: ·) id)
  | c :: rest => (readQuoted? rest).map (Prod.map (c :: ·) id)

/-- How a character is written in a quoted string. -/
def escapeChar (c : Char) : List Char :=
  if c = '\n' then ['\\', 'n'] else if c = '"' ∨ c = '\\' then ['\\', c] else [c]

def escape (content : List Char) : List Char := content.flatMap escapeChar

/-- A text that is written in a quoted string as it is. -/
def IsPlain (content : List Char) : Prop := ∀ c ∈ content, c ≠ '"' ∧ c ≠ '\\' ∧ c ≠ '\n'

instance (content : List Char) : Decidable (IsPlain content) :=
  List.decidableBAll (fun c => c ≠ '"' ∧ c ≠ '\\' ∧ c ≠ '\n') content

theorem escapeChar_of_isPlain {c : Char} (hPlain : c ≠ '"' ∧ c ≠ '\\' ∧ c ≠ '\n') :
    escapeChar c = [c] := by
  simp [escapeChar, hPlain]

theorem length_escapeChar (c : Char) :
    (escapeChar c).length = if c ≠ '"' ∧ c ≠ '\\' ∧ c ≠ '\n' then 1 else 2 := by
  by_cases hBreak : c = '\n'
  · simp [escapeChar, hBreak]
  · by_cases hMark : c = '"' ∨ c = '\\'
    · rcases hMark with rfl | rfl <;> rfl
    · simp [escapeChar, hBreak, not_or.1 hMark]

theorem escape_cons (c : Char) (rest : List Char) : escape (c :: rest) = escapeChar c ++ escape rest :=
  List.flatMap_cons

theorem escape_append (front back : List Char) :
    escape (front ++ back) = escape front ++ escape back :=
  List.flatMap_append

theorem escape_eq_self {content : List Char} (hPlain : IsPlain content) :
    escape content = content := by
  induction content with
  | nil => rfl
  | cons c rest ih =>
    have hRest : IsPlain rest := fun d hMem => hPlain d (List.mem_cons_of_mem c hMem)
    rw [escape_cons, escapeChar_of_isPlain (hPlain c List.mem_cons_self), ih hRest]
    rfl

theorem length_le_escape (content : List Char) : content.length ≤ (escape content).length := by
  induction content with
  | nil => rfl
  | cons c rest ih =>
    rw [escape_cons, List.length_append, length_escapeChar, List.length_cons]
    split <;> omega

/-- Every escape takes room. -/
theorem isPlain_of_length_escape_le {content : List Char}
    (hLength : (escape content).length ≤ content.length) : IsPlain content := by
  induction content with
  | nil => exact fun _ hMem => absurd hMem List.not_mem_nil
  | cons c rest ih =>
    rw [escape_cons, List.length_append, length_escapeChar, List.length_cons] at hLength
    have hRoom := length_le_escape rest
    split at hLength
    · next hPlain => exact List.forall_mem_cons.2 ⟨hPlain, ih (by omega)⟩
    · omega

theorem readQuoted?_escapeChar (c : Char) (rest : List Char) :
    readQuoted? (escapeChar c ++ rest) = (readQuoted? rest).map (Prod.map (c :: ·) id) := by
  by_cases hBreak : c = '\n'
  · subst hBreak
    rfl
  · by_cases hMark : c = '"' ∨ c = '\\'
    · rcases hMark with rfl | rfl <;> rfl
    · obtain ⟨hQuote, hBackslash⟩ := not_or.1 hMark
      rw [escapeChar_of_isPlain ⟨hQuote, hBackslash, hBreak⟩, List.singleton_append, readQuoted?]
      all_goals simp_all

/-- What is written with escapes comes back, whatever follows. -/
theorem readQuoted?_escape (content rest : List Char) :
    readQuoted? (escape content ++ '"' :: rest) = some (content, rest) := by
  induction content with
  | nil => rfl
  | cons c content ih =>
    rw [escape_cons, List.append_assoc, readQuoted?_escapeChar, ih]
    rfl

/-- There is no shorter way to write what comes back. -/
theorem length_escape_le {chars content rest : List Char}
    (hRead : readQuoted? chars = some (content, rest)) :
    (escape content).length + 1 + rest.length ≤ chars.length := by
  fun_induction readQuoted? chars generalizing content with
  | case1 | case3 | case4 => cases hRead
  | case2 later =>
    cases hRead
    simp [escape, Nat.add_comm]
  | case5 c later ih =>
    obtain ⟨⟨below, after⟩, hBelow, hEq⟩ := Option.map_eq_some_iff.1 hRead
    cases hEq
    have hLater := ih hBelow
    rw [escape_cons, List.length_append, length_escapeChar, List.length_cons, List.length_cons]
    split <;> omega
  | case6 c later hQuote hBreak hLast hMore ih =>
    obtain ⟨⟨below, after⟩, hBelow, hEq⟩ := Option.map_eq_some_iff.1 hRead
    cases hEq
    have hLater := ih hBelow
    have hBackslash : c ≠ '\\' := by
      rintro rfl
      cases later with
      | nil => exact hLast rfl rfl
      | cons d rest => exact hMore d rest rfl rfl
    rw [escape_cons, escapeChar_of_isPlain ⟨hQuote, hBackslash, hBreak⟩, List.singleton_append,
      List.length_cons, List.length_cons]
    omega

/-! ## Labels -/

/-- A label comes back, with what is shown below it, exactly if it needs no escape. -/
theorem readQuoted?_label_iff (label data rest : List Char) :
    readQuoted? (label ++ (lineBreak.toList ++ (escape data ++ '"' :: rest))) =
      some (label ++ '\n' :: data, rest) ↔ IsPlain label := by
  have hContent : escape (label ++ '\n' :: data) = escape label ++ (lineBreak.toList ++ escape data) :=
    escape_append label _
  constructor
  · intro hRead
    have hLength := length_escape_le hRead
    simp only [hContent, List.length_append, List.length_cons] at hLength
    exact isPlain_of_length_escape_le (by omega)
  · intro hPlain
    have hRead := readQuoted?_escape (label ++ '\n' :: data) rest
    rwa [hContent, escape_eq_self hPlain, List.append_assoc, List.append_assoc] at hRead

/-- A trailing backslash changes the escape that follows it. -/
example : readQuoted? "a\\\\ndata=1\", shape=box];".toList =
    some ("a\\ndata=1".toList, ", shape=box];".toList) := by
  rfl

/-- Read the line of a node by the rules for quoted strings: its number, what its label stands for,
and what follows the label. -/
def readNodeLine? (line : String) : Option (Nat × String × String) := do
  let numbered ← line.toList.dropPrefix? "  n".toList
  let (number, rest) := readNumber numbered
  let quoted ← rest.dropPrefix? " [label=\"".toList
  let (content, after) ← readQuoted? quoted
  return (number, String.ofList content, String.ofList after)

theorem readNodeLine?_text_iff (number : Nat) (label : String) {description data : String}
    (hDescription : description.toList = escape data.toList) (shape : Shape) :
    readNodeLine? (Statement.node number label description shape).text =
        some (number, label ++ "\n" ++ data, ", shape=" ++ shape.name ++ "];") ↔
      IsPlain label.toList := by
  let ending : List Char := ", shape=".toList ++ (shape.name.toList ++ "];".toList)
  let quoted : List Char :=
    label.toList ++ (lineBreak.toList ++ (escape data.toList ++ '"' :: ending))
  have hText : (Statement.node number label description shape).text.toList =
      "  n".toList ++ (Text.digits number ++ (" [label=\"".toList ++ quoted)) := by
    simp [Statement.text, Text.natText, String.toList_append, hDescription, quoted, ending]
  have hNumber : readNumber (Text.digits number ++ (" [label=\"".toList ++ quoted)) =
      (number, " [label=\"".toList ++ quoted) :=
    readNumber_digits number (by simp; decide)
  rw [← readQuoted?_label_iff label.toList data.toList ending, readNodeLine?, hText,
    dropPrefix?_append]
  simp only [Option.bind_eq_bind, Option.bind_some, hNumber, dropPrefix?_append]
  have hContent : label ++ "\n" ++ data = String.ofList (label.toList ++ '\n' :: data.toList) := by
    simp [← String.toList_inj]
  have hEnding : ", shape=" ++ shape.name ++ "];" = String.ofList ending := by
    simp [← String.toList_inj, ending]
  rw [hContent, hEnding]
  change (readQuoted? quoted).bind _ = _ ↔ readQuoted? quoted = _
  cases readQuoted? quoted with
  | none => simp
  | some reading =>
    simp only [Option.bind_some, Option.pure_def, Option.some.injEq, true_and,
      String.ofList_inj, Prod.ext_iff]

/-! ## What is shown below a label -/

theorem isPlain_fixedText {f : Format} (x : Binary f) (places : Nat) :
    IsPlain (x.fixedText places).toList := by
  intro c hMem
  rcases (Binary.shownTo_fixedText places x).mem hMem with hDigit | hLetter
  · refine ⟨?_, ?_, ?_⟩ <;> rintro rfl <;> cases hDigit
  · simp only [List.mem_cons, List.not_mem_nil, or_false] at hLetter
    rcases hLetter with rfl | rfl | rfl | rfl | rfl | rfl <;> decide

/-- What is shown below a label is written with escapes. -/
theorem escape_of_shows {picture : Picture α ε} {node : Expr α} {description : String}
    (hShows : picture.Shows lineBreak node description) :
    ∃ data, picture.Shows "\n" node data ∧ description.toList = escape data.toList := by
  obtain ⟨value, x, hValue, hDouble, hText⟩ := hShows
  have hNumber (z : Binary .double) : escape (z.fixedText 4).toList = (z.fixedText 4).toList :=
    escape_eq_self (isPlain_fixedText z 4)
  cases hSlope : picture.gradient? node with
  | none =>
    rw [hSlope] at hText
    refine ⟨description, ⟨value, x, hValue, hDouble, by rw [hSlope]; exact hText⟩, ?_⟩
    rw [hText, String.toList_append, escape_append, hNumber]
    rfl
  | some slope =>
    rw [hSlope] at hText
    obtain ⟨y, hSlopeDouble, rfl⟩ := hText
    refine ⟨"data=" ++ x.fixedText 4 ++ "\n" ++ "grad=" ++ y.fixedText 4,
      ⟨value, x, hValue, hDouble, by rw [hSlope]; exact ⟨y, hSlopeDouble, rfl⟩⟩, ?_⟩
    simp only [String.toList_append, escape_append, hNumber]
    rfl

end Dot

/-! ## Drawings -/

/-- The node of a node statement. -/
theorem exists_shows_of_mem {picture : Picture α ε} {root : Expr α}
    {groups : List (List Dot.Statement)}
    (hGroups : List.Forall₂ (picture.Made Dot.lineBreak (groupOf picture.text))
      (numbered root).zipIdx groups) {number : Nat} {label description : String}
    {shape : Dot.Shape} (hMem : .node number label description shape ∈ groups.flatten) :
    ∃ node, root.postfixNodes[number]? = some node ∧ node.label picture.text = label ∧
      picture.Shows Dot.lineBreak node description := by
  obtain ⟨group, hGroup, hMem⟩ := List.mem_flatten.1 hMem
  obtain ⟨⟨entry, place⟩, hEntry, shown, hShows, rfl⟩ := exists_of_forall₂ hGroups.flip hGroup
  rcases List.mem_cons.1 hMem with hNode | hEdge
  · cases hNode
    have hPlace : (entry.node, place) ∈ root.postfixNodes.zipIdx := by
      rw [← map_zipIdx_numbered]
      exact List.mem_map_of_mem hEntry
    exact ⟨entry.node, List.mem_zipIdx_iff_getElem?.1 hPlace, rfl, hShows⟩
  · obtain ⟨operand, -, hEq⟩ := List.mem_map.1 hEdge
    cases hEq

/-- The node lines of the graph of a genuine tree, read by the rules for quoted strings. A line
comes back, with the label of its node, a line break and what is shown of the node, followed by the
shape, exactly if the label has no quote, no backslash and no line break. If no label has one, the
graph has the lines of its statements and no others. -/
theorem draw_dot_quotes (picture : Picture α ε) {root : Expr α} (hGenuine : root.Genuine)
    {drawing : String} (hDraw : draw picture "dot" root = .ok drawing) :
    ∃ statements : List Dot.Statement, drawing = "\n".intercalate
        (Dot.opening ++ statements.map Dot.Statement.text ++ [Dot.closing]) ∧
      Dot.Depicts picture.text root statements ∧
      (∀ number label description shape, .node number label description shape ∈ statements →
        ∃ node data, root.postfixNodes[number]? = some node ∧ node.label picture.text = label ∧
          picture.describe "\n" node = .ok data ∧
          (Dot.readNodeLine? (Dot.Statement.node number label description shape).text =
              some (number, label ++ "\n" ++ data, ", shape=" ++ shape.name ++ "];") ↔
            Dot.IsPlain label.toList)) ∧
      ((∀ node ∈ root.postfixNodes, Dot.IsPlain (node.label picture.text).toList) →
        Dot.textLines drawing =
          Dot.opening ++ statements.map Dot.Statement.text ++ [Dot.closing]) := by
  obtain ⟨groups, hDrawing, hGroups⟩ := groups_of_draw_dot hGenuine hDraw
  have hDepicts := Dot.depicts_groups hGroups
  refine ⟨groups.flatten, hDrawing, hDepicts, ?read, fun hPlain => ?lines⟩
  case read =>
    intro number label description shape hMem
    obtain ⟨node, hNode, hLabel, hShows⟩ := exists_shows_of_mem hGroups hMem
    obtain ⟨data, hData, hDescription⟩ := Dot.escape_of_shows hShows
    exact ⟨node, data, hNode, hLabel, Picture.describe_eq_ok_iff.2 hData,
      Dot.readNodeLine?_text_iff number label hDescription shape⟩
  case lines =>
    rw [hDrawing]
    exact (hDepicts.textLines_eq_iff (described_of_groups hGroups)).2
      fun node hMem hBreak => (hPlain node hMem _ hBreak).2.2 rfl

/-- The graph of `x * 2` at 1 with a gradient: the line of `x` comes back with both numbers. -/
theorem draw_dot_quotes_product :
    ∃ (picture : Picture Scalar ScalarError) (root : Expr Scalar) (drawing description : String)
      (statements : List Dot.Statement),
      picture = ⟨Decimal.arithmetic, Scalar.write, Scalar.toDouble, .ofList [("x", .int 2)]⟩ ∧
      root = .mul (.var "x" (.int 1)) (.lit (.int 2)) ∧ root.Genuine ∧
      draw picture "dot" root = .ok drawing ∧
      (∀ node ∈ root.postfixNodes, Dot.IsPlain (node.label picture.text).toList) ∧
      Dot.textLines drawing =
        Dot.opening ++ statements.map Dot.Statement.text ++ [Dot.closing] ∧
      .node 0 "x" description .box ∈ statements ∧
      Dot.readNodeLine? (Dot.Statement.node 0 "x" description .box).text =
        some (0, "x\ndata=1.0000\ngrad=2.0000", ", shape=box];") := by
  let picture : Picture Scalar ScalarError :=
    ⟨Decimal.arithmetic, Scalar.write, Scalar.toDouble, .ofList [("x", .int 2)]⟩
  let root : Expr Scalar := .mul (.var "x" (.int 1)) (.lit (.int 2))
  have hGenuine : root.Genuine := ⟨trivial, trivial⟩
  have hDraw : draw picture "dot" root = .ok ("\n".intercalate (Dot.opening ++
      ["  n0 [label=\"x\\ndata=1.0000\\ngrad=2.0000\", shape=box];",
        "  n1 [label=\"2\\ndata=2.0000\", shape=box];",
        "  n2 [label=\"*\\ndata=2.0000\", shape=circle];", "  n0 -> n2;", "  n1 -> n2;"] ++
        [Dot.closing])) := by
    rfl
  have hPlain : ∀ node ∈ root.postfixNodes, Dot.IsPlain (node.label picture.text).toList := by
    decide +kernel
  have hData : picture.describe "\n" (.var "x" (.int 1)) = .ok "data=1.0000\ngrad=2.0000" := by
    rfl
  obtain ⟨statements, -, hDepicts, hRead, hLines⟩ := draw_dot_quotes picture hGenuine hDraw
  obtain ⟨numbers, description, shape, hInfix, -, -, -, hCount, hShape⟩ :=
    hDepicts.group_at 0 ⟨_, .var "x" (.int 1)⟩ rfl
  obtain rfl : shape = .box := hShape.2 (List.length_eq_zero_iff.1 (hCount [] rfl))
  have hMem : Dot.Statement.node 0 "x" description .box ∈ statements :=
    hInfix.subset List.mem_cons_self
  obtain ⟨node, data, hNode, -, hShown, hBack⟩ := hRead _ _ _ _ hMem
  cases hNode
  cases hShown.symm.trans hData
  exact ⟨picture, root, _, description, statements, rfl, rfl, hGenuine, hDraw, hPlain,
    hLines hPlain, hMem, hBack.2 (by decide)⟩

/-- A quote in the id of a variable ends the label, and what is left of it stands where the shape
should. -/
theorem draw_dot_quote_in_id :
    ∃ (picture : Picture Scalar ScalarError) (root : Expr Scalar) (line : String),
      picture = ⟨Decimal.arithmetic, Scalar.write, Scalar.toDouble, .empty⟩ ∧
      root = .var "a\"b" (.int 1) ∧ root.Genuine ∧
      draw picture "dot" root = .ok ("\n".intercalate (Dot.opening ++ [line] ++ [Dot.closing])) ∧
      picture.describe "\n" root = .ok "data=1.0000" ∧
      Dot.readNodeLine? line = some (0, "a", "b\\ndata=1.0000\", shape=box];") ∧
      Dot.readNodeLine? line ≠
        some (0, root.label picture.text ++ "\n" ++ "data=1.0000", ", shape=box];") := by
  have hRead : Dot.readNodeLine? "  n0 [label=\"a\"b\\ndata=1.0000\", shape=box];" =
      some (0, "a", "b\\ndata=1.0000\", shape=box];") := by
    rfl
  refine ⟨_, .var "a\"b" (.int 1), _, rfl, rfl, trivial, by rfl, by rfl, hRead, ?_⟩
  rw [hRead]
  simp [Expr.label]

end Autodiff.Graph
