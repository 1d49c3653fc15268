import Autodiff.Expr.Printer
import Autodiff.Proofs.Syntax.Recognition
import Autodiff.Proofs.Syntax.Spacing

/-!
# Reading infix text back

Every operation of the infix text is bracketed, every operator but a leading minus stands
between spaces, and a leaf is followed by a space, a closing bracket or the end. So the
tokens of the pieces are the tokens of the whole, and the text of a tree is an operand of
the grammar wherever it stands. Only the numbers change: a negative one comes back as the
negation of a literal, an integer constant as a literal.

* `Expr.Readable` says which trees can be read back, `Expr.reread` what they come back as;
* `Rendered` is what a text must be to stand for a tree, with one lemma for each node;
* `Expr.Readable.rendered` is the induction, `Expr.parse_infixText` the round trip.
-/

namespace Autodiff

open Syntax Text

variable {α ε : Type}

namespace Syntax

/-- A text that is one number. -/
def IsNumeral (numeral : String) : Prop := tokenize numeral = .ok [.number numeral]

theorem isNumeral_of_mem_number {word : List Char} (hWord : word ∈ Lexeme.number) :
    IsNumeral (String.ofList word) := by
  have hSpells : (Token.number (String.ofList word)).Spells word :=
    ⟨hWord, (written_of_mem (.inl hWord)).symm⟩
  refine (lexes_iff _ _).1 ?_
  rw [String.toList_ofList]
  exact hSpells.lexes

theorem isNumeral_natText (n : Nat) : IsNumeral (natText n) :=
  isNumeral_of_mem_number (Lexeme.digits_mem_number n)

/-- The sign of an operator. -/
def opSymbol : Op → Symbol
  | .add => .plus
  | .sub => .minus
  | .mul => .times
  | .div => .divide
  | .pow => .power

end Syntax

namespace Expr

/-- What the text of a number comes back as. -/
def rereadNumber (convert : String → Except ε α) (negative : Bool) (numeral : String) :
    Except ε (Expr α) := do
  let value ← convert numeral
  return if negative then neg (lit value) else lit value

/-- The tree with its numbers replaced by what their text comes back as. -/
def reread (text : α → String) (convert : String → Except ε α) : Expr α → Except ε (Expr α)
  | var id data => .ok (var id data)
  | lit data =>
    match (text data).toList with
    | '-' :: numeral => rereadNumber convert true (String.ofList numeral)
    | _ => rereadNumber convert false (text data)
  | const n => rereadNumber convert (n < 0) (natText n.natAbs)
  | binary op left right => do
    let left' ← left.reread text convert
    let right' ← right.reread text convert
    return binary op left' right'
  | unary fn operand => do
    let operand' ← operand.reread text convert
    return unary fn operand'
  | foreign value => .ok (foreign value)

/-- The ids are names with the values of their variables, the literals are written as numbers
with at most a minus sign, and every number is converted. -/
def Readable (text : α → String) (scope : Scope α ε) : Expr α → Prop
  | var id data => IsName id ∧ scope.values.get? id = some data
  | lit data => ∃ numeral, IsNumeral numeral ∧
      (text data = numeral ∨ text data = "-" ++ numeral) ∧
      ∃ value, scope.convert numeral = .ok value
  | const n => ∃ value, scope.convert (natText n.natAbs) = .ok value
  | binary _ left right => left.Readable text scope ∧ right.Readable text scope
  | unary _ operand => operand.Readable text scope
  | foreign _ => False

end Expr

namespace Syntax

/-- The text stands for the tree wherever an operand can stand. -/
def Rendered (scope : Scope α ε) (written : String) (tree : Expr α) : Prop :=
  ∃ tokens, Lexes written.toList tokens ∧
    ∀ rest, Phrase scope .unary (tokens ++ rest) rest tree

section

variable {scope : Scope α ε}

theorem phrase_sum_of_unary {text rest : List Token} {tree : Expr α}
    (h : Phrase scope .unary text rest tree) : Phrase scope .sum text rest tree :=
  phrase_sum_iff_level.2 ⟨rest, tree, h, level_iff.2 (.inl ⟨rfl, rfl⟩)⟩

theorem phrase_sum_binary {text middle rest : List Token} {left right : Expr α} (op : Op)
    (hLeft : Phrase scope .unary text (.symbol (opSymbol op) :: middle) left)
    (hRight : Phrase scope .unary middle rest right) :
    Phrase scope .sum text rest (.binary op left right) := by
  refine phrase_sum_iff_level.2 ⟨_, left, hLeft, level_iff.2 (.inr ?_)⟩
  cases op with
  | pow => exact .inl ⟨middle, rest, right, rfl, hRight, level_iff.2 (.inl ⟨rfl, rfl⟩)⟩
  | mul =>
    exact .inr (.inl ⟨.times, middle, rest, right, rfl, hRight, level_iff.2 (.inl ⟨rfl, rfl⟩)⟩)
  | div =>
    exact .inr (.inl ⟨.divide, middle, rest, right, rfl, hRight, level_iff.2 (.inl ⟨rfl, rfl⟩)⟩)
  | add =>
    exact .inr (.inr ⟨.plus, middle, rest, right, rfl, hRight, level_iff.2 (.inl ⟨rfl, rfl⟩)⟩)
  | sub =>
    exact .inr (.inr ⟨.minus, middle, rest, right, rfl, hRight, level_iff.2 (.inl ⟨rfl, rfl⟩)⟩)

theorem Lexes.operator {chars : List Char} {tokens : List Token} (op : Op)
    (h : Lexes chars tokens) :
    Lexes (op.symbol.toList ++ ' ' :: chars) (.symbol (opSymbol op) :: tokens) := by
  have hBlank : Lexes (' ' :: chars) tokens := h.blank isBlank_space
  cases op with
  | mul => exact Lexes.star.append hBlank (boundary_space.stops chars)
  | add => exact hBlank.symbol .plus (by decide)
  | sub => exact hBlank.symbol .minus (by decide)
  | div => exact hBlank.symbol .divide (by decide)
  | pow => exact hBlank.symbol .power (by decide)

theorem Lexes.closed {chars : List Char} {tokens : List Token} (h : Lexes chars tokens) :
    Lexes (chars ++ [')']) (tokens ++ [.symbol .closing]) :=
  h.append (Lexes.nil.symbol .closing (by decide)) (boundary_closing.stops [])

namespace Rendered

theorem binary {leftText rightText : String} {left right : Expr α} (op : Op)
    (hLeft : Rendered scope leftText left) (hRight : Rendered scope rightText right) :
    Rendered scope ("(" ++ leftText ++ " " ++ op.symbol ++ " " ++ rightText ++ ")")
      (.binary op left right) := by
  obtain ⟨leftTokens, hLeftLexes, hLeft⟩ := hLeft
  obtain ⟨rightTokens, hRightLexes, hRight⟩ := hRight
  refine ⟨.symbol .opening :: (leftTokens ++ .symbol (opSymbol op) ::
    (rightTokens ++ [.symbol .closing])), ?_, ?_⟩
  · have hOperator := hRightLexes.closed.operator op
    have hInner := hLeftLexes.append (hOperator.blank isBlank_space) (boundary_space.stops _)
    have hWhole := hInner.symbol .opening (by decide)
    simpa [Symbol.text] using hWhole
  · intro rest
    have hBracket := phrase_unary_bracket_iff.2
      (phrase_sum_binary op (hLeft _) (hRight (.symbol .closing :: rest)))
    simpa using hBracket

theorem neg {operandText : String} {operand : Expr α} (hOperand : Rendered scope operandText operand) :
    Rendered scope ("(-" ++ operandText ++ ")") (.neg operand) := by
  obtain ⟨tokens, hLexes, hOperand⟩ := hOperand
  refine ⟨.symbol .opening :: .symbol .minus :: (tokens ++ [.symbol .closing]), ?_, ?_⟩
  · have hWhole := (hLexes.closed.symbol .minus (by decide)).symbol .opening (by decide)
    simpa [Symbol.text] using hWhole
  · intro rest
    refine phrase_unary_bracket_iff.2 (phrase_sum_of_unary (phrase_unary_minus_iff.2 ?_))
    exact ⟨operand, by simpa using hOperand (.symbol .closing :: rest), rfl⟩

theorem log {operandText : String} {operand : Expr α} (hOperand : Rendered scope operandText operand) :
    Rendered scope ("log(" ++ operandText ++ ")") (.log operand) := by
  obtain ⟨tokens, hLexes, hOperand⟩ := hOperand
  refine ⟨.name "log" :: .symbol .opening :: (tokens ++ [.symbol .closing]), ?_, ?_⟩
  · have hCall := hLexes.closed.symbol .opening (by decide)
    have hWhole := isName_log.lexes.append hCall (boundary_opening.stops _)
    simpa [Symbol.text] using hWhole
  · intro rest
    refine phrase_unary_name_iff.2 (.inr ⟨rfl, tokens ++ .symbol .closing :: rest, operand, ?_,
      phrase_sum_of_unary (hOperand _), rfl⟩)
    simp

theorem var {id : String} {data : α} (hName : IsName id)
    (hValue : scope.values.get? id = some data) : Rendered scope id (.var id data) :=
  ⟨[.name id], hName.lexes, fun _ => phrase_unary_name_iff.2 (.inl ⟨rfl, data, hValue, rfl⟩)⟩

theorem lit {numeral : String} {value : α} (hNumeral : IsNumeral numeral)
    (hValue : scope.convert numeral = .ok value) : Rendered scope numeral (.lit value) :=
  ⟨[.number numeral], (lexes_iff numeral _).2 hNumeral,
    fun _ => phrase_unary_number_iff.2 ⟨rfl, value, hValue, rfl⟩⟩

/-- A number with a minus sign needs no brackets: the sign binds tighter than any operator. -/
theorem negative {numeral : String} {value : α} (hNumeral : IsNumeral numeral)
    (hValue : scope.convert numeral = .ok value) :
    Rendered scope ("-" ++ numeral) (.neg (.lit value)) := by
  obtain ⟨tokens, hLexes, hPhrase⟩ := lit hNumeral hValue
  refine ⟨.symbol .minus :: tokens, ?_, ?_⟩
  · simpa [Symbol.text] using hLexes.symbol .minus (by decide)
  · intro rest
    exact phrase_unary_minus_iff.2 ⟨.lit value, hPhrase rest, rfl⟩

/-- A rendered text is parsed to its tree. -/
theorem parse_eq {written : String} {tree : Expr α} (h : Rendered scope written tree) :
    parse scope written = .ok tree := by
  obtain ⟨tokens, hLexes, hPhrase⟩ := h
  have hTokens : tokenize written = .ok tokens := (lexes_iff written tokens).1 hLexes
  have hSum : Phrase scope .sum tokens [] tree :=
    phrase_sum_of_unary (by simpa using hPhrase [])
  simp only [parse, hTokens]
  exact parseTokens_eq_ok_iff.2 (phrase_nil_iff.1 hSum)

end Rendered

end

end Syntax

namespace Expr

variable {text : α → String} {scope : Scope α ε}

theorem not_isNumeral_minus {chars : List Char} {numeral : String}
    (hText : numeral.toList = '-' :: chars) : ¬ IsNumeral numeral := by
  intro hNumeral
  have hFirst : Token.first? ('-' :: chars) = some (.symbol .minus, 1) :=
    first?_symbol (by decide) (by decide) (by decide) rfl
  rw [IsNumeral, tokenize, hText, tokenizeFrom_some (by decide) hFirst, bind_eq_ok_iff] at hNumeral
  obtain ⟨later, -, hTokens⟩ := hNumeral
  cases hTokens

theorem reread_lit {convert : String → Except ε α} {data value : α} {numeral : String}
    (hText : text data = numeral) (hNumeral : IsNumeral numeral)
    (hValue : convert numeral = .ok value) : (lit data).reread text convert = .ok (lit value) := by
  rw [reread, hText]
  split
  · next chars hMinus => exact absurd hNumeral (not_isNumeral_minus hMinus)
  · simp [rereadNumber, hValue, pure, Except.pure]

theorem reread_const {convert : String → Except ε α} {n : Int} {value : α} (hNonneg : ¬ n < 0)
    (hValue : convert (natText n.natAbs) = .ok value) :
    (const n).reread text convert = .ok (lit value) := by
  simp [reread, rereadNumber, hNonneg, hValue, pure, Except.pure]

/-- A readable tree has a text that stands for what the tree comes back as. -/
theorem Readable.rendered {expr : Expr α} (hReadable : expr.Readable text scope) :
    ∃ written again, expr.infixText text = .ok written ∧
      expr.reread text scope.convert = .ok again ∧ Rendered scope written again := by
  induction expr with
  | var id data => exact ⟨id, .var id data, rfl, rfl, .var hReadable.1 hReadable.2⟩
  | lit data =>
    obtain ⟨numeral, hNumeral, hText | hText, value, hValue⟩ := hReadable
    · exact ⟨numeral, .lit value, congrArg Except.ok hText, reread_lit hText hNumeral hValue,
        .lit hNumeral hValue⟩
    · refine ⟨"-" ++ numeral, .neg (.lit value), congrArg Except.ok hText, ?_,
        .negative hNumeral hValue⟩
      rw [reread, hText]
      simp [rereadNumber, hValue, pure, Except.pure]
  | const n =>
    obtain ⟨value, hValue⟩ := hReadable
    have hNumeral : IsNumeral (natText n.natAbs) := isNumeral_natText n.natAbs
    by_cases hNegative : n < 0
    · refine ⟨_, .neg (.lit value), rfl, ?_, ?_⟩
      · simp [reread, rereadNumber, hNegative, hValue, pure, Except.pure]
      · rw [intText, if_pos hNegative]
        exact .negative hNumeral hValue
    · refine ⟨_, .lit value, rfl, reread_const hNegative hValue, ?_⟩
      rw [intText, if_neg hNegative]
      exact .lit hNumeral hValue
  | foreign => exact hReadable.elim
  | binary op left right ihLeft ihRight =>
    obtain ⟨leftText, left', hLeftText, hLeft, hLeftRendered⟩ := ihLeft hReadable.1
    obtain ⟨rightText, right', hRightText, hRight, hRightRendered⟩ := ihRight hReadable.2
    refine ⟨_, .binary op left' right', ?_, ?_, hLeftRendered.binary op hRightRendered⟩
    · rw [infixText, hLeftText, hRightText]
      rfl
    · rw [reread, hLeft, hRight]
      rfl
  | unary fn operand ih =>
    obtain ⟨operandText, operand', hText, hOperand, hRendered⟩ := ih hReadable
    have hReread : (unary fn operand).reread text scope.convert = .ok (unary fn operand') := by
      rw [reread, hOperand]
      rfl
    cases fn with
    | neg => exact ⟨_, _, by rw [infixText, hText]; rfl, hReread, hRendered.neg⟩
    | log => exact ⟨_, _, by rw [infixText, hText]; rfl, hReread, hRendered.log⟩

/-- The infix text of a readable tree is parsed to what the tree comes back as, and trees with
one text come back as one tree. -/
theorem parse_infixText {expr : Expr α} (hReadable : expr.Readable text scope) :
    ∃ source again, expr.infixText text = .ok source ∧
      expr.reread text scope.convert = .ok again ∧ parse scope source = .ok again ∧
      ∀ other : Expr α, other.Readable text scope → other.infixText text = .ok source →
        other.reread text scope.convert = .ok again := by
  obtain ⟨source, again, hSource, hAgain, hRendered⟩ := hReadable.rendered
  refine ⟨source, again, hSource, hAgain, hRendered.parse_eq, ?_⟩
  intro other hOther hText
  obtain ⟨source', again', hSource', hAgain', hRendered'⟩ := hOther.rendered
  have hSame : source' = source := Except.ok.inj (hSource'.symm.trans hText)
  have hTree : again' = again := by
    rw [hSame] at hRendered'
    exact Except.ok.inj (hRendered'.parse_eq.symm.trans hRendered.parse_eq)
  rw [hAgain', hTree]

/-- A negative literal as a base, a negative constant in a call and a variable with the name of
the logarithm. -/
theorem parse_infixText_negative :
    Readable (fun data => data) (⟨.ofList [("log", "x")], .ok⟩ : Scope String String)
      (.add (.pow (.lit "-2") (.var "log" "x")) (.log (.const (-3)))) ∧
    parse (⟨.ofList [("log", "x")], .ok⟩ : Scope String String) "((-2 ^ log) + log(-3))" =
      .ok (.add (.pow (.neg (.lit "2")) (.var "log" "x")) (.log (.neg (.lit "3")))) := by
  have hReadable : Readable (fun data => data)
      (⟨.ofList [("log", "x")], .ok⟩ : Scope String String)
      (.add (.pow (.lit "-2") (.var "log" "x")) (.log (.const (-3)))) := by
    have hNumeral : IsNumeral "2" := by
      unfold IsNumeral
      cbv
    exact ⟨⟨⟨"2", hNumeral, .inr rfl, "2", rfl⟩, isName_log, rfl⟩, "3", rfl⟩
  refine ⟨hReadable, ?_⟩
  obtain ⟨source, again, hSource, hAgain, hParse, -⟩ := parse_infixText hReadable
  cases hSource
  cases hAgain
  exact hParse

end Expr

end Autodiff
