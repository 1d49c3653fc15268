import Autodiff.Proofs.Syntax.RoundTrip
import Autodiff.Proofs.Syntax.Spacing

/-!
# The first token that cannot be right

From every state of the parser some text leads to a tree: an operand is supplied if one is
expected, and then the open brackets are closed one after the other. So the tokens of a text
are the beginning of an expression exactly if the parser takes them, and a token that it refuses
has no place there, whatever follows.

* `Viable` are the beginnings of expressions, `Parser.Viable` the states that a text completes;
* `Parser.viable` says that every state is one of them;
* `viable_iff_run` relates the two notions of viability;
* `Parser.exists_refused` finds the token that ends a run;
* `viable_or_refused` joins these facts.
-/

namespace Autodiff.Syntax

open Text

variable {α ε : Type}

/-- The tokens are the beginning of an expression. -/
def Viable (scope : Scope α ε) (tokens : List Token) : Prop :=
  ∃ source more tree, tokenize source = .ok (tokens ++ more) ∧ parse scope source = .ok tree

/-- Some tokens that a text can have meet the demand of the state. -/
def Parser.Viable (scope : Scope α ε) (parser : Parser α) : Prop :=
  ∃ more tree, (∀ token ∈ more, token.Lexical) ∧ parser.Accepts scope more tree

theorem IsNumeral.lexical {numeral : String} (h : IsNumeral numeral) :
    (Token.number numeral).Lexical :=
  lexical_of_tokenize h _ List.mem_cons_self

section

variable {scope : Scope α ε}

/-! ## Completing a state -/

namespace Parser

theorem Viable.of_step {parser next : Parser α} {token : Token} (hToken : token.Lexical)
    (hStep : parser.step scope token = .ok next) (hNext : next.Viable scope) :
    parser.Viable scope := by
  obtain ⟨more, tree, hMore, hAccepts⟩ := hNext
  exact ⟨token :: more, tree, List.forall_mem_cons.2 ⟨hToken, hMore⟩,
    accepts_cons_iff.2 ⟨next, hStep, hAccepts⟩⟩

/-- After an operand the text can end as soon as every bracket is closed. -/
theorem viable_operator (outer : List (Frame α)) (pending : Pending α) (operand : Expr α) :
    (Parser.mk outer pending (.operator operand)).Viable scope := by
  induction outer generalizing pending operand with
  | nil => exact ⟨[], _, by simp, accepts_nil_iff.2 rfl⟩
  | cons frame outer ih =>
    let parser : Parser α := ⟨frame :: outer, pending, .operator operand⟩
    have hLeave : (parser.leave operand : Except (ParseError ε) (Parser α)) = .ok _ :=
      leave_eq_ok_iff.2 ⟨frame, outer, rfl, rfl⟩
    exact .of_step (Token.lexical_symbol .closing) hLeave (ih _ _)

/-- Some text completes a state, whatever is open, if there is a number that is converted. -/
theorem viable (hNumber : ∃ numeral value, IsNumeral numeral ∧ scope.convert numeral = .ok value)
    (parser : Parser α) : parser.Viable scope := by
  obtain ⟨numeral, value, hNumeral, hValue⟩ := hNumber
  have hOperand (outer : List (Frame α)) (pending : Pending α) (negations : Nat) :
      (Parser.mk outer pending (.operand negations)).Viable scope := by
    refine .of_step hNumeral.lexical ?_
      (viable_operator outer pending (negated negations (.lit value)))
    simp only [step, stepOperand, hValue]
  obtain ⟨outer, pending, negations | negations | operand⟩ := parser
  · exact hOperand outer pending negations
  · -- the name of the logarithm need not be a variable, but it can always be called
    have hInside : (enter ⟨outer, pending, .logarithm negations⟩ .logarithm negations).Viable scope :=
      hOperand _ _ 0
    exact .of_step (Token.lexical_symbol .opening) rfl hInside
  · exact viable_operator outer pending operand

end Parser

/-- The tokens of a text are the beginning of an expression exactly if the parser takes them. -/
theorem viable_iff_run
    (hNumber : ∃ numeral value, IsNumeral numeral ∧ scope.convert numeral = .ok value)
    {tokens : List Token} (hTokens : ∀ token ∈ tokens, token.Lexical) :
    Viable scope tokens ↔ ∃ parser, Parser.start.run scope tokens = .ok parser := by
  constructor
  · rintro ⟨source, more, tree, hSource, hTree⟩
    rw [parse, hSource] at hTree
    obtain ⟨last, hRun, -⟩ := bind_eq_ok_iff.1 hTree
    rw [Parser.run_append] at hRun
    obtain ⟨parser, hParser, -⟩ := bind_eq_ok_iff.1 hRun
    exact ⟨parser, hParser⟩
  · rintro ⟨parser, hParser⟩
    obtain ⟨more, tree, hMore, hAccepts⟩ := parser.viable hNumber
    have hSource : tokenize (joined (tokens ++ more)) = .ok (tokens ++ more) :=
      (lexes_iff _ _).1 (lexes_joined (List.forall_mem_append.2 ⟨hTokens, hMore⟩))
    refine ⟨joined (tokens ++ more), more, tree, hSource, ?_⟩
    rw [parse, hSource]
    simp only [parseTokens, Parser.run_append, hParser, ok_bind]
    exact Parser.run_finish_eq_ok_iff.2 hAccepts

/-! ## The end of a run -/

namespace Parser

/-- A run that fails takes some tokens and refuses the next one. -/
theorem exists_refused {parser : Parser α} {tokens : List Token} {cause : ParseError ε}
    (hRun : parser.run scope tokens = .error cause) :
    ∃ taken token back middle, tokens = taken ++ token :: back ∧
      parser.run scope taken = .ok middle ∧ middle.step scope token = .error cause := by
  induction tokens generalizing parser with
  | nil => cases hRun
  | cons token tokens ih =>
    rw [run, List.foldlM_cons, bind_eq_error_iff] at hRun
    rcases hRun with hStep | ⟨next, hStep, hRun⟩
    · exact ⟨[], token, tokens, parser, rfl, rfl, hStep⟩
    · obtain ⟨taken, refused, back, middle, rfl, hTaken, hRefused⟩ := ih hRun
      refine ⟨token :: taken, refused, back, middle, rfl, ?_, hRefused⟩
      rw [run, List.foldlM_cons, hStep]
      exact hTaken

theorem run_of_refused {parser middle : Parser α} {taken : List Token} {token : Token}
    {cause : ParseError ε} (hTaken : parser.run scope taken = .ok middle)
    (hRefused : middle.step scope token = .error cause) (more : List Token) :
    parser.run scope (taken ++ [token] ++ more) = .error cause := by
  rw [run_append, run_append, hTaken, ok_bind, run, List.foldlM_cons, hRefused]
  rfl

/-- What leads to a state leads to one at each of its fronts. -/
theorem run_of_isPrefix {parser last : Parser α} {front tokens : List Token}
    (hFront : front <+: tokens) (hRun : parser.run scope tokens = .ok last) :
    ∃ middle, parser.run scope front = .ok middle := by
  obtain ⟨back, rfl⟩ := hFront
  rw [run_append] at hRun
  obtain ⟨middle, hMiddle, -⟩ := bind_eq_ok_iff.1 hRun
  exact ⟨middle, hMiddle⟩

end Parser

/-- The parser fails at the end of a text that could go on, or at the first token that cannot be
right: the tokens up to it are the shortest ones that begin no expression, and the error is that
of every text that begins with them. -/
theorem viable_or_refused
    (hNumber : ∃ numeral value, IsNumeral numeral ∧ scope.convert numeral = .ok value)
    {source : String} {tokens : List Token} (hTokens : tokenize source = .ok tokens)
    {cause : ParseError ε} (hError : parseTokens scope tokens = .error cause) :
    Viable scope tokens ∨
    ∃ front, front <+: tokens ∧ ¬ Viable scope front ∧
      (∀ shorter, shorter <+: tokens → ¬ Viable scope shorter → front.length ≤ shorter.length) ∧
      ∀ longer, front <+: longer → parseTokens scope longer = .error cause := by
  have hFronts {front : List Token} (hFront : front <+: tokens) :
      Viable scope front ↔ ∃ parser, Parser.start.run scope front = .ok parser :=
    viable_iff_run hNumber fun token hToken =>
      lexical_of_tokenize hTokens token (hFront.subset hToken)
  cases hRun : Parser.start.run scope tokens with
  | ok parser => exact .inl ((hFronts List.prefix_rfl).2 ⟨parser, hRun⟩)
  | error found =>
    rw [parseTokens, hRun, error_bind] at hError
    obtain rfl := Except.error.inj hError
    obtain ⟨taken, token, back, middle, hSplit, hTaken, hRefused⟩ := Parser.exists_refused hRun
    have hLonger := Parser.run_of_refused hTaken hRefused
    have hFront : taken ++ [token] <+: tokens := ⟨back, by rw [hSplit]; simp⟩
    refine .inr ⟨taken ++ [token], hFront, ?_, fun shorter hShorter hNot => ?_, ?_⟩
    · rw [hFronts hFront]
      rintro ⟨parser, hParser⟩
      have hFails := hLonger []
      rw [List.append_nil, hParser] at hFails
      cases hFails
    · -- a shorter one is a front of the tokens that are taken
      refine Nat.le_of_not_lt fun hLt => hNot ((hFronts hShorter).2 ?_)
      have hShort : shorter <+: taken :=
        List.prefix_of_prefix_length_le hShorter ⟨token :: back, hSplit.symm⟩
          (by rw [List.length_append, List.length_singleton] at hLt; omega)
      exact Parser.run_of_isPrefix hShort hTaken
    · rintro longer ⟨more, rfl⟩
      rw [parseTokens, hLonger, error_bind]

end

/-- The name of the logarithm is found to be no variable one token later. -/
theorem viable_or_refused_logarithm :
    let scope : Scope String String := ⟨.ofList [("x", "3")], .ok⟩
    let tokens := [.name "x", .symbol .times, .name "log", .symbol .plus, .number "2",
      .symbol .closing]
    tokenize "x * log + 2)" = .ok tokens ∧
    ∃ front, front <+: tokens ∧ ¬ Viable scope front ∧
      ∀ longer, front <+: longer → parseTokens scope longer = .error (.unknownVariable "log") := by
  intro scope tokens
  have hTokens : tokenize "x * log + 2)" = .ok tokens := by cbv
  have hNumber : ∃ numeral value, IsNumeral numeral ∧ scope.convert numeral = .ok value :=
    ⟨natText 1, natText 1, isNumeral_natText 1, rfl⟩
  have hRun : Parser.start.run scope tokens = .error (.unknownVariable "log") := by rfl
  have hError : parseTokens scope tokens = .error (.unknownVariable "log") := by
    rw [parseTokens, hRun, error_bind]
  refine ⟨hTokens, ?_⟩
  rcases viable_or_refused hNumber hTokens hError with hViable | ⟨front, hFront, hNot, -, hLonger⟩
  · rw [viable_iff_run hNumber (lexical_of_tokenize hTokens), hRun] at hViable
    simp at hViable
  · exact ⟨front, hFront, hNot, hLonger⟩

end Autodiff.Syntax
