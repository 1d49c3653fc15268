import Autodiff.Proofs.Syntax.Recognition

/-!
# Refusal

An error of the parser has its reason in the text or in the scope: the token it names stands
in the text, the name has no value there, the number is refused with the cause it carries.
The reason of an error may lie before the token at which it is found, so what a state has
open or begun is kept as an invariant of the run.

* `ParseError.Arises` says what an error claims of the text, `Parser.ReadFrom` is the
  invariant;
* `Parser.step_sound` is the step, `parseTokens_arises` the run from the start;
* `parse_iff_derivation` joins this with the recognition of the grammar.
-/

namespace Autodiff.Syntax

variable {α ε : Type}

/-- The error has its reason in the text or in the scope. A character that begins no token
is none of them. -/
def ParseError.Arises (scope : Scope α ε) (tokens : List Token) : ParseError ε → Prop
  | .character _ => False
  | .unexpectedEnd => True
  | .unexpectedToken token => token ∈ tokens
  | .unknownVariable name => .name name ∈ tokens ∧ scope.values.get? name = none
  | .unclosed _ => .symbol .opening ∈ tokens
  | .conversion cause => ∃ numeral, .number numeral ∈ tokens ∧ scope.convert numeral = .error cause

/-- What is open or begun in a state was read from the text. -/
structure Parser.ReadFrom (tokens : List Token) (parser : Parser α) : Prop where
  opened : parser.outer ≠ [] → .symbol .opening ∈ tokens
  called : ∀ negations, parser.expects = .logarithm negations → .name "log" ∈ tokens

section

variable {scope : Scope α ε} {tokens : List Token}

theorem Scope.leaf_arises {word : String} {cause : ParseError ε} (hWord : .name word ∈ tokens)
    (hLeaf : scope.leaf word = .error cause) : cause.Arises scope tokens := by
  unfold Scope.leaf at hLeaf
  cases hValue : scope.values.get? word with
  | some value => simp [hValue] at hLeaf
  | none =>
    simp only [hValue, Except.error.injEq] at hLeaf
    subst hLeaf
    exact ⟨hWord, hValue⟩

namespace Parser

theorem refuse_arises {parser : Parser α} (hParser : parser.ReadFrom tokens) {token : Token}
    (hToken : token ∈ tokens) : (parser.refuse token : ParseError ε).Arises scope tokens := by
  unfold refuse
  cases hOuter : parser.outer with
  | nil => exact hToken
  | cons frame outer => exact hParser.opened (by simp [hOuter])

/-- A step keeps to the text, and an error of a step arises from it. -/
def Sound (scope : Scope α ε) (tokens : List Token) (outcome : Except (ParseError ε) (Parser α)) :
    Prop :=
  match outcome with
  | .ok next => next.ReadFrom tokens
  | .error cause => cause.Arises scope tokens

theorem stepOperator_sound {parser : Parser α} (hParser : parser.ReadFrom tokens)
    {token : Token} (hToken : token ∈ tokens) (operand : Expr α) :
    Sound scope tokens (parser.stepOperator operand token) := by
  have hNext : ∀ pending, ReadFrom tokens ⟨parser.outer, pending, .operand 0⟩ :=
    fun pending => ⟨hParser.opened, by simp⟩
  cases token with
  | number | name => exact refuse_arises hParser hToken
  | symbol sign =>
    cases sign with
    | opening => exact refuse_arises hParser hToken
    | closing =>
      show Sound scope tokens (parser.leave operand)
      unfold leave
      cases hOuter : parser.outer with
      | nil => exact hToken
      | cons frame outer => exact ⟨fun _ => hParser.opened (by simp [hOuter]), by simp⟩
    | _ => exact hNext _

theorem stepOperand_sound {parser : Parser α} (hParser : parser.ReadFrom tokens)
    {token : Token} (hToken : token ∈ tokens) (negations : Nat) :
    Sound scope tokens (parser.stepOperand scope negations token) := by
  have hOperator : ∀ operand, ReadFrom tokens { parser with expects := .operator operand } :=
    fun operand => ⟨hParser.opened, by simp⟩
  cases token with
  | number numeral =>
    simp only [stepOperand]
    cases hValue : scope.convert numeral with
    | ok value => exact hOperator _
    | error cause => exact ⟨numeral, hToken, hValue⟩
  | name word =>
    unfold stepOperand
    by_cases hWord : word = "log"
    · subst hWord
      exact ⟨hParser.opened, fun _ _ => hToken⟩
    · simp only [hWord, if_false]
      cases hLeaf : scope.leaf word with
      | ok operand => exact hOperator _
      | error cause => exact Scope.leaf_arises hToken hLeaf
  | symbol sign =>
    cases sign with
    | minus => exact ⟨hParser.opened, by simp⟩
    | opening => exact ⟨fun _ => hToken, by simp [enter]⟩
    | _ => exact hToken

theorem step_sound {parser : Parser α} (hParser : parser.ReadFrom tokens) {token : Token}
    (hToken : token ∈ tokens) : Sound scope tokens (parser.step scope token) := by
  unfold step
  cases hExpects : parser.expects with
  | operand negations => exact stepOperand_sound hParser hToken negations
  | operator operand => exact stepOperator_sound hParser hToken operand
  | logarithm negations =>
    by_cases hOpening : token = .symbol .opening
    · subst hOpening
      exact ⟨fun _ => hToken, by simp [enter]⟩
    · simp only [hOpening, if_false]
      cases hLeaf : scope.leaf "log" with
      | ok operand => exact stepOperator_sound hParser hToken _
      | error cause => exact Scope.leaf_arises (hParser.called negations hExpects) hLeaf

/-- An error at the end of the text arises from the text. -/
theorem finish_arises {parser : Parser α} (hParser : parser.ReadFrom tokens)
    {cause : ParseError ε} (hFinish : parser.finish scope = .error cause) :
    cause.Arises scope tokens := by
  have hClose : ∀ operand, parser.close operand = .error cause → cause.Arises scope tokens := by
    intro operand hError
    unfold close at hError
    cases hOuter : parser.outer with
    | nil => simp [hOuter] at hError
    | cons frame outer =>
      simp only [hOuter, Except.error.injEq] at hError
      subst hError
      exact hParser.opened (by simp [hOuter])
  unfold finish at hFinish
  cases hExpects : parser.expects with
  | operand negations =>
    simp only [hExpects, Except.error.injEq] at hFinish
    subst hFinish
    trivial
  | operator operand => exact hClose operand (by simpa only [hExpects] using hFinish)
  | logarithm negations =>
    simp only [hExpects] at hFinish
    cases hLeaf : scope.leaf "log" with
    | ok operand => exact hClose _ (by simpa only [hLeaf, ok_bind] using hFinish)
    | error cause' =>
      simp only [hLeaf, error_bind, Except.error.injEq] at hFinish
      exact hFinish ▸ Scope.leaf_arises (hParser.called negations hExpects) hLeaf

/-- A run over a part of the text keeps to the text, so its error arises from the text. -/
theorem run_finish_arises {parser : Parser α} (hParser : parser.ReadFrom tokens)
    {text : List Token} (hText : text ⊆ tokens) {cause : ParseError ε}
    (hRun : (do let last ← parser.run scope text; last.finish scope) = .error cause) :
    cause.Arises scope tokens := by
  induction text generalizing parser with
  | nil => exact finish_arises hParser hRun
  | cons token text ih =>
    have hStep : Sound scope tokens (parser.step scope token) :=
      step_sound hParser (hText List.mem_cons_self)
    simp only [run, List.foldlM_cons, bind_assoc] at hRun
    cases hNext : parser.step scope token with
    | ok next =>
      rw [hNext] at hStep hRun
      exact ih hStep (List.subset_of_cons_subset hText) hRun
    | error cause' =>
      rw [hNext] at hStep hRun
      cases hRun
      exact hStep

end Parser

/-- An error of the parser arises from the text. -/
theorem parseTokens_arises {cause : ParseError ε}
    (hError : parseTokens scope tokens = .error cause) : cause.Arises scope tokens :=
  Parser.run_finish_arises ⟨fun hOuter => absurd rfl hOuter, by simp [Parser.start]⟩
    (List.Subset.refl tokens) hError

end

/-! ## Parsing a text -/

/-- A text in tokens is parsed to a tree exactly if the tokens have a derivation whose names
have values and whose numbers are converted, the tree being that of the derivation. There is
at most one derivation, and without one the error arises from the text. -/
theorem parse_iff_derivation (scope : Scope α ε) {source : String} {tokens : List Token}
    (hTokens : tokenize source = .ok tokens) :
    (∀ tree, parse scope source = .ok tree ↔
      ∃ d : Derivation .sum, d.tokens = tokens ∧ d.Grounded scope ∧ d.tree? scope = some tree) ∧
    (∀ d d' : Derivation .sum, d.tokens = tokens → d'.tokens = tokens → d = d') ∧
    ((¬ ∃ d : Derivation .sum, d.tokens = tokens ∧ d.Grounded scope) →
      ∃ cause, parse scope source = .error cause ∧ cause.Arises scope tokens) := by
  have hParse : parse scope source = parseTokens scope tokens := by simp only [parse, hTokens]
  refine ⟨?_, ?_, ?_⟩
  · intro tree
    rw [hParse, parseTokens_eq_ok_iff]
    constructor
    · rintro ⟨d, hText, hTree⟩
      exact ⟨d, hText, (d.exists_tree?_iff scope).1 ⟨tree, hTree⟩, hTree⟩
    · rintro ⟨d, hText, -, hTree⟩
      exact ⟨d, hText, hTree⟩
  · intro d d' hText hText'
    exact Derivation.eq_of_tokens_eq (hText.trans hText'.symm)
  · intro hNone
    rw [hParse]
    cases hOutcome : parseTokens scope tokens with
    | error cause => exact ⟨cause, rfl, parseTokens_arises hOutcome⟩
    | ok tree =>
      obtain ⟨d, hText, hTree⟩ := parseTokens_eq_ok_iff.1 hOutcome
      exact absurd ⟨d, hText, (d.exists_tree?_iff scope).1 ⟨tree, hTree⟩⟩ hNone

/-- The name of the logarithm as a variable and as a call in one text. -/
theorem parse_iff_derivation_logarithm :
    tokenize "-log^2*log(log)" = .ok [.symbol .minus, .name "log", .symbol .power, .number "2",
      .symbol .times, .name "log", .symbol .opening, .name "log", .symbol .closing] ∧
    parse ⟨.ofList [("log", (5 : Int))], fun numeral =>
        if numeral = "2" then .ok 2 else .error numeral⟩ "-log^2*log(log)" =
      .ok (.mul (.pow (.neg (.var "log" 5)) (.lit 2)) (.log (.var "log" 5))) := by
  have hTokens : tokenize "-log^2*log(log)" = .ok [.symbol .minus, .name "log", .symbol .power,
      .number "2", .symbol .times, .name "log", .symbol .opening, .name "log",
      .symbol .closing] := by cbv
  refine ⟨hTokens, ((parse_iff_derivation _ hTokens).1 _).2 ⟨.sum (.product (.power
    (.minus (.primary (.name "log"))) (.raise (.power (.primary (.number "2")) .powerEnd)))
    (.productMore .times (.power (.primary (.logarithm (.sum (.product (.power
      (.primary (.name "log")) .powerEnd) .productEnd) .sumEnd))) .powerEnd) .productEnd))
    .sumEnd, rfl, ?_, rfl⟩⟩
  exact (Derivation.exists_tree?_iff _ _).1 ⟨_, rfl⟩

end Autodiff.Syntax
