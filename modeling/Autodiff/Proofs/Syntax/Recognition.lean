import Autodiff.Proofs.Outcome
import Autodiff.Proofs.Syntax.Phrase

/-!
# Recognition

The parser accepts exactly the texts of the grammar. What a state of the parser still
demands of the text is written down in terms of phrases: the operand read last is completed
by the tails of a power, a product and a sum (`Level`), the sum by the closing bracket of
the innermost frame, and so on outwards (`Closes`). A step of the parser takes one token
off this demand and off the text.

* `level_iff` and `completes_iff` open a demand at the next token;
* `Parser.accepts_nil_iff` and `Parser.accepts_cons_iff` say that the demand agrees with
  the end of the text and with a step;
* `Parser.run_finish_eq_ok_iff` follows for a whole run, and `parseTokens_eq_ok_iff` for
  the parser.
-/

namespace Autodiff.Syntax

variable {α ε : Type}

/-- The tree of a bracket in terms of the tree inside. -/
def Opener.enclose : Opener → Expr α → Expr α
  | .bracket, inner => inner
  | .logarithm, inner => .log inner

/-- The text up to the rest completes the last operand of a level, with what waits on the
level, to a tree. -/
def Level (scope : Scope α ε) (pending : Pending α) (operand : Expr α) (text rest : List Token)
    (tree : Expr α) : Prop :=
  ∃ factors terms raise multiply extend, Phrase scope .powerTail text factors raise ∧
    Phrase scope .productTail factors terms multiply ∧ Phrase scope .sumTail terms rest extend ∧
    tree = extend (Pending.join pending.sum
      (multiply (Pending.join pending.product (pending.power (raise operand)))))

/-- The text closes the open brackets, the innermost of which has the given tree inside,
and nothing is left. -/
def Closes (scope : Scope α ε) : List (Frame α) → Expr α → List Token → Expr α → Prop
  | [], inner, text, tree => text = [] ∧ tree = inner
  | frame :: outer, inner, text, tree =>
    ∃ later rest value, text = .symbol .closing :: later ∧
      Level scope frame.pending (negated frame.negations (frame.opener.enclose inner)) later rest
        value ∧
      Closes scope outer value rest tree

/-- The text completes the last operand and closes the open brackets. -/
def Completes (scope : Scope α ε) (outer : List (Frame α)) (pending : Pending α)
    (operand : Expr α) (text : List Token) (tree : Expr α) : Prop :=
  ∃ rest value, Level scope pending operand text rest value ∧ Closes scope outer value rest tree

/-- The text goes on with an operand behind minus signs and then completes it. -/
def Demands (scope : Scope α ε) (outer : List (Frame α)) (pending : Pending α)
    (negations : Nat) (text : List Token) (tree : Expr α) : Prop :=
  ∃ middle operand, Phrase scope .unary text middle operand ∧
    Completes scope outer pending (negated negations operand) middle tree

/-- What a state demands of the text that is left. -/
def Parser.Accepts (scope : Scope α ε) (parser : Parser α) (text : List Token)
    (tree : Expr α) : Prop :=
  match parser.expects with
  | .operand negations => Demands scope parser.outer parser.pending negations text tree
  | .logarithm negations =>
    Demands scope parser.outer parser.pending negations (.name "log" :: text) tree
  | .operator operand => Completes scope parser.outer parser.pending operand text tree

section

variable {scope : Scope α ε} {outer : List (Frame α)} {pending : Pending α} {text : List Token}
  {tree : Expr α}

/-! ## Opening a demand -/

/-- The last operand of a level is completed at once, or it is the base of a power, or it
ends the left operand of a product or of a sum. -/
theorem level_iff {operand : Expr α} {rest : List Token} :
    Level scope pending operand text rest tree ↔
      (text = rest ∧ tree = pending.sumOf operand) ∨
      (∃ later middle next, text = .symbol .power :: later ∧
        Phrase scope .unary later middle next ∧
        Level scope (pending.raise operand) next middle rest tree) ∨
      (∃ (sign : ProductSign) (later middle : List Token) (next : Expr α),
        text = .symbol sign.symbol :: later ∧ Phrase scope .unary later middle next ∧
        Level scope (pending.multiply sign.op operand) next middle rest tree) ∨
      ∃ (sign : SumSign) (later middle : List Token) (next : Expr α),
        text = .symbol sign.symbol :: later ∧ Phrase scope .unary later middle next ∧
        Level scope (pending.extend sign.op operand) next middle rest tree := by
  constructor
  · rintro ⟨factors, terms, raise, multiply, extend, hPower, hProduct, hSum, rfl⟩
    rw [phrase_powerTail_iff] at hPower
    rcases hPower with ⟨rfl, rfl⟩ | ⟨later, exponent, rfl, hExponent, rfl⟩
    · rw [phrase_productTail_iff] at hProduct
      rcases hProduct with ⟨rfl, rfl⟩ | ⟨sign, later, middle, right, multiply', rfl, hRight,
        hProduct, rfl⟩
      · rw [phrase_sumTail_iff] at hSum
        rcases hSum with ⟨rfl, rfl⟩ | ⟨sign, later, middle, right, extend', rfl, hRight,
          hSum, rfl⟩
        · exact .inl ⟨rfl, rfl⟩
        · obtain ⟨terms, factor, multiply, hFactor, hProduct, rfl⟩ := phrase_product_iff.1 hRight
          obtain ⟨factors, next, raise, hNext, hPower, rfl⟩ := phrase_power_iff.1 hFactor
          exact .inr (.inr (.inr ⟨sign, later, factors, next, rfl, hNext,
            terms, middle, raise, multiply, extend', hPower, hProduct, hSum, rfl⟩))
      · obtain ⟨factors, next, raise, hNext, hPower, rfl⟩ := phrase_power_iff.1 hRight
        exact .inr (.inr (.inl ⟨sign, later, factors, next, rfl, hNext,
          middle, terms, raise, multiply', extend, hPower, hProduct, hSum, rfl⟩))
    · obtain ⟨middle, next, raise, hNext, hPower, rfl⟩ := phrase_power_iff.1 hExponent
      exact .inr (.inl ⟨later, middle, next, rfl, hNext,
        factors, terms, raise, multiply, extend, hPower, hProduct, hSum, rfl⟩)
  · rintro (⟨rfl, rfl⟩ | ⟨later, middle, next, rfl, hNext, hLevel⟩ |
      ⟨sign, later, middle, next, rfl, hNext, hLevel⟩ |
      ⟨sign, later, middle, next, rfl, hNext, hLevel⟩)
    · exact ⟨text, text, _, _, _, phrase_powerTail_iff.2 (.inl ⟨rfl, rfl⟩),
        phrase_productTail_iff.2 (.inl ⟨rfl, rfl⟩), phrase_sumTail_iff.2 (.inl ⟨rfl, rfl⟩), rfl⟩
    all_goals
      obtain ⟨factors, terms, raise, multiply, extend, hPower, hProduct, hSum, rfl⟩ := hLevel
      have hFactor : Phrase scope .power later factors (raise next) :=
        phrase_power_iff.2 ⟨middle, next, raise, hNext, hPower, rfl⟩
    · exact ⟨factors, terms, _, multiply, extend,
        phrase_powerTail_iff.2 (.inr ⟨later, _, rfl, hFactor, rfl⟩), hProduct, hSum, rfl⟩
    · exact ⟨_, terms, _, _, extend, phrase_powerTail_iff.2 (.inl ⟨rfl, rfl⟩),
        phrase_productTail_iff.2 (.inr ⟨sign, later, factors, _, multiply, rfl, hFactor,
          hProduct, rfl⟩), hSum, rfl⟩
    · exact ⟨_, _, _, _, _, phrase_powerTail_iff.2 (.inl ⟨rfl, rfl⟩),
        phrase_productTail_iff.2 (.inl ⟨rfl, rfl⟩),
        phrase_sumTail_iff.2 (.inr ⟨sign, later, terms, _, extend, rfl,
          phrase_product_iff.2 ⟨factors, _, multiply, hFactor, hProduct, rfl⟩, hSum, rfl⟩), rfl⟩

theorem completes_iff {operand : Expr α} :
    Completes scope outer pending operand text tree ↔
      Closes scope outer (pending.sumOf operand) text tree ∨
      (∃ later, text = .symbol .power :: later ∧
        Demands scope outer (pending.raise operand) 0 later tree) ∨
      (∃ (sign : ProductSign) (later : List Token), text = .symbol sign.symbol :: later ∧
        Demands scope outer (pending.multiply sign.op operand) 0 later tree) ∨
      ∃ (sign : SumSign) (later : List Token), text = .symbol sign.symbol :: later ∧
        Demands scope outer (pending.extend sign.op operand) 0 later tree := by
  constructor
  · rintro ⟨rest, value, hLevel, hCloses⟩
    rcases level_iff.1 hLevel with ⟨rfl, rfl⟩ | ⟨later, middle, next, rfl, hNext, hLevel⟩ |
      ⟨sign, later, middle, next, rfl, hNext, hLevel⟩ |
      ⟨sign, later, middle, next, rfl, hNext, hLevel⟩
    · exact .inl hCloses
    · exact .inr (.inl ⟨later, rfl, middle, next, hNext, rest, value, hLevel, hCloses⟩)
    · exact .inr (.inr (.inl ⟨sign, later, rfl, middle, next, hNext, rest, value, hLevel, hCloses⟩))
    · exact .inr (.inr (.inr ⟨sign, later, rfl, middle, next, hNext, rest, value, hLevel, hCloses⟩))
  · rintro (hCloses | ⟨later, rfl, middle, next, hNext, rest, value, hLevel, hCloses⟩ |
      ⟨sign, later, rfl, middle, next, hNext, rest, value, hLevel, hCloses⟩ |
      ⟨sign, later, rfl, middle, next, hNext, rest, value, hLevel, hCloses⟩)
    · exact ⟨text, _, level_iff.2 (.inl ⟨rfl, rfl⟩), hCloses⟩
    · exact ⟨rest, value, level_iff.2 (.inr (.inl ⟨later, middle, next, rfl, hNext, hLevel⟩)),
        hCloses⟩
    · exact ⟨rest, value,
        level_iff.2 (.inr (.inr (.inl ⟨sign, later, middle, next, rfl, hNext, hLevel⟩))), hCloses⟩
    · exact ⟨rest, value,
        level_iff.2 (.inr (.inr (.inr ⟨sign, later, middle, next, rfl, hNext, hLevel⟩))), hCloses⟩

theorem closes_closing_iff {inner : Expr α} {later : List Token} :
    Closes scope outer inner (.symbol .closing :: later) tree ↔
      ∃ frame outer', outer = frame :: outer' ∧ Completes scope outer' frame.pending
        (negated frame.negations (frame.opener.enclose inner)) later tree := by
  cases outer with
  | nil => simp [Closes]
  | cons frame outer' =>
    constructor
    · rintro ⟨later', rest, value, hText, hLevel, hCloses⟩
      cases hText
      exact ⟨frame, outer', rfl, rest, value, hLevel, hCloses⟩
    · rintro ⟨_, _, hOuter, rest, value, hLevel, hCloses⟩
      cases hOuter
      exact ⟨later, rest, value, rfl, hLevel, hCloses⟩

theorem not_closes_cons {inner : Expr α} {token : Token} (hToken : token ≠ .symbol .closing) :
    ¬ Closes scope outer inner (token :: text) tree := by
  cases outer with
  | nil =>
    rintro ⟨hText, -⟩
    cases hText
  | cons frame outer =>
    rintro ⟨later, rest, value, hText, -⟩
    cases hText
    exact hToken rfl

theorem closes_nil_iff {inner : Expr α} :
    Closes scope outer inner [] tree ↔ outer = [] ∧ tree = inner := by
  cases outer <;> simp [Closes]

theorem negated_neg (count : Nat) (operand : Expr α) :
    negated count (.neg operand) = negated (count + 1) operand := by
  induction count with
  | zero => rfl
  | succ count ih => exact congrArg Expr.neg ih

theorem demands_minus_iff {negations : Nat} :
    Demands scope outer pending negations (.symbol .minus :: text) tree ↔
      Demands scope outer pending (negations + 1) text tree := by
  simp only [Demands, phrase_unary_minus_iff]
  constructor
  · rintro ⟨middle, _, ⟨operand, hOperand, rfl⟩, hCompletes⟩
    exact ⟨middle, operand, hOperand, negated_neg negations operand ▸ hCompletes⟩
  · rintro ⟨middle, operand, hOperand, hCompletes⟩
    exact ⟨middle, _, ⟨operand, hOperand, rfl⟩, (negated_neg negations operand).symm ▸ hCompletes⟩

/-- A sum begins with an operand, which is completed on a level where nothing waits. -/
theorem phrase_sum_iff_level {rest : List Token} :
    Phrase scope .sum text rest tree ↔
      ∃ middle operand, Phrase scope .unary text middle operand ∧
        Level scope .empty operand middle rest tree := by
  constructor
  · intro hSum
    obtain ⟨terms, term, extend, hTerm, hExtend, rfl⟩ := phrase_sum_iff.1 hSum
    obtain ⟨factors, factor, multiply, hFactor, hMultiply, rfl⟩ := phrase_product_iff.1 hTerm
    obtain ⟨middle, operand, raise, hOperand, hRaise, rfl⟩ := phrase_power_iff.1 hFactor
    exact ⟨middle, operand, hOperand,
      factors, terms, raise, multiply, extend, hRaise, hMultiply, hExtend, rfl⟩
  · rintro ⟨middle, operand, hOperand, factors, terms, raise, multiply, extend, hRaise,
      hMultiply, hExtend, rfl⟩
    have hFactor : Phrase scope .power text factors (raise operand) :=
      phrase_power_iff.2 ⟨middle, operand, raise, hOperand, hRaise, rfl⟩
    have hTerm : Phrase scope .product text terms (multiply (raise operand)) :=
      phrase_product_iff.2 ⟨factors, _, multiply, hFactor, hMultiply, rfl⟩
    exact phrase_sum_iff.2 ⟨terms, _, extend, hTerm, hExtend, rfl⟩

/-- Inside a new bracket the text goes on with a sum and a closing bracket. -/
theorem Parser.enter_accepts_iff {parser : Parser α} {opener : Opener} {negations : Nat} :
    (parser.enter opener negations).Accepts scope text tree ↔
      ∃ middle inner, Phrase scope .sum text (.symbol .closing :: middle) inner ∧
        Completes scope parser.outer parser.pending (negated negations (opener.enclose inner))
          middle tree := by
  constructor
  · rintro ⟨middle, operand, hOperand, rest, inner, hLevel, later, rest', value, rfl, hOuter⟩
    exact ⟨later, inner, phrase_sum_iff_level.2 ⟨middle, operand, hOperand, hLevel⟩,
      rest', value, hOuter⟩
  · rintro ⟨later, inner, hSum, rest', value, hOuter⟩
    obtain ⟨middle, operand, hOperand, hLevel⟩ := phrase_sum_iff_level.1 hSum
    exact ⟨middle, operand, hOperand, _, inner, hLevel, later, rest', value, rfl, hOuter⟩

/-! ## Steps of the parser -/

theorem completes_nil_iff {operand : Expr α} :
    Completes scope outer pending operand [] tree ↔
      outer = [] ∧ tree = pending.sumOf operand := by
  rw [completes_iff, closes_nil_iff]
  simp

/-- A closing bracket is taken if a bracket is open. -/
theorem Parser.leave_eq_ok_iff {parser next : Parser α} {operand : Expr α} :
    (parser.leave operand : Except (ParseError ε) (Parser α)) = .ok next ↔
      ∃ frame outer', parser.outer = frame :: outer' ∧
        next = ⟨outer', frame.pending, .operator
          (negated frame.negations (frame.opener.enclose (parser.pending.sumOf operand)))⟩ := by
  obtain ⟨_ | ⟨⟨opener, waiting, negations⟩, outer'⟩, pending, expects⟩ := parser
  · simp [Parser.leave]
  · constructor
    · intro hLeave
      cases opener <;> cases hLeave <;> exact ⟨_, outer', rfl, rfl⟩
    · rintro ⟨_, _, hOuter, rfl⟩
      cases hOuter
      cases opener <;> rfl

theorem SumSign.exists_iff {p : SumSign → Prop} : (∃ sign, p sign) ↔ p .plus ∨ p .minus := by
  constructor
  · rintro ⟨sign | sign, hSign⟩
    · exact .inl hSign
    · exact .inr hSign
  · rintro (hPlus | hMinus)
    · exact ⟨.plus, hPlus⟩
    · exact ⟨.minus, hMinus⟩

theorem ProductSign.exists_iff {p : ProductSign → Prop} :
    (∃ sign, p sign) ↔ p .times ∨ p .divide := by
  constructor
  · rintro ⟨sign | sign, hSign⟩
    · exact .inl hSign
    · exact .inr hSign
  · rintro (hTimes | hDivide)
    · exact ⟨.times, hTimes⟩
    · exact ⟨.divide, hDivide⟩

/-- After an operand the demand agrees with the step of the parser. -/
theorem completes_cons_iff {parser : Parser α} {operand : Expr α} {token : Token} :
    Completes scope parser.outer parser.pending operand (token :: text) tree ↔
      ∃ next, (parser.stepOperator operand token : Except (ParseError ε) _) = .ok next ∧
        next.Accepts scope text tree := by
  rw [completes_iff]
  cases token with
  | number | name => simp [not_closes_cons, Parser.stepOperator]
  | symbol sign =>
    rw [SumSign.exists_iff, ProductSign.exists_iff]
    cases sign with
    | closing =>
      simp only [closes_closing_iff, SumSign.symbol, ProductSign.symbol, Parser.stepOperator,
        Parser.leave_eq_ok_iff, List.cons.injEq, Token.symbol.injEq, reduceCtorEq, false_and,
        exists_false, or_false]
      constructor
      · rintro ⟨frame, outer', hOuter, hCompletes⟩
        exact ⟨_, ⟨frame, outer', hOuter, rfl⟩, hCompletes⟩
      · rintro ⟨_, ⟨frame, outer', hOuter, rfl⟩, hCompletes⟩
        exact ⟨frame, outer', hOuter, hCompletes⟩
    | _ =>
      simp [not_closes_cons, SumSign.symbol, SumSign.op, ProductSign.symbol, ProductSign.op,
        Parser.stepOperator, Parser.Accepts]

theorem not_completes_opening {operand : Expr α} :
    ¬ Completes scope outer pending operand (.symbol .opening :: text) tree := by
  rw [completes_iff]
  rintro (hCloses | ⟨later, hText, -⟩ | ⟨sign, later, hText, -⟩ | ⟨sign, later, hText, -⟩)
  · exact not_closes_cons (by decide) hCloses
  · cases hText
  · cases sign <;> cases hText
  · cases sign <;> cases hText

theorem Scope.leaf_eq_ok_iff {word : String} {operand : Expr α} :
    scope.leaf word = .ok operand ↔
      ∃ value, scope.values.get? word = some value ∧ operand = .var word value := by
  unfold Scope.leaf
  cases scope.values.get? word <;> simp [eq_comm]

theorem demands_number_iff {negations : Nat} {numeral : String} :
    Demands scope outer pending negations (.number numeral :: text) tree ↔
      ∃ value, scope.convert numeral = .ok value ∧
        Completes scope outer pending (negated negations (.lit value)) text tree := by
  simp only [Demands, phrase_unary_number_iff]
  constructor
  · rintro ⟨_, _, ⟨rfl, value, hValue, rfl⟩, hCompletes⟩
    exact ⟨value, hValue, hCompletes⟩
  · rintro ⟨value, hValue, hCompletes⟩
    exact ⟨text, _, ⟨rfl, value, hValue, rfl⟩, hCompletes⟩

theorem demands_bracket_iff {parser : Parser α} {negations : Nat} :
    Demands scope parser.outer parser.pending negations (.symbol .opening :: text) tree ↔
      (parser.enter .bracket negations).Accepts scope text tree := by
  simp only [Demands, phrase_unary_bracket_iff, Parser.enter_accepts_iff, Opener.enclose]

/-- Before a bracket the name of the logarithm is a call. -/
theorem demands_call_iff {parser : Parser α} {negations : Nat} :
    Demands scope parser.outer parser.pending negations
        (.name "log" :: .symbol .opening :: text) tree ↔
      (parser.enter .logarithm negations).Accepts scope text tree := by
  simp only [Demands, phrase_unary_name_iff, Parser.enter_accepts_iff, Opener.enclose]
  constructor
  · rintro ⟨middle, operand, ⟨rfl, -⟩ | ⟨-, later, inner, hText, hInner, rfl⟩, hCompletes⟩
    · exact absurd hCompletes not_completes_opening
    · cases hText
      exact ⟨middle, inner, hInner, hCompletes⟩
  · rintro ⟨middle, inner, hInner, hCompletes⟩
    exact ⟨middle, _, .inr ⟨trivial, text, inner, rfl, hInner, rfl⟩, hCompletes⟩

/-- Any other name is a variable. -/
theorem demands_leaf_iff {negations : Nat} {word : String}
    (hCall : word = "log" → text.head? ≠ some (.symbol .opening)) :
    Demands scope outer pending negations (.name word :: text) tree ↔
      ∃ operand, scope.leaf word = .ok operand ∧
        Completes scope outer pending (negated negations operand) text tree := by
  simp only [Demands, phrase_unary_name_iff, Scope.leaf_eq_ok_iff]
  constructor
  · rintro ⟨middle, operand, ⟨rfl, hOperand⟩ | ⟨hWord, later, inner, rfl, -⟩, hCompletes⟩
    · exact ⟨operand, hOperand, hCompletes⟩
    · exact absurd rfl (hCall hWord)
  · rintro ⟨operand, hOperand, hCompletes⟩
    exact ⟨text, operand, .inl ⟨rfl, hOperand⟩, hCompletes⟩

theorem not_demands_symbol {negations : Nat} {sign : Symbol} (hMinus : sign ≠ .minus)
    (hOpening : sign ≠ .opening) :
    ¬ Demands scope outer pending negations (.symbol sign :: text) tree := by
  rintro ⟨middle, operand, hOperand, -⟩
  exact not_phrase_unary_symbol hMinus hOpening hOperand

theorem Parser.close_eq_ok_iff {parser : Parser α} {operand : Expr α} :
    (parser.close operand : Except (ParseError ε) (Expr α)) = .ok tree ↔
      parser.outer = [] ∧ tree = parser.pending.sumOf operand := by
  unfold Parser.close
  cases parser.outer <;> simp [eq_comm]

/-- At the end of the text the demand is met exactly by the tree of the parser. -/
theorem Parser.accepts_nil_iff {parser : Parser α} :
    parser.Accepts scope [] tree ↔ parser.finish scope = .ok tree := by
  unfold Parser.Accepts Parser.finish
  cases parser.expects with
  | operand negations =>
    simp only [reduceCtorEq, iff_false]
    rintro ⟨middle, operand, hOperand, -⟩
    exact not_phrase_unary_nil hOperand
  | logarithm negations =>
    have hCall : "log" = "log" → ([] : List Token).head? ≠ some (.symbol .opening) := by simp
    simp only [demands_leaf_iff hCall, completes_nil_iff, bind_eq_ok_iff, close_eq_ok_iff]
  | operator operand => simp only [completes_nil_iff, close_eq_ok_iff]

theorem Parser.accepts_iff_of_step {outcome : Except (ParseError ε) (Parser α)}
    (next : Parser α) (hStep : outcome = .ok next) :
    next.Accepts scope text tree ↔
      ∃ next, outcome = .ok next ∧ next.Accepts scope text tree := by
  subst hStep
  simp

theorem demands_cons_iff {parser : Parser α} {negations : Nat} {token : Token} :
    Demands scope parser.outer parser.pending negations (token :: text) tree ↔
      ∃ next, parser.stepOperand scope negations token = .ok next ∧
        next.Accepts scope text tree := by
  cases token with
  | number numeral =>
    rw [demands_number_iff]
    cases hValue : scope.convert numeral with
    | error cause => simp [Parser.stepOperand, hValue]
    | ok value => simp [Parser.stepOperand, hValue, Parser.Accepts]
  | name word =>
    by_cases hWord : word = "log"
    · subst hWord
      exact Parser.accepts_iff_of_step { parser with expects := .logarithm negations } rfl
    · rw [demands_leaf_iff fun hLog => absurd hLog hWord]
      simp only [Parser.stepOperand, hWord, if_false]
      cases scope.leaf word with
      | error cause => simp only [reduceCtorEq, false_and, exists_false, error_bind]
      | ok operand =>
        simp only [Except.ok.injEq, exists_eq_left', ok_bind]
        exact Parser.accepts_iff_of_step
          { parser with expects := .operator (negated negations operand) } rfl
  | symbol sign =>
    cases sign with
    | minus =>
      exact demands_minus_iff.trans
        (Parser.accepts_iff_of_step { parser with expects := .operand (negations + 1) } rfl)
    | opening => exact demands_bracket_iff.trans (Parser.accepts_iff_of_step _ rfl)
    | _ => simp [not_demands_symbol, Parser.stepOperand]

/-- The demand of a state is met by a text exactly if the parser takes the first token and
the rest meets the demand of the next state. -/
theorem Parser.accepts_cons_iff {parser : Parser α} {token : Token} :
    parser.Accepts scope (token :: text) tree ↔
      ∃ next, parser.step scope token = .ok next ∧ next.Accepts scope text tree := by
  rw [Parser.Accepts, Parser.step]
  cases parser.expects with
  | operand negations => exact demands_cons_iff
  | operator operand => exact completes_cons_iff
  | logarithm negations =>
    show Demands scope parser.outer parser.pending negations (.name "log" :: token :: text) tree ↔ _
    by_cases hToken : token = .symbol .opening
    · subst hToken
      exact demands_call_iff.trans (Parser.accepts_iff_of_step _ rfl)
    · rw [demands_leaf_iff (by simpa using hToken)]
      simp only [hToken, if_false]
      cases hLeaf : scope.leaf "log" with
      | error cause => simp
      | ok operand => simpa using completes_cons_iff

/-- A run to the end of the text yields the trees that meet the demand. -/
theorem Parser.run_finish_eq_ok_iff {parser : Parser α} :
    (do let last ← parser.run scope text; last.finish scope) = .ok tree ↔
      parser.Accepts scope text tree := by
  induction text generalizing parser with
  | nil => exact Parser.accepts_nil_iff.symm
  | cons token text ih =>
    rw [Parser.accepts_cons_iff]
    simp only [Parser.run, List.foldlM_cons, bind_assoc]
    rw [bind_eq_ok_iff]
    exact exists_congr fun next => and_congr_right fun _ => ih

/-- The parser accepts exactly the texts that have a derivation with a tree, and yields
that tree. -/
theorem parseTokens_eq_ok_iff {tokens : List Token} :
    parseTokens scope tokens = .ok tree ↔
      ∃ d : Derivation .sum, d.tokens = tokens ∧ d.tree? scope = some tree := by
  rw [← phrase_nil_iff, phrase_sum_iff_level]
  refine Parser.run_finish_eq_ok_iff.trans ?_
  constructor
  · rintro ⟨middle, operand, hOperand, rest, value, hLevel, rfl, rfl⟩
    exact ⟨middle, operand, hOperand, hLevel⟩
  · rintro ⟨middle, operand, hOperand, hLevel⟩
    exact ⟨middle, operand, hOperand, [], tree, hLevel, rfl, rfl⟩

end

end Autodiff.Syntax
