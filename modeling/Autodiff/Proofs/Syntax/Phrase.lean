import Autodiff.Proofs.Syntax.Grammar

/-!
# Phrases

A text begins with a phrase of a category if some derivation of the category derives its
front. The lemmas of this module read the grammar from its first token on: they say what a
phrase is made of, given the token it begins with.

* `phrase_sum_iff`, `phrase_product_iff` and `phrase_power_iff` split a phrase from its
  tail;
* `phrase_sumTail_iff`, `phrase_productTail_iff` and `phrase_powerTail_iff` open a tail; the
  first two are repetitions, `phrase_repetition_iff`;
* `phrase_unary_minus_iff` and its companions open an operand at each token.
-/

namespace Autodiff.Syntax

variable {α ε : Type}

/-- The text begins with a phrase, its meaning is given, and the rest follows. -/
def Phrase (scope : Scope α ε) (category : Category) (text rest : List Token)
    (meaning : Meaning α category) : Prop :=
  ∃ d : Derivation category, d.tokens ++ rest = text ∧ d.tree? scope = some meaning

section

variable {scope : Scope α ε} {text rest : List Token}

theorem phrase_nil_iff {category : Category} {meaning : Meaning α category} :
    Phrase scope category text [] meaning ↔
      ∃ d : Derivation category, d.tokens = text ∧ d.tree? scope = some meaning := by
  simp [Phrase]

/-! ## Phrases with a tail -/

/-- A phrase made of two phrases, one after the other. -/
theorem phrase_pair_iff {category tailCategory whole : Category}
    {make : Derivation category → Derivation tailCategory → Derivation whole}
    {combine : Meaning α category → Meaning α tailCategory → Meaning α whole}
    (hOnly : ∀ d, ∃ first tail, d = make first tail)
    (hTokens : ∀ first tail, (make first tail).tokens = first.tokens ++ tail.tokens)
    (hTree : ∀ first tail, (make first tail).tree? scope = do
      let left ← first.tree? scope
      let fold ← tail.tree? scope
      return combine left fold)
    {meaning : Meaning α whole} :
    Phrase scope whole text rest meaning ↔
      ∃ middle left fold, Phrase scope category text middle left ∧
        Phrase scope tailCategory middle rest fold ∧ meaning = combine left fold := by
  constructor
  · rintro ⟨d, rfl, hMeaning⟩
    obtain ⟨first, tail, rfl⟩ := hOnly d
    simp only [hTree, Option.bind_eq_bind, Option.bind_eq_some_iff, Option.pure_def,
      Option.some.injEq] at hMeaning
    obtain ⟨left, hLeft, fold, hFold, rfl⟩ := hMeaning
    exact ⟨tail.tokens ++ rest, left, fold, ⟨first, by simp [hTokens], hLeft⟩,
      ⟨tail, rfl, hFold⟩, rfl⟩
  · rintro ⟨middle, left, fold, ⟨first, rfl, hLeft⟩, ⟨tail, rfl, hFold⟩, rfl⟩
    exact ⟨make first tail, by simp [hTokens], by simp [hTree, hLeft, hFold]⟩

theorem phrase_sum_iff {tree : Expr α} :
    Phrase scope .sum text rest tree ↔
      ∃ middle left fold, Phrase scope .product text middle left ∧
        Phrase scope .sumTail middle rest fold ∧ tree = fold left :=
  phrase_pair_iff (fun | .sum first tail => ⟨first, tail, rfl⟩) (fun _ _ => rfl) fun _ _ => rfl

theorem phrase_product_iff {tree : Expr α} :
    Phrase scope .product text rest tree ↔
      ∃ middle left fold, Phrase scope .power text middle left ∧
        Phrase scope .productTail middle rest fold ∧ tree = fold left :=
  phrase_pair_iff (fun | .product first tail => ⟨first, tail, rfl⟩) (fun _ _ => rfl) fun _ _ => rfl

theorem phrase_power_iff {tree : Expr α} :
    Phrase scope .power text rest tree ↔
      ∃ middle left fold, Phrase scope .unary text middle left ∧
        Phrase scope .powerTail middle rest fold ∧ tree = fold left :=
  phrase_pair_iff (fun | .power base tail => ⟨base, tail, rfl⟩) (fun _ _ => rfl) fun _ _ => rfl

/-! ## Tails -/

/-- A repetition: nothing, or a sign, an operand and the rest of the repetition. -/
theorem phrase_repetition_iff {Sign : Type} {symbol : Sign → Symbol}
    {category tailCategory : Category} {stop : Derivation tailCategory}
    {more : Sign → Derivation category → Derivation tailCategory → Derivation tailCategory}
    {stay : Meaning α tailCategory}
    {combine : Sign → Meaning α category → Meaning α tailCategory → Meaning α tailCategory}
    (hOnly : ∀ d, d = stop ∨ ∃ sign operand tail, d = more sign operand tail)
    (hStop : stop.tokens = [] ∧ stop.tree? scope = some stay)
    (hTokens : ∀ sign operand tail, (more sign operand tail).tokens =
      .symbol (symbol sign) :: (operand.tokens ++ tail.tokens))
    (hTree : ∀ sign operand tail, (more sign operand tail).tree? scope = do
      let right ← operand.tree? scope
      let fold ← tail.tree? scope
      return combine sign right fold)
    {meaning : Meaning α tailCategory} :
    Phrase scope tailCategory text rest meaning ↔
      (text = rest ∧ meaning = stay) ∨
      ∃ sign later middle right fold, text = .symbol (symbol sign) :: later ∧
        Phrase scope category later middle right ∧ Phrase scope tailCategory middle rest fold ∧
        meaning = combine sign right fold := by
  constructor
  · rintro ⟨d, rfl, hMeaning⟩
    rcases hOnly d with rfl | ⟨sign, operand, tail, rfl⟩
    · rw [hStop.2] at hMeaning
      exact .inl ⟨by simp [hStop.1], (Option.some.inj hMeaning).symm⟩
    · simp only [hTree, Option.bind_eq_bind, Option.bind_eq_some_iff, Option.pure_def,
        Option.some.injEq] at hMeaning
      obtain ⟨right, hRight, fold, hFold, rfl⟩ := hMeaning
      exact .inr ⟨sign, _, tail.tokens ++ rest, right, fold, by rw [hTokens]; rfl,
        ⟨operand, by simp, hRight⟩, ⟨tail, rfl, hFold⟩, rfl⟩
  · rintro (⟨rfl, rfl⟩ | ⟨sign, later, middle, right, fold, rfl, ⟨operand, rfl, hRight⟩,
      ⟨tail, rfl, hFold⟩, rfl⟩)
    · exact ⟨stop, by simp [hStop.1], hStop.2⟩
    · exact ⟨more sign operand tail, by simp [hTokens], by simp [hTree, hRight, hFold]⟩

theorem phrase_sumTail_iff {fold : Expr α → Expr α} :
    Phrase scope .sumTail text rest fold ↔
      (text = rest ∧ fold = fun left => left) ∨
      ∃ (sign : SumSign) (later middle : List Token) (right : Expr α) (fold' : Expr α → Expr α),
        text = .symbol sign.symbol :: later ∧ Phrase scope .product later middle right ∧
        Phrase scope .sumTail middle rest fold' ∧
        fold = fun left => fold' (.binary sign.op left right) :=
  phrase_repetition_iff
    (fun | .sumEnd => .inl rfl | .sumMore sign operand tail => .inr ⟨sign, operand, tail, rfl⟩)
    ⟨rfl, rfl⟩ (fun _ _ _ => rfl) fun _ _ _ => rfl

theorem phrase_productTail_iff {fold : Expr α → Expr α} :
    Phrase scope .productTail text rest fold ↔
      (text = rest ∧ fold = fun left => left) ∨
      ∃ (sign : ProductSign) (later middle : List Token) (right : Expr α)
        (fold' : Expr α → Expr α),
        text = .symbol sign.symbol :: later ∧ Phrase scope .power later middle right ∧
        Phrase scope .productTail middle rest fold' ∧
        fold = fun left => fold' (.binary sign.op left right) :=
  phrase_repetition_iff
    (fun
      | .productEnd => .inl rfl
      | .productMore sign operand tail => .inr ⟨sign, operand, tail, rfl⟩)
    ⟨rfl, rfl⟩ (fun _ _ _ => rfl) fun _ _ _ => rfl

theorem phrase_powerTail_iff {fold : Expr α → Expr α} :
    Phrase scope .powerTail text rest fold ↔
      (text = rest ∧ fold = fun base => base) ∨
      ∃ (later : List Token) (right : Expr α), text = .symbol .power :: later ∧
        Phrase scope .power later rest right ∧ fold = fun base => .pow base right := by
  constructor
  · rintro ⟨d, rfl, hFold⟩
    cases d with
    | powerEnd => exact .inl ⟨rfl, (Option.some.inj hFold).symm⟩
    | raise exponent =>
      simp only [Derivation.tree?, Option.bind_eq_bind, Option.bind_eq_some_iff, Option.pure_def,
        Option.some.injEq] at hFold
      obtain ⟨right, hRight, rfl⟩ := hFold
      exact .inr ⟨_, right, rfl, ⟨exponent, rfl, hRight⟩, rfl⟩
  · rintro (⟨rfl, rfl⟩ | ⟨_, right, rfl, ⟨exponent, rfl, hRight⟩, rfl⟩)
    · exact ⟨.powerEnd, rfl, rfl⟩
    · exact ⟨.raise exponent, rfl, by simp [Derivation.tree?, hRight]⟩

/-! ## Operands -/

theorem not_phrase_unary_nil {tree : Expr α} : ¬ Phrase scope .unary [] rest tree := by
  rintro ⟨d, hTokens, -⟩
  cases d with
  | minus => cases hTokens
  | primary d => cases d <;> cases hTokens

theorem phrase_unary_minus_iff {tree : Expr α} :
    Phrase scope .unary (.symbol .minus :: text) rest tree ↔
      ∃ operand, Phrase scope .unary text rest operand ∧ tree = .neg operand := by
  constructor
  · rintro ⟨d, hTokens, hTree⟩
    cases d with
    | primary d => exact absurd hTokens (d.primary_ne_minus rest text)
    | minus d =>
      simp only [Derivation.tree?, Option.bind_eq_bind, Option.bind_eq_some_iff, Option.pure_def,
        Option.some.injEq] at hTree
      obtain ⟨operand, hOperand, rfl⟩ := hTree
      exact ⟨operand, ⟨d, (List.cons.inj hTokens).2, hOperand⟩, rfl⟩
  · rintro ⟨operand, ⟨d, rfl, hOperand⟩, rfl⟩
    exact ⟨.minus d, rfl, by simp [Derivation.tree?, hOperand]⟩

theorem phrase_unary_number_iff {numeral : String} {tree : Expr α} :
    Phrase scope .unary (.number numeral :: text) rest tree ↔
      text = rest ∧ ∃ value, scope.convert numeral = .ok value ∧ tree = .lit value := by
  constructor
  · rintro ⟨d, hTokens, hTree⟩
    cases d with
    | minus => cases hTokens
    | primary d =>
      cases d with
      | name | logarithm | bracket => cases hTokens
      | number =>
        cases hTokens
        cases hValue : scope.convert numeral with
        | error cause => simp [Derivation.tree?, hValue, Except.toOption] at hTree
        | ok value =>
          simp only [Derivation.tree?, hValue, Except.toOption] at hTree
          exact ⟨rfl, value, rfl, (Option.some.inj hTree).symm⟩
  · rintro ⟨rfl, value, hValue, rfl⟩
    exact ⟨.primary (.number numeral), rfl, by simp [Derivation.tree?, hValue, Except.toOption]⟩

theorem phrase_unary_bracket_iff {tree : Expr α} :
    Phrase scope .unary (.symbol .opening :: text) rest tree ↔
      Phrase scope .sum text (.symbol .closing :: rest) tree := by
  constructor
  · rintro ⟨d, hTokens, hTree⟩
    cases d with
    | minus => cases hTokens
    | primary d =>
      cases d with
      | number | name | logarithm => cases hTokens
      | bracket inner => exact ⟨inner, by simpa [Derivation.tokens] using hTokens, hTree⟩
  · rintro ⟨inner, rfl, hTree⟩
    exact ⟨.primary (.bracket inner), by simp [Derivation.tokens], hTree⟩

/-- A name stands for its variable, unless it is the name of the logarithm in a call. -/
theorem phrase_unary_name_iff {word : String} {tree : Expr α} :
    Phrase scope .unary (.name word :: text) rest tree ↔
      (text = rest ∧ ∃ value, scope.values.get? word = some value ∧ tree = .var word value) ∨
      (word = "log" ∧ ∃ later operand, text = .symbol .opening :: later ∧
        Phrase scope .sum later (.symbol .closing :: rest) operand ∧ tree = .log operand) := by
  constructor
  · rintro ⟨d, hTokens, hTree⟩
    cases d with
    | minus => cases hTokens
    | primary d =>
      cases d with
      | number | bracket => cases hTokens
      | name =>
        cases hTokens
        simp only [Derivation.tree?, Option.bind_eq_bind, Option.bind_eq_some_iff,
          Option.pure_def, Option.some.injEq] at hTree
        obtain ⟨value, hValue, rfl⟩ := hTree
        exact .inl ⟨rfl, value, hValue, rfl⟩
      | logarithm inner =>
        cases hTokens
        simp only [Derivation.tree?, Option.bind_eq_bind, Option.bind_eq_some_iff,
          Option.pure_def, Option.some.injEq] at hTree
        obtain ⟨operand, hOperand, rfl⟩ := hTree
        exact .inr ⟨rfl, _, operand, rfl, ⟨inner, by simp, hOperand⟩, rfl⟩
  · rintro (⟨rfl, value, hValue, rfl⟩ | ⟨rfl, _, operand, rfl, ⟨inner, rfl, hOperand⟩, rfl⟩)
    · exact ⟨.primary (.name word), rfl, by simp [Derivation.tree?, hValue]⟩
    · exact ⟨.primary (.logarithm inner), by simp [Derivation.tokens],
        by simp [Derivation.tree?, hOperand]⟩

/-- No operand begins with another symbol. -/
theorem not_phrase_unary_symbol {sign : Symbol} (hMinus : sign ≠ .minus)
    (hOpening : sign ≠ .opening) {tree : Expr α} :
    ¬ Phrase scope .unary (.symbol sign :: text) rest tree := by
  rintro ⟨d, hTokens, -⟩
  cases d with
  | minus =>
    cases hTokens
    exact hMinus rfl
  | primary d =>
    cases d with
    | number | name | logarithm => cases hTokens
    | bracket =>
      cases hTokens
      exact hOpening rfl

end

end Autodiff.Syntax
