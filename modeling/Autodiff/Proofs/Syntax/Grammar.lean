import Autodiff.Syntax.Parser

/-!
# The grammar

The grammar of the expression language as a family of derivations, one type for each
syntactic category:

    sum     := product (('+' | '-') product)*
    product := power (('*' | '/') power)*
    power   := unary ('^' power)?
    unary   := '-' unary | primary
    primary := NUMBER | NAME | 'log' '(' sum ')' | '(' sum ')'

A repetition or an option is a category of its own, the tail of what stands before it. A
derivation says nothing about values; `Derivation.tokens` is the text it derives and
`Derivation.tree?` the tree it stands for in a scope.

* `Derivation.exists_tree?_iff` says that a derivation has a tree exactly if its leaves
  have values;
* `Derivation.determined` says that a phrase is told by the text it is at the front of, if
  what follows cannot belong to it, and `Derivation.eq_of_tokens_eq` that the grammar is
  unambiguous.
-/

namespace Autodiff.Syntax

/-- The operators of a sum. -/
inductive SumSign where
  | plus
  | minus

/-- The operators of a product. -/
inductive ProductSign where
  | times
  | divide

def SumSign.symbol : SumSign → Symbol
  | plus => .plus
  | minus => .minus

def SumSign.op : SumSign → Op
  | plus => .add
  | minus => .sub

def ProductSign.symbol : ProductSign → Symbol
  | times => .times
  | divide => .divide

def ProductSign.op : ProductSign → Op
  | times => .mul
  | divide => .div

/-- The syntactic categories. -/
inductive Category where
  | sum
  | sumTail
  | product
  | productTail
  | power
  | powerTail
  | unary
  | primary

/-- The derivations of a category. -/
inductive Derivation : Category → Type where
  | sum (first : Derivation .product) (tail : Derivation .sumTail) : Derivation .sum
  | sumEnd : Derivation .sumTail
  | sumMore (sign : SumSign) (operand : Derivation .product) (tail : Derivation .sumTail) :
      Derivation .sumTail
  | product (first : Derivation .power) (tail : Derivation .productTail) : Derivation .product
  | productEnd : Derivation .productTail
  | productMore (sign : ProductSign) (operand : Derivation .power)
      (tail : Derivation .productTail) : Derivation .productTail
  | power (base : Derivation .unary) (tail : Derivation .powerTail) : Derivation .power
  | powerEnd : Derivation .powerTail
  | raise (exponent : Derivation .power) : Derivation .powerTail
  | minus (operand : Derivation .unary) : Derivation .unary
  | primary (operand : Derivation .primary) : Derivation .unary
  | number (numeral : String) : Derivation .primary
  | name (word : String) : Derivation .primary
  | logarithm (inner : Derivation .sum) : Derivation .primary
  | bracket (inner : Derivation .sum) : Derivation .primary

/-- What a phrase stands for: a tree, or for a tail how it goes on from the tree before it. -/
abbrev Meaning (α : Type) : Category → Type
  | .sumTail | .productTail | .powerTail => Expr α → Expr α
  | _ => Expr α

namespace Derivation

variable {α ε : Type}

/-- The text of a derivation. -/
def tokens : {category : Category} → Derivation category → List Token
  | _, sum first tail => first.tokens ++ tail.tokens
  | _, sumEnd => []
  | _, sumMore sign operand tail => .symbol sign.symbol :: (operand.tokens ++ tail.tokens)
  | _, product first tail => first.tokens ++ tail.tokens
  | _, productEnd => []
  | _, productMore sign operand tail => .symbol sign.symbol :: (operand.tokens ++ tail.tokens)
  | _, power base tail => base.tokens ++ tail.tokens
  | _, powerEnd => []
  | _, raise exponent => .symbol .power :: exponent.tokens
  | _, minus operand => .symbol .minus :: operand.tokens
  | _, primary operand => operand.tokens
  | _, number numeral => [.number numeral]
  | _, name word => [.name word]
  | _, logarithm inner => .name "log" :: .symbol .opening :: (inner.tokens ++ [.symbol .closing])
  | _, bracket inner => .symbol .opening :: (inner.tokens ++ [.symbol .closing])

/-- Every name has a value and every number is converted. -/
def Grounded (scope : Scope α ε) : {category : Category} → Derivation category → Prop
  | _, sum first tail => first.Grounded scope ∧ tail.Grounded scope
  | _, sumEnd => True
  | _, sumMore _ operand tail => operand.Grounded scope ∧ tail.Grounded scope
  | _, product first tail => first.Grounded scope ∧ tail.Grounded scope
  | _, productEnd => True
  | _, productMore _ operand tail => operand.Grounded scope ∧ tail.Grounded scope
  | _, power base tail => base.Grounded scope ∧ tail.Grounded scope
  | _, powerEnd => True
  | _, raise exponent => exponent.Grounded scope
  | _, minus operand => operand.Grounded scope
  | _, primary operand => operand.Grounded scope
  | _, number numeral => ∃ value, scope.convert numeral = .ok value
  | _, name word => ∃ value, scope.values.get? word = some value
  | _, logarithm inner => inner.Grounded scope
  | _, bracket inner => inner.Grounded scope

/-- The tree of a derivation: sums and products are folded to the left, powers to the
right. There is none if a leaf has no value. -/
def tree? (scope : Scope α ε) :
    {category : Category} → Derivation category → Option (Meaning α category)
  | _, sum first tail => do
    let left ← first.tree? scope
    let fold ← tail.tree? scope
    return fold left
  | _, sumEnd => return fun left => left
  | _, sumMore sign operand tail => do
    let right ← operand.tree? scope
    let fold ← tail.tree? scope
    return fun left => fold (.binary sign.op left right)
  | _, product first tail => do
    let left ← first.tree? scope
    let fold ← tail.tree? scope
    return fold left
  | _, productEnd => return fun left => left
  | _, productMore sign operand tail => do
    let right ← operand.tree? scope
    let fold ← tail.tree? scope
    return fun left => fold (.binary sign.op left right)
  | _, power base tail => do
    let left ← base.tree? scope
    let fold ← tail.tree? scope
    return fold left
  | _, powerEnd => return fun base => base
  | _, raise exponent => do
    let right ← exponent.tree? scope
    return fun base => .pow base right
  | _, minus operand => do
    let inner ← operand.tree? scope
    return .neg inner
  | _, primary operand => operand.tree? scope
  | _, number numeral => do
    let value ← (scope.convert numeral).toOption
    return .lit value
  | _, name word => do
    let value ← scope.values.get? word
    return .var word value
  | _, logarithm inner => do
    let operand ← inner.tree? scope
    return .log operand
  | _, bracket inner => inner.tree? scope

theorem exists_pair_iff {β γ δ : Type} {first : Option β} {second : Option γ} (f : β → γ → δ) :
    (∃ result, (do let x ← first; let y ← second; return f x y) = some result) ↔
      (∃ x, first = some x) ∧ ∃ y, second = some y := by
  cases first <;> cases second <;> simp

theorem exists_map_iff {β γ : Type} {only : Option β} (f : β → γ) :
    (∃ result, (do let x ← only; return f x) = some result) ↔ ∃ x, only = some x := by
  cases only <;> simp

/-- The derivations with a tree are those whose leaves have values. -/
theorem exists_tree?_iff (scope : Scope α ε) {category : Category} (d : Derivation category) :
    (∃ meaning, d.tree? scope = some meaning) ↔ d.Grounded scope := by
  induction d with
  | sum first tail ihFirst ihTail => exact (exists_pair_iff _).trans (and_congr ihFirst ihTail)
  | sumEnd => simp [tree?, Grounded]
  | sumMore sign operand tail ihOperand ihTail =>
    exact (exists_pair_iff _).trans (and_congr ihOperand ihTail)
  | product first tail ihFirst ihTail =>
    exact (exists_pair_iff _).trans (and_congr ihFirst ihTail)
  | productEnd => simp [tree?, Grounded]
  | productMore sign operand tail ihOperand ihTail =>
    exact (exists_pair_iff _).trans (and_congr ihOperand ihTail)
  | power base tail ihBase ihTail => exact (exists_pair_iff _).trans (and_congr ihBase ihTail)
  | powerEnd => simp [tree?, Grounded]
  | raise exponent ih => exact (exists_map_iff _).trans ih
  | minus operand ih => exact (exists_map_iff _).trans ih
  | primary operand ih => exact ih
  | number numeral =>
    refine (exists_map_iff _).trans ?_
    cases hValue : scope.convert numeral <;> simp [Grounded, hValue, Except.toOption]
  | name word => exact exists_map_iff _
  | logarithm inner ih => exact (exists_map_iff _).trans ih
  | bracket inner ih => exact ih

/-! ## At most one derivation -/

end Derivation

/-- The symbols that can go on after a phrase. None goes on with an opening bracket, which
tells the name of the logarithm from its call. -/
def Category.continuations : Category → List Symbol
  | .primary | .unary => [.opening]
  | .power | .powerTail => [.opening, .power]
  | .product | .productTail => [.opening, .power, .times, .divide]
  | .sum | .sumTail => [.opening, .power, .times, .divide, .plus, .minus]

/-- A text that cannot belong to a phrase before it. -/
def Category.Ends (category : Category) (rest : List Token) : Prop :=
  ∀ sign ∈ category.continuations, rest.head? ≠ some (.symbol sign)

namespace Category.Ends

theorem nil (category : Category) : category.Ends [] := by
  intro sign _ hHead
  cases hHead

theorem ne_cons {category : Category} {rest : List Token} (h : category.Ends rest) {sign : Symbol}
    (hSign : sign ∈ category.continuations) (later : List Token) : rest ≠ .symbol sign :: later := by
  rintro rfl
  exact h sign hSign rfl

theorem closing (category : Category) (rest : List Token) :
    category.Ends (.symbol .closing :: rest) := by
  intro sign hSign hHead
  cases hHead
  cases category <;> simp [continuations] at hSign

theorem mono {category other : Category} {rest : List Token} (h : category.Ends rest)
    (hSubset : other.continuations ⊆ category.continuations) : other.Ends rest :=
  fun sign hSign => h sign (hSubset hSign)

theorem sumTail_append {rest : List Token} (h : Category.sumTail.Ends rest)
    (tail : Derivation .sumTail) : Category.product.Ends (tail.tokens ++ rest) := by
  cases tail with
  | sumEnd => exact h.mono (by decide)
  | sumMore sign operand tail =>
    cases sign <;> simp [Ends, continuations, Derivation.tokens, SumSign.symbol]

theorem productTail_append {rest : List Token} (h : Category.productTail.Ends rest)
    (tail : Derivation .productTail) : Category.power.Ends (tail.tokens ++ rest) := by
  cases tail with
  | productEnd => exact h.mono (by decide)
  | productMore sign operand tail =>
    cases sign <;> simp [Ends, continuations, Derivation.tokens, ProductSign.symbol]

theorem powerTail_append {rest : List Token} (h : Category.powerTail.Ends rest)
    (tail : Derivation .powerTail) : Category.unary.Ends (tail.tokens ++ rest) := by
  cases tail with
  | powerEnd => exact h.mono (by decide)
  | raise exponent => simp [Ends, continuations, Derivation.tokens]

end Category.Ends

theorem SumSign.symbol_mem_continuations (sign : SumSign) :
    sign.symbol ∈ Category.sumTail.continuations := by
  cases sign <;> decide

theorem ProductSign.symbol_mem_continuations (sign : ProductSign) :
    sign.symbol ∈ Category.productTail.continuations := by
  cases sign <;> decide

theorem SumSign.symbol_injective {sign other : SumSign} (h : sign.symbol = other.symbol) :
    sign = other := by
  cases sign <;> cases other <;> first | rfl | cases h

theorem ProductSign.symbol_injective {sign other : ProductSign} (h : sign.symbol = other.symbol) :
    sign = other := by
  cases sign <;> cases other <;> first | rfl | cases h

namespace Derivation

theorem primary_ne_minus (d : Derivation .primary) (rest later : List Token) :
    d.tokens ++ rest ≠ .symbol .minus :: later := by
  cases d <;> simp [tokens]

/-- Among the phrases of its category, a phrase is told by any text it is at the front of,
provided that what follows cannot belong to it. -/
def Determined {category : Category} (d : Derivation category) : Prop :=
  ∀ {d' : Derivation category} {rest rest' : List Token},
    category.Ends rest → category.Ends rest' → d.tokens ++ rest = d'.tokens ++ rest' →
      d = d' ∧ rest = rest'

/-- A phrase and its tail are told apart if nothing that can follow the tail, nor the tail
itself, goes on with the phrase. -/
theorem Determined.append {category tailCategory : Category}
    (hFollows : ∀ {rest : List Token}, tailCategory.Ends rest →
      ∀ tail : Derivation tailCategory, category.Ends (tail.tokens ++ rest))
    {first first' : Derivation category} {tail tail' : Derivation tailCategory}
    (hFirst : first.Determined) (hTail : tail.Determined) {rest rest' : List Token}
    (hEnds : tailCategory.Ends rest) (hEnds' : tailCategory.Ends rest')
    (hTokens : first.tokens ++ tail.tokens ++ rest = first'.tokens ++ tail'.tokens ++ rest') :
    first = first' ∧ tail = tail' ∧ rest = rest' := by
  simp only [List.append_assoc] at hTokens
  obtain ⟨hFirstEq, hRest⟩ := hFirst (hFollows hEnds tail) (hFollows hEnds' tail') hTokens
  exact ⟨hFirstEq, hTail hEnds hEnds' hRest⟩

/-- A sum up to its closing bracket is told by the text. -/
theorem Determined.closed {inner inner' : Derivation .sum} (hInner : inner.Determined)
    {rest rest' : List Token}
    (hTokens : inner.tokens ++ [.symbol .closing] ++ rest =
      inner'.tokens ++ [.symbol .closing] ++ rest') :
    inner = inner' ∧ rest = rest' := by
  simp only [List.append_assoc, List.cons_append, List.nil_append] at hTokens
  obtain ⟨hEq, hRest⟩ := hInner (.closing _ rest) (.closing _ rest') hTokens
  exact ⟨hEq, (List.cons.inj hRest).2⟩

theorem determined {category : Category} (d : Derivation category) : d.Determined := by
  induction d with
  | sum first tail ihFirst ihTail =>
    intro d' rest rest' hEnds hEnds' hTokens
    cases d' with
    | sum first' tail' =>
      obtain ⟨rfl, rfl, rfl⟩ :=
        ihFirst.append Category.Ends.sumTail_append ihTail hEnds hEnds' hTokens
      exact ⟨rfl, rfl⟩
  | sumEnd =>
    intro d' rest rest' hEnds hEnds' hTokens
    cases d' with
    | sumEnd => exact ⟨rfl, hTokens⟩
    | sumMore sign operand tail =>
      exact absurd hTokens (hEnds.ne_cons sign.symbol_mem_continuations _)
  | sumMore sign operand tail ihOperand ihTail =>
    intro d' rest rest' hEnds hEnds' hTokens
    cases d' with
    | sumEnd => exact absurd hTokens.symm (hEnds'.ne_cons sign.symbol_mem_continuations _)
    | sumMore sign' operand' tail' =>
      obtain ⟨hHead, hLater⟩ := List.cons.inj hTokens
      obtain rfl := SumSign.symbol_injective (Token.symbol.inj hHead)
      obtain ⟨rfl, rfl, rfl⟩ :=
        ihOperand.append Category.Ends.sumTail_append ihTail hEnds hEnds' hLater
      exact ⟨rfl, rfl⟩
  | product first tail ihFirst ihTail =>
    intro d' rest rest' hEnds hEnds' hTokens
    cases d' with
    | product first' tail' =>
      obtain ⟨rfl, rfl, rfl⟩ :=
        ihFirst.append Category.Ends.productTail_append ihTail hEnds hEnds' hTokens
      exact ⟨rfl, rfl⟩
  | productEnd =>
    intro d' rest rest' hEnds hEnds' hTokens
    cases d' with
    | productEnd => exact ⟨rfl, hTokens⟩
    | productMore sign operand tail =>
      exact absurd hTokens (hEnds.ne_cons sign.symbol_mem_continuations _)
  | productMore sign operand tail ihOperand ihTail =>
    intro d' rest rest' hEnds hEnds' hTokens
    cases d' with
    | productEnd => exact absurd hTokens.symm (hEnds'.ne_cons sign.symbol_mem_continuations _)
    | productMore sign' operand' tail' =>
      obtain ⟨hHead, hLater⟩ := List.cons.inj hTokens
      obtain rfl := ProductSign.symbol_injective (Token.symbol.inj hHead)
      obtain ⟨rfl, rfl, rfl⟩ :=
        ihOperand.append Category.Ends.productTail_append ihTail hEnds hEnds' hLater
      exact ⟨rfl, rfl⟩
  | power base tail ihBase ihTail =>
    intro d' rest rest' hEnds hEnds' hTokens
    cases d' with
    | power base' tail' =>
      obtain ⟨rfl, rfl, rfl⟩ :=
        ihBase.append Category.Ends.powerTail_append ihTail hEnds hEnds' hTokens
      exact ⟨rfl, rfl⟩
  | powerEnd =>
    intro d' rest rest' hEnds hEnds' hTokens
    cases d' with
    | powerEnd => exact ⟨rfl, hTokens⟩
    | raise exponent => exact absurd hTokens (hEnds.ne_cons (by decide) _)
  | raise exponent ih =>
    intro d' rest rest' hEnds hEnds' hTokens
    cases d' with
    | powerEnd => exact absurd hTokens.symm (hEnds'.ne_cons (by decide) _)
    | raise exponent' =>
      obtain ⟨rfl, rfl⟩ := ih hEnds hEnds' (List.cons.inj hTokens).2
      exact ⟨rfl, rfl⟩
  | minus operand ih =>
    intro d' rest rest' hEnds hEnds' hTokens
    cases d' with
    | minus operand' =>
      obtain ⟨rfl, rfl⟩ := ih hEnds hEnds' (List.cons.inj hTokens).2
      exact ⟨rfl, rfl⟩
    | primary operand' => exact absurd hTokens.symm (operand'.primary_ne_minus _ _)
  | primary operand ih =>
    intro d' rest rest' hEnds hEnds' hTokens
    cases d' with
    | minus operand' => exact absurd hTokens (operand.primary_ne_minus _ _)
    | primary operand' =>
      obtain ⟨rfl, rfl⟩ := ih hEnds hEnds' hTokens
      exact ⟨rfl, rfl⟩
  | number numeral =>
    intro d' rest rest' _ _ hTokens
    cases d' with
    | name | logarithm | bracket => simp [tokens] at hTokens
    | number numeral' => simpa [tokens] using hTokens
  | name word =>
    intro d' rest rest' hEnds _ hTokens
    cases d' with
    | number | bracket => simp [tokens] at hTokens
    | name word' => simpa [tokens] using hTokens
    | logarithm inner =>
      -- no bracket follows the name, or it would be a call
      exact absurd (List.cons.inj hTokens).2 (hEnds.ne_cons (by decide) _)
  | logarithm inner ih =>
    intro d' rest rest' _ hEnds' hTokens
    cases d' with
    | number | bracket => simp [tokens] at hTokens
    | name word => exact absurd (List.cons.inj hTokens).2.symm (hEnds'.ne_cons (by decide) _)
    | logarithm inner' =>
      obtain ⟨rfl, rfl⟩ := ih.closed (List.cons.inj (List.cons.inj hTokens).2).2
      exact ⟨rfl, rfl⟩
  | bracket inner ih =>
    intro d' rest rest' _ _ hTokens
    cases d' with
    | number | name | logarithm => simp [tokens] at hTokens
    | bracket inner' =>
      obtain ⟨rfl, rfl⟩ := ih.closed (List.cons.inj hTokens).2
      exact ⟨rfl, rfl⟩

/-- The grammar is unambiguous. -/
theorem eq_of_tokens_eq {category : Category} {d d' : Derivation category}
    (hTokens : d.tokens = d'.tokens) : d = d' :=
  (d.determined (.nil category) (.nil category) (by rw [hTokens])).1

end Derivation

end Autodiff.Syntax
