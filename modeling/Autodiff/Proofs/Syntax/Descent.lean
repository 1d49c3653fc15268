import Autodiff.Proofs.Syntax.Recognition

/-!
# Recursive descent

The grammar read by one function for each category: a function reads a phrase from the front of the
tokens and leaves the rest. The machine of the parser never goes back, and it keeps in its state
what the functions keep in their calls. It has the same outcome on every list of tokens, the error
included.

* `Descent.sum` reads a sum, `Descent.sumLoop` what may follow its first product, and so on down to
  `Descent.primary`; what a function leaves is shorter than what it was given, so that the calls
  end. `Descent.tree` reads a sum behind which nothing is left;
* `Parser.complete` is what becomes of a state, and `complete_eq_of_productOf` and
  `complete_eq_of_sumOf` say that a state depends on what waits in it only up to the products or
  sums that are complete;
* `Descent.Follows` says that the machine follows a function, and there is one lemma for each
  function to that effect, under the same for the functions it calls;
* `parseTokens_eq_descent` is the conclusion for the parser.
-/

namespace Autodiff.Syntax

variable {α ε : Type}

/-! ## The functions -/

/-- A tree that is read from the front of some tokens, and the tokens behind it. -/
structure Front (α : Type) (tokens : List Token) where
  tree : Expr α
  rest : List Token
  shorter : rest.length < tokens.length

namespace Front

variable {tokens later : List Token}

theorem length_lt (front : Front α tokens) {token : Token} (hRest : front.rest = token :: later) :
    later.length < tokens.length := by
  have hShorter := front.shorter
  rw [hRest, List.length_cons] at hShorter
  omega

/-- The same rest of more tokens, with a tree made of the tree. -/
def within (front : Front α later) (hLe : later.length ≤ tokens.length) (f : Expr α → Expr α) :
    Front α tokens :=
  ⟨f front.tree, front.rest, Nat.lt_of_lt_of_le front.shorter hLe⟩

end Front

/-- The operator of a symbol that goes on with a sum. -/
def Symbol.sumOp? : Symbol → Option Op
  | .plus => some .add
  | .minus => some .sub
  | _ => none

/-- The operator of a symbol that goes on with a product. -/
def Symbol.productOp? : Symbol → Option Op
  | .times => some .mul
  | .divide => some .div
  | _ => none

namespace Descent

/-- Expect the closing bracket behind a sum. -/
def close (opener : Opener) {tokens : List Token} (inner : Front α tokens) :
    Except (ParseError ε) (Front α tokens) :=
  match h : inner.rest with
  | .symbol .closing :: rest => .ok ⟨opener.enclose inner.tree, rest, inner.length_lt h⟩
  | _ => .error (.unclosed opener)

mutual

def sum (scope : Scope α ε) (tokens : List Token) : Except (ParseError ε) (Front α tokens) := do
  let left ← product scope tokens
  sumLoop scope left
termination_by (tokens.length, 4)
decreasing_by
  · exact .right _ (by decide)
  · exact .left _ _ left.shorter

/-- Take operators of sums with their right operands as long as there are any. -/
def sumLoop (scope : Scope α ε) {tokens : List Token} (left : Front α tokens) :
    Except (ParseError ε) (Front α tokens) :=
  match h : left.rest with
  | .symbol sign :: later =>
    match sign.sumOp? with
    | some op => do
      let right ← product scope later
      sumLoop scope (right.within (Nat.le_of_lt (left.length_lt h)) (.binary op left.tree))
    | none => .ok left
  | _ => .ok left
termination_by (left.rest.length, 0)
decreasing_by
  · simp only [h, List.length_cons]
    exact .left _ _ (Nat.lt_succ_self _)
  · simp only [h, List.length_cons]
    exact .left _ _ (Nat.lt_succ_of_lt right.shorter)

def product (scope : Scope α ε) (tokens : List Token) :
    Except (ParseError ε) (Front α tokens) := do
  let left ← power scope tokens
  productLoop scope left
termination_by (tokens.length, 3)
decreasing_by
  · exact .right _ (by decide)
  · exact .left _ _ left.shorter

/-- Take operators of products with their right operands as long as there are any. -/
def productLoop (scope : Scope α ε) {tokens : List Token} (left : Front α tokens) :
    Except (ParseError ε) (Front α tokens) :=
  match h : left.rest with
  | .symbol sign :: later =>
    match sign.productOp? with
    | some op => do
      let right ← power scope later
      productLoop scope (right.within (Nat.le_of_lt (left.length_lt h)) (.binary op left.tree))
    | none => .ok left
  | _ => .ok left
termination_by (left.rest.length, 0)
decreasing_by
  · simp only [h, List.length_cons]
    exact .left _ _ (Nat.lt_succ_self _)
  · simp only [h, List.length_cons]
    exact .left _ _ (Nat.lt_succ_of_lt right.shorter)

def power (scope : Scope α ε) (tokens : List Token) :
    Except (ParseError ε) (Front α tokens) := do
  let base ← unary scope tokens
  match h : base.rest with
  | .symbol .power :: later => do
    let exponent ← power scope later
    return exponent.within (Nat.le_of_lt (base.length_lt h)) (.pow base.tree)
  | _ => return base
termination_by (tokens.length, 2)
decreasing_by
  · exact .right _ (by decide)
  · exact .left _ _ (base.length_lt h)

def unary (scope : Scope α ε) (tokens : List Token) :
    Except (ParseError ε) (Front α tokens) :=
  match tokens with
  | .symbol .minus :: later => do
    let operand ← unary scope later
    return operand.within (Nat.le_succ _) .neg
  | tokens => primary scope tokens
termination_by (tokens.length, 1)
decreasing_by
  · exact .left _ _ (Nat.lt_succ_self _)
  · exact .right _ (by decide)

def primary (scope : Scope α ε) (tokens : List Token) :
    Except (ParseError ε) (Front α tokens) :=
  match tokens with
  | [] => .error .unexpectedEnd
  | .symbol .opening :: later => do
    let inner ← sum scope later
    let whole ← close .bracket inner
    return whole.within (Nat.le_succ _) id
  | .symbol sign :: _ => .error (.unexpectedToken (.symbol sign))
  | .number numeral :: later =>
    match scope.convert numeral with
    | .ok value => .ok ⟨.lit value, later, Nat.lt_succ_self _⟩
    | .error cause => .error (.conversion cause)
  | .name word :: later =>
    if word = "log" ∧ later.head? = some (.symbol .opening) then do
      let inner ← sum scope later.tail
      let whole ← close .logarithm inner
      return whole.within (Nat.le_succ_of_le later.tail_sublist.length_le) id
    else do
      let leaf ← scope.leaf word
      return ⟨leaf, later, Nat.lt_succ_self _⟩
termination_by (tokens.length, 0)
decreasing_by
  · exact .left _ _ (Nat.lt_succ_self _)
  · exact .left _ _ (Nat.lt_succ_of_le later.tail_sublist.length_le)

end

/-- The tree of a list of tokens: a sum, behind which nothing is left. -/
def tree (scope : Scope α ε) (tokens : List Token) : Except (ParseError ε) (Expr α) := do
  let whole ← sum scope tokens
  match whole.rest with
  | [] => .ok whole.tree
  | token :: _ => .error (.unexpectedToken token)

end Descent

/-! ## What becomes of a state -/

/-- The outcome of the machine from a state on. -/
def Parser.complete (scope : Scope α ε) (parser : Parser α) (tokens : List Token) :
    Except (ParseError ε) (Expr α) := do
  let last ← parser.run scope tokens
  last.finish scope

/-- The tokens do not go on with an operator of the category. -/
def Category.Stops (category : Category) (tokens : List Token) : Prop :=
  ∀ sign ∈ category.continuations.erase .opening, tokens.head? ≠ some (.symbol sign)

section

variable {scope : Scope α ε} {outer : List (Frame α)} {pending other : Pending α}
  {operand operand' : Expr α} {rest later : List Token} {sign : Symbol} {op : Op}

theorem Category.stops_unary (tokens : List Token) : Category.unary.Stops tokens := by
  intro sign hMem
  cases hMem

theorem Category.stops_power (hNone : ∀ later, rest ≠ .symbol .power :: later) :
    Category.power.Stops rest := by
  intro sign hMem hHead
  obtain ⟨later, hRest⟩ := List.head?_eq_some_iff.1 hHead
  cases List.mem_singleton.1 hMem
  exact hNone later hRest

theorem Category.stops_product (hStops : Category.power.Stops rest)
    (hNone : ∀ sign later, rest = .symbol sign :: later → sign.productOp? = none) :
    Category.product.Stops rest := by
  intro sign hMem hHead
  obtain ⟨later, hRest⟩ := List.head?_eq_some_iff.1 hHead
  have hOp := hNone sign later hRest
  cases sign with
  | times | divide => cases hOp
  | power => exact hStops .power (by decide) hHead
  | plus | minus | opening | closing => exact absurd hMem (by decide)

theorem Category.stops_sum (hStops : Category.product.Stops rest)
    (hNone : ∀ sign later, rest = .symbol sign :: later → sign.sumOp? = none) :
    Category.sum.Stops rest := by
  intro sign hMem hHead
  obtain ⟨later, hRest⟩ := List.head?_eq_some_iff.1 hHead
  have hOp := hNone sign later hRest
  cases sign with
  | plus | minus => cases hOp
  | power | times | divide => exact hStops _ (by decide) hHead
  | opening | closing => exact absurd hMem (by decide)

namespace Parser

theorem complete_nil (parser : Parser α) : parser.complete scope [] = parser.finish scope := rfl

theorem complete_cons (parser : Parser α) (token : Token) (tokens : List Token) :
    parser.complete scope (token :: tokens) = (do
      let next ← parser.step scope token
      next.complete scope tokens) := by
  simp only [complete, run, List.foldlM_cons, bind_assoc]

/-- Unless a power goes on, only the product counts that an operand completes. -/
theorem complete_eq_of_productOf (hSum : pending.sum = other.sum)
    (hProduct : pending.productOf operand = other.productOf operand')
    (hStops : Category.power.Stops rest) :
    complete scope ⟨outer, pending, .operator operand⟩ rest =
      complete scope ⟨outer, other, .operator operand'⟩ rest := by
  have hSumOf : pending.sumOf operand = other.sumOf operand' := by
    rw [Pending.sumOf, Pending.sumOf, hSum, hProduct]
  cases rest with
  | nil => simp only [complete_nil, finish, close, hSumOf]
  | cons token later =>
    rw [complete_cons, complete_cons]
    cases token with
    | number | name => rfl
    | symbol sign =>
      cases sign with
      | power => exact absurd rfl (hStops .power (by decide))
      | _ =>
        simp only [step, stepOperator, leave, refuse, Pending.multiply, Pending.extend, hSum,
          hProduct, hSumOf]

/-- Unless a power or a product goes on, only the sum counts that an operand completes. -/
theorem complete_eq_of_sumOf (hSumOf : pending.sumOf operand = other.sumOf operand')
    (hStops : Category.product.Stops rest) :
    complete scope ⟨outer, pending, .operator operand⟩ rest =
      complete scope ⟨outer, other, .operator operand'⟩ rest := by
  cases rest with
  | nil => simp only [complete_nil, finish, close, hSumOf]
  | cons token later =>
    rw [complete_cons, complete_cons]
    cases token with
    | number | name => rfl
    | symbol sign =>
      cases sign with
      | power | times | divide => exact absurd rfl (hStops _ (by decide))
      | _ => simp only [step, stepOperator, leave, refuse, Pending.extend, hSumOf]

theorem complete_sumOp (hRest : rest = .symbol sign :: later) (hOp : sign.sumOp? = some op) :
    complete scope ⟨outer, pending, .operator operand⟩ rest =
      complete scope ⟨outer, pending.extend op operand, .operand 0⟩ later := by
  subst hRest
  cases sign <;> cases hOp <;> exact complete_cons ..

theorem complete_productOp (hRest : rest = .symbol sign :: later)
    (hOp : sign.productOp? = some op) :
    complete scope ⟨outer, pending, .operator operand⟩ rest =
      complete scope ⟨outer, pending.multiply op operand, .operand 0⟩ later := by
  subst hRest
  cases sign <;> cases hOp <;> exact complete_cons ..

/-- The name of the logarithm is a variable where no bracket makes it a call. -/
theorem complete_name {word : String} {negations : Nat}
    (hCall : ¬ (word = "log" ∧ later.head? = some (.symbol .opening))) :
    complete scope ⟨outer, pending, .operand negations⟩ (.name word :: later) = (do
      let leaf ← scope.leaf word
      complete scope ⟨outer, pending, .operator (negated negations leaf)⟩ later) := by
  rw [complete_cons]
  by_cases hLog : word = "log"
  · subst hLog
    cases later with
    | nil => rfl
    | cons token later =>
      have hToken : token ≠ .symbol .opening := by
        rintro rfl
        exact hCall ⟨rfl, rfl⟩
      have hStep (leaf : Expr α) :
          (stepOperator ⟨outer, pending, .logarithm negations⟩ leaf token :
              Except (ParseError ε) _) =
            stepOperator ⟨outer, pending, .operator leaf⟩ leaf token := by
        cases token with
        | number | name => rfl
        | symbol sign => cases sign <;> rfl
      simp only [step, stepOperand, if_pos, ok_bind, complete_cons, if_neg hToken, bind_assoc,
        hStep]
  · simp only [step, stepOperand, if_neg hLog, bind_assoc, pure_bind]

end Parser

end

/-! ## The machine follows the functions -/

namespace Descent

/-- The machine has the outcome of a function that reads a phrase: it fails with the same error, or
it gets to a state that depends on the tree, and the rest does not go on with the category. -/
def Follows (scope : Scope α ε) (category : Category) (before : Parser α)
    (after : Expr α → Parser α) (input : List Token) {tokens : List Token} :
    Except (ParseError ε) (Front α tokens) → Prop
  | .error cause => before.complete scope input = .error cause
  | .ok found => before.complete scope input = (after found.tree).complete scope found.rest ∧
      category.Stops found.rest

section

variable {scope : Scope α ε} {category : Category} {before : Parser α}
  {after middle : Expr α → Parser α} {input tokens : List Token}

theorem Follows.of_eq {other : Parser α} {input' : List Token}
    {outcome : Except (ParseError ε) (Front α tokens)}
    (hEq : before.complete scope input = other.complete scope input')
    (h : Follows scope category other after input' outcome) :
    Follows scope category before after input outcome := by
  cases outcome with
  | error cause => exact hEq.trans h
  | ok found => exact ⟨hEq.trans h.1, h.2⟩

theorem Follows.bind {category' : Category} {shorter : List Token}
    {first : Except (ParseError ε) (Front α shorter)}
    {next : Front α shorter → Except (ParseError ε) (Front α tokens)}
    (hFirst : Follows scope category' before middle input first)
    (hNext : ∀ found, category'.Stops found.rest →
      Follows scope category (middle found.tree) after found.rest (next found)) :
    Follows scope category before after input (first >>= next) := by
  cases first with
  | error cause => exact hFirst
  | ok found => exact (hNext found hFirst.2).of_eq hFirst.1

/-! ### What is said of each function -/

variable (scope)

/-- A sum is read where nothing waits on the level. -/
def FollowsSum (tokens : List Token) : Prop :=
  ∀ outer : List (Frame α), Follows scope .sum ⟨outer, .empty, .operand 0⟩
    (fun tree => ⟨outer, .empty, .operator tree⟩) tokens (sum scope tokens)

def FollowsSumLoop (left : Front α tokens) : Prop :=
  Category.product.Stops left.rest → ∀ outer : List (Frame α),
    Follows scope .sum ⟨outer, .empty, .operator left.tree⟩
      (fun tree => ⟨outer, .empty, .operator tree⟩) left.rest (sumLoop scope left)

/-- A product is read where at most a sum waits. -/
def FollowsProduct (tokens : List Token) : Prop :=
  ∀ (outer : List (Frame α)) (waiting : Option (Expr α × Op)),
    Follows scope .product ⟨outer, ⟨waiting, none, []⟩, .operand 0⟩
      (fun tree => ⟨outer, ⟨waiting, none, []⟩, .operator tree⟩) tokens (product scope tokens)

def FollowsProductLoop (left : Front α tokens) : Prop :=
  Category.power.Stops left.rest → ∀ (outer : List (Frame α)) (waiting : Option (Expr α × Op)),
    Follows scope .product ⟨outer, ⟨waiting, none, []⟩, .operator left.tree⟩
      (fun tree => ⟨outer, ⟨waiting, none, []⟩, .operator tree⟩) left.rest (productLoop scope left)

/-- A power is read whatever waits, and then the powers are complete. -/
def FollowsPower (tokens : List Token) : Prop :=
  ∀ (outer : List (Frame α)) (pending : Pending α),
    Follows scope .power ⟨outer, pending, .operand 0⟩
      (fun tree => ⟨outer, ⟨pending.sum, pending.product, []⟩, .operator (pending.power tree)⟩)
      tokens (power scope tokens)

/-- What a function reads gets the minus signs in front of it, whatever waits. -/
def FollowsOperand (tokens : List Token) (outcome : Except (ParseError ε) (Front α tokens)) :
    Prop :=
  ∀ (outer : List (Frame α)) (pending : Pending α) (negations : Nat),
    Follows scope .unary ⟨outer, pending, .operand negations⟩
      (fun tree => ⟨outer, pending, .operator (negated negations tree)⟩) tokens outcome

variable {scope}

/-! ### One lemma for each function -/

theorem followsSum_of_product (hProduct : FollowsProduct scope tokens)
    (hLoop : ∀ left : Front α tokens, FollowsSumLoop scope left) : FollowsSum scope tokens := by
  intro outer
  rw [sum]
  exact (hProduct outer none).bind fun left hStops => hLoop left hStops outer

theorem followsSumLoop_of_op {left : Front α tokens} {sign : Symbol} {later : List Token} {op : Op}
    (hRest : left.rest = .symbol sign :: later) (hOp : sign.sumOp? = some op)
    (hProduct : FollowsProduct scope later)
    (hLoop : ∀ right : Front α later, FollowsSumLoop scope
      (right.within (Nat.le_of_lt (left.length_lt hRest)) (.binary op left.tree))) :
    FollowsSumLoop scope left := by
  intro _ outer
  refine .of_eq (Parser.complete_sumOp hRest hOp) ?_
  rw [sumLoop]
  split
  · next found after hFound =>
    cases hRest.symm.trans hFound
    simp only [hOp]
    refine (hProduct outer (some (left.tree, op))).bind fun right hStops => ?_
    -- the operand completes the sum, with which the loop goes on
    refine .of_eq ?_ (hLoop right hStops outer)
    exact Parser.complete_eq_of_sumOf rfl hStops
  · next hNone => exact absurd hRest (hNone sign later)

theorem followsSumLoop_of_none {left : Front α tokens}
    (hNone : ∀ sign later, left.rest = .symbol sign :: later → sign.sumOp? = none) :
    FollowsSumLoop scope left := by
  intro hStops outer
  have hEnd : sumLoop scope left = .ok left := by
    rw [sumLoop]
    split
    · next sign later hRest => simp only [hNone sign later hRest]
    · rfl
  rw [hEnd]
  exact ⟨rfl, Category.stops_sum hStops hNone⟩

theorem followsProduct_of_power (hPower : FollowsPower scope tokens)
    (hLoop : ∀ left : Front α tokens, FollowsProductLoop scope left) :
    FollowsProduct scope tokens := by
  intro outer waiting
  rw [product]
  exact (hPower outer ⟨waiting, none, []⟩).bind fun left hStops => hLoop left hStops outer waiting

theorem followsProductLoop_of_op {left : Front α tokens} {sign : Symbol} {later : List Token}
    {op : Op} (hRest : left.rest = .symbol sign :: later) (hOp : sign.productOp? = some op)
    (hPower : FollowsPower scope later)
    (hLoop : ∀ right : Front α later, FollowsProductLoop scope
      (right.within (Nat.le_of_lt (left.length_lt hRest)) (.binary op left.tree))) :
    FollowsProductLoop scope left := by
  intro _ outer waiting
  refine .of_eq (Parser.complete_productOp hRest hOp) ?_
  rw [productLoop]
  split
  · next found after hFound =>
    cases hRest.symm.trans hFound
    simp only [hOp]
    refine (hPower outer ⟨waiting, some (left.tree, op), []⟩).bind fun right hStops => ?_
    refine .of_eq ?_ (hLoop right hStops outer waiting)
    exact Parser.complete_eq_of_productOf rfl rfl hStops
  · next hNone => exact absurd hRest (hNone sign later)

theorem followsProductLoop_of_none {left : Front α tokens}
    (hNone : ∀ sign later, left.rest = .symbol sign :: later → sign.productOp? = none) :
    FollowsProductLoop scope left := by
  intro hStops outer waiting
  have hEnd : productLoop scope left = .ok left := by
    rw [productLoop]
    split
    · next sign later hRest => simp only [hNone sign later hRest]
    · rfl
  rw [hEnd]
  exact ⟨rfl, Category.stops_product hStops hNone⟩

theorem followsPower_of_unary (hUnary : FollowsOperand scope tokens (unary scope tokens))
    (hPower : ∀ (base : Front α tokens) (later : List Token),
      base.rest = .symbol .power :: later → FollowsPower scope later) :
    FollowsPower scope tokens := by
  intro outer pending
  rw [power]
  refine (hUnary outer pending 0).bind fun base _ => ?_
  split
  · next later hRest =>
    have hStep : Parser.complete scope ⟨outer, pending, .operator base.tree⟩ base.rest =
        Parser.complete scope ⟨outer, pending.raise base.tree, .operand 0⟩ later := by
      rw [hRest]
      exact Parser.complete_cons ..
    exact .of_eq hStep ((hPower base later hRest outer (pending.raise base.tree)).bind
      fun exponent hStops => ⟨rfl, hStops⟩)
  · next hNone =>
    have hStops : Category.power.Stops base.rest := Category.stops_power hNone
    exact ⟨Parser.complete_eq_of_productOf rfl rfl hStops, hStops⟩

theorem followsOperand_minus (hUnary : FollowsOperand scope tokens (unary scope tokens)) :
    FollowsOperand scope (.symbol .minus :: tokens) (unary scope (.symbol .minus :: tokens)) := by
  intro outer pending negations
  rw [unary]
  refine .of_eq (Parser.complete_cons ..) ((hUnary outer pending (negations + 1)).bind ?_)
  intro operand hStops
  refine ⟨?_, hStops⟩
  simp only [Front.within, negated_neg]

theorem followsOperand_of_primary (hNone : ∀ later, tokens ≠ .symbol .minus :: later)
    (hPrimary : FollowsOperand scope tokens (primary scope tokens)) :
    FollowsOperand scope tokens (unary scope tokens) := by
  have hSame : unary scope tokens = primary scope tokens := by
    rw [unary]
    exact hNone
  rw [hSame]
  exact hPrimary

/-- Behind a sum the machine leaves the bracket or fails, as the function that expects it. -/
theorem follows_close (opener : Opener) (outer : List (Frame α)) (pending : Pending α)
    (negations : Nat) (inner : Front α tokens) (hStops : Category.sum.Stops inner.rest) :
    Follows scope .unary ⟨⟨opener, pending, negations⟩ :: outer, .empty, .operator inner.tree⟩
      (fun tree => ⟨outer, pending, .operator (negated negations tree)⟩) inner.rest
      (close opener inner) := by
  obtain ⟨inner, rest, shorter⟩ := inner
  cases rest with
  | nil => rfl
  | cons token later =>
    cases token with
    | number | name => rfl
    | symbol sign =>
      cases sign with
      | closing =>
        refine ⟨?_, Category.stops_unary _⟩
        rw [Parser.complete_cons]
        cases opener <;> rfl
      | opening => rfl
      | _ => exact absurd rfl (hStops _ (by decide))

theorem followsOperand_bracket (hSum : FollowsSum scope tokens) :
    FollowsOperand scope (.symbol .opening :: tokens)
      (primary scope (.symbol .opening :: tokens)) := by
  intro outer pending negations
  rw [primary]
  refine .of_eq (Parser.complete_cons ..)
    ((hSum (⟨.bracket, pending, negations⟩ :: outer)).bind fun inner hInner => ?_)
  exact (follows_close .bracket outer pending negations inner hInner).bind
    fun whole hWhole => ⟨rfl, hWhole⟩

theorem followsOperand_symbol {sign : Symbol} (hOpening : sign ≠ .opening) (hMinus : sign ≠ .minus)
    (later : List Token) :
    FollowsOperand scope (.symbol sign :: later) (primary scope (.symbol sign :: later)) := by
  intro outer pending negations
  have hEnd : primary scope (.symbol sign :: later) = .error (.unexpectedToken (.symbol sign)) := by
    rw [primary]
    exact hOpening
  rw [hEnd]
  refine (Parser.complete_cons ..).trans ?_
  cases sign with
  | minus => exact absurd rfl hMinus
  | opening => exact absurd rfl hOpening
  | _ => rfl

theorem followsOperand_number (numeral : String) (later : List Token) :
    FollowsOperand scope (.number numeral :: later) (primary scope (.number numeral :: later)) := by
  intro outer pending negations
  rw [primary]
  cases hValue : scope.convert numeral with
  | error cause =>
    refine (Parser.complete_cons ..).trans ?_
    simp only [Parser.step, Parser.stepOperand, hValue, error_bind]
  | ok value =>
    refine ⟨(Parser.complete_cons ..).trans ?_, Category.stops_unary _⟩
    simp only [Parser.step, Parser.stepOperand, hValue, ok_bind]

theorem followsOperand_call (hSum : FollowsSum scope tokens) :
    FollowsOperand scope (.name "log" :: .symbol .opening :: tokens)
      (primary scope (.name "log" :: .symbol .opening :: tokens)) := by
  intro outer pending negations
  rw [primary, if_pos ⟨rfl, rfl⟩]
  have hEnter : Parser.complete scope ⟨outer, pending, .operand negations⟩
      (.name "log" :: .symbol .opening :: tokens) =
      Parser.complete scope ⟨⟨.logarithm, pending, negations⟩ :: outer, .empty, .operand 0⟩
        tokens :=
    (Parser.complete_cons ..).trans (Parser.complete_cons ..)
  refine .of_eq hEnter
    ((hSum (⟨.logarithm, pending, negations⟩ :: outer)).bind fun inner hInner => ?_)
  exact (follows_close .logarithm outer pending negations inner hInner).bind
    fun whole hWhole => ⟨rfl, hWhole⟩

theorem followsOperand_leaf {word : String} {later : List Token}
    (hCall : ¬ (word = "log" ∧ later.head? = some (.symbol .opening))) :
    FollowsOperand scope (.name word :: later) (primary scope (.name word :: later)) := by
  intro outer pending negations
  rw [primary, if_neg hCall]
  cases hLeaf : scope.leaf word with
  | error cause =>
    refine (Parser.complete_name hCall).trans ?_
    rw [hLeaf, error_bind]
  | ok leaf =>
    refine ⟨(Parser.complete_name hCall).trans ?_, Category.stops_unary _⟩
    rw [hLeaf, ok_bind]

/-! ### All functions -/

/-- The machine follows the function that reads a sum. -/
theorem followsSum (scope : Scope α ε) (tokens : List Token) : FollowsSum scope tokens := by
  refine sum.induct scope (FollowsSum scope) (fun _ left => FollowsSumLoop scope left)
    (FollowsProduct scope) (fun _ left => FollowsProductLoop scope left) (FollowsPower scope)
    (fun tokens => FollowsOperand scope tokens (unary scope tokens))
    (fun tokens => (∀ later, tokens ≠ .symbol .minus :: later) →
      FollowsOperand scope tokens (primary scope tokens))
    ?sum ?sumOp ?sumOther ?sumEnd ?product ?productOp ?productOther ?productEnd ?power ?minus
    ?primary ?nothing ?bracket ?symbol ?number ?refused ?call ?leaf tokens
  case sum => exact fun tokens => followsSum_of_product
  case sumOp => exact fun tokens left sign later hRest op hOp => followsSumLoop_of_op hRest hOp
  case sumOther =>
    intro tokens left sign later hRest hOp
    refine followsSumLoop_of_none fun found after hFound => ?_
    cases hRest.symm.trans hFound
    exact hOp
  case sumEnd =>
    exact fun tokens left hNone => followsSumLoop_of_none fun sign later hRest =>
      (hNone sign later hRest).elim
  case product => exact fun tokens => followsProduct_of_power
  case productOp =>
    exact fun tokens left sign later hRest op hOp => followsProductLoop_of_op hRest hOp
  case productOther =>
    intro tokens left sign later hRest hOp
    refine followsProductLoop_of_none fun found after hFound => ?_
    cases hRest.symm.trans hFound
    exact hOp
  case productEnd =>
    exact fun tokens left hNone => followsProductLoop_of_none fun sign later hRest =>
      (hNone sign later hRest).elim
  case power => exact fun tokens => followsPower_of_unary
  case minus => exact fun later => followsOperand_minus
  case primary =>
    exact fun tokens hNone hPrimary => followsOperand_of_primary hNone (hPrimary hNone)
  case nothing =>
    intro _ outer pending negations
    rw [primary]
    rfl
  case bracket => exact fun later hSum _ => followsOperand_bracket hSum
  case symbol =>
    intro sign later hOpening hMinus
    refine followsOperand_symbol hOpening ?_ later
    rintro rfl
    exact hMinus later rfl
  case number => exact fun numeral later _ _ _ => followsOperand_number numeral later
  case refused => exact fun numeral later _ _ _ => followsOperand_number numeral later
  case call =>
    rintro word later ⟨rfl, hHead⟩ hSum _
    obtain ⟨after, rfl⟩ := List.head?_eq_some_iff.1 hHead
    exact followsOperand_call hSum
  case leaf => exact fun word later hCall _ => followsOperand_leaf hCall

end

end Descent

/-! ## The parser -/

/-- The parser has the outcome of the recursive descent. -/
theorem parseTokens_eq_descent (scope : Scope α ε) (tokens : List Token) :
    parseTokens scope tokens = Descent.tree scope tokens := by
  have hFollows := Descent.followsSum scope tokens []
  have hStart : parseTokens scope tokens = Parser.start.complete scope tokens := rfl
  rw [hStart, Descent.tree]
  cases hSum : Descent.sum scope tokens with
  | error cause =>
    rw [hSum] at hFollows
    exact hFollows
  | ok whole =>
    rw [hSum] at hFollows
    obtain ⟨hComplete, hStops⟩ := hFollows
    refine Eq.trans hComplete ?_
    obtain ⟨tree, rest, shorter⟩ := whole
    cases rest with
    | nil => rfl
    | cons token later =>
      rw [Parser.complete_cons]
      cases token with
      | number | name => rfl
      | symbol sign =>
        cases sign with
        | opening | closing => rfl
        | _ => exact absurd rfl (hStops _ (by decide))

end Autodiff.Syntax
