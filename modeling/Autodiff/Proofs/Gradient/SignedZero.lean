import Autodiff.Proofs.Capability.SignedZero
import Autodiff.Proofs.Gradient.Congruence
import Autodiff.Proofs.Gradient.Contribution
import Autodiff.Proofs.Gradient.Results
import Autodiff.Proofs.Sequence

/-!
# Negative zeros in gradients

A contribution to an entry may be a negative zero: a product of the adjoint with a negative zero, or
one that is too small. The entry itself starts at zero, and a sum of two numbers is a negative zero
only if both are. So no entry in an interchange width or in decimal arithmetic is one. In builtin
arithmetic the sum so far may be converted to the width of an amount, and there it may become one.

* `Arithmetic.KeepsAdjoints` are classes that the values of all contributions belong to, by
  `ValueIn.contributions`;
* `SumsTo` is the value of an entry, and `AddedTo` a step on the way to it;
* `everyEntry_of_step` carries what a step keeps over to the entries of a gradient;
* `Ieee.noNegativeZero_of_gradient` and `Decimal.noNegativeZero_of_gradient` do so for signs;
* `Builtin.exists_losesSign` finds the step that turns a builtin sum into a negative zero;
* `negative_zeros_of_gradient` puts all this together.
-/

namespace Autodiff

variable {α ε : Type}

/-! ## Classes of adjoints -/

/-- The adjoint of the root is in a class, and what a node hands down is if the adjoint of the node
is. -/
structure Arithmetic.KeepsAdjoints (num : Arithmetic α ε) (A : α → Prop) : Prop where
  one : ∀ {result : α}, num.ofInt 1 = .ok result → A result
  mul : ∀ {adjoint factor result : α}, A adjoint → num.mul adjoint factor = .ok result → A result
  div : ∀ {adjoint divisor result : α}, A adjoint → num.div adjoint divisor = .ok result → A result
  negate : ∀ {adjoint result : α}, A adjoint → num.negate adjoint = .ok result → A result

namespace Expr

variable {num : Arithmetic α ε} {A : α → Prop}

/-- The value of a tree is in a class, if it has one. -/
def ValueIn (num : Arithmetic α ε) (A : α → Prop) (expr : Expr α) : Prop :=
  ∀ value, expr.evaluate num = .ok value → A value

namespace ValueIn

variable {adjoint : Expr α}

theorem mul (hKeeps : num.KeepsAdjoints A) (hAdjoint : adjoint.ValueIn num A) (factor : Expr α) :
    (mul adjoint factor).ValueIn num A := by
  intro value hValue
  simp only [evaluate, bind_eq_ok_iff, Fault.lift_eq_ok_iff] at hValue
  obtain ⟨x, hX, y, -, hMul⟩ := hValue
  exact hKeeps.mul (hAdjoint x hX) hMul

theorem div (hKeeps : num.KeepsAdjoints A) (hAdjoint : adjoint.ValueIn num A) (divisor : Expr α) :
    (div adjoint divisor).ValueIn num A := by
  intro value hValue
  simp only [evaluate, bind_eq_ok_iff, Fault.lift_eq_ok_iff] at hValue
  obtain ⟨x, hX, y, -, hDiv⟩ := hValue
  exact hKeeps.div (hAdjoint x hX) hDiv

theorem neg (hKeeps : num.KeepsAdjoints A) (hAdjoint : adjoint.ValueIn num A) :
    (neg adjoint).ValueIn num A := by
  intro value hValue
  simp only [evaluate, bind_eq_ok_iff, Fault.lift_eq_ok_iff] at hValue
  obtain ⟨zero, hZero, x, hX, hSub⟩ := hValue
  exact hKeeps.negate (hAdjoint x hX) (Arithmetic.negate_eq_ok_iff.2 ⟨zero, hZero, hSub⟩)

theorem leftTerm (hKeeps : num.KeepsAdjoints A) (op : Op) (left right : Expr α)
    (hAdjoint : adjoint.ValueIn num A) : (leftTerm op left right adjoint).ValueIn num A := by
  cases op with
  | add | sub => exact hAdjoint
  | mul | pow => exact hAdjoint.mul hKeeps _
  | div => exact hAdjoint.div hKeeps _

theorem rightTerm (hKeeps : num.KeepsAdjoints A) (op : Op) (left right : Expr α)
    (hAdjoint : adjoint.ValueIn num A) : (rightTerm op left right adjoint).ValueIn num A := by
  cases op with
  | add => exact hAdjoint
  | sub => exact hAdjoint.neg hKeeps
  | mul | pow => exact hAdjoint.mul hKeeps _
  | div => exact ((hAdjoint.mul hKeeps _).div hKeeps _).neg hKeeps

theorem operandTerm (hKeeps : num.KeepsAdjoints A) (fn : Fn) (operand : Expr α)
    (hAdjoint : adjoint.ValueIn num A) : (operandTerm fn operand adjoint).ValueIn num A := by
  cases fn with
  | neg => exact hAdjoint.neg hKeeps
  | log => exact hAdjoint.div hKeeps _

theorem contributions (hKeeps : num.KeepsAdjoints A) (expr : Expr α)
    (hAdjoint : adjoint.ValueIn num A) :
    ∀ term ∈ expr.contributions adjoint, term.2.ValueIn num A := by
  induction expr generalizing adjoint with
  | var id data =>
    intro term hMem
    cases List.mem_singleton.1 hMem
    exact hAdjoint
  | lit | const | foreign =>
    intro term hMem
    cases hMem
  | binary op left right ihLeft ihRight =>
    rw [contributions_binary, List.forall_mem_append]
    exact ⟨ihLeft (hAdjoint.leftTerm hKeeps op left right),
      ihRight (hAdjoint.rightTerm hKeeps op left right)⟩
  | unary fn operand ih =>
    rw [contributions_unary]
    exact ih (hAdjoint.operandTerm hKeeps fn operand)

end ValueIn

/-- What holds of the value of every term holds of every amount. -/
theorem property_of_evaluateAll {terms : List (String × Expr α)} {amounts : List (String × α)}
    (hAmounts : evaluateAll num terms = .ok amounts)
    (hTerms : ∀ term ∈ terms, term.2.ValueIn num A) {id : String} :
    ∀ amount ∈ valuesOf id amounts, A amount := by
  intro amount hMem
  obtain ⟨pair, hPair, hAmount⟩ := List.mem_filterMap.1 hMem
  split at hAmount
  · cases hAmount
    obtain ⟨term, hTerm, hValue⟩ := exists_of_forall₂ (mapM_eq_ok_iff.1 hAmounts).flip hPair
    obtain ⟨value, hEvaluate, hPure⟩ := bind_eq_ok_iff.1 hValue
    cases hPure
    exact hTerms term hTerm value hEvaluate
  · cases hAmount

/-! ## Entries as sums -/

/-- The sum of some values, added to zero one after the other. -/
def SumsTo (num : Arithmetic α ε) (values : List α) (sum : α) : Prop :=
  ∃ zero, num.ofInt 0 = .ok zero ∧ values.foldlM num.add zero = .ok sum

/-- One of some values and the sum that it is added to. -/
def AddedTo (num : Arithmetic α ε) (values : List α) (sum amount : α) : Prop :=
  ∃ before after, values = before ++ amount :: after ∧ SumsTo num before sum

theorem AddedTo.mem {values : List α} {sum amount : α} (hAdded : AddedTo num values sum amount) :
    amount ∈ values := by
  obtain ⟨before, after, rfl, -⟩ := hAdded
  simp

/-- An entry of a gradient is the sum of the values of the contributions with its id. -/
theorem exists_sums_of_gradient {expr : Expr α} {grads : IdMap α}
    (hGradient : expr.gradient num = .ok grads) :
    ∃ amounts, evaluateAll num (expr.contributions (const 1)) = .ok amounts ∧
      ∀ id value, grads.get? id = some value → SumsTo num (valuesOf id amounts) value := by
  obtain ⟨one, hOne, hRun⟩ := (gradient_eq_ok_iff num expr grads).1 hGradient
  obtain ⟨amounts, hAmounts, hAdded⟩ := addAmounts_of_gradientFrom hOne hRun
  refine ⟨amounts, hAmounts, fun id value hValue => ?_⟩
  have hSum := entrySum_of_addAmounts hAdded id
  rw [hValue] at hSum
  cases hValues : valuesOf id amounts with
  | nil =>
    rw [hValues] at hSum
    cases hSum
  | cons amount rest =>
    rw [hValues] at hSum
    obtain ⟨zero, total, hZero, hTotal, hSome⟩ := hSum
    cases hSome
    exact ⟨zero, hZero, hTotal⟩

section Steps

variable {P : α → Prop} {values : List α}

/-- If zero has a property and a sum has lost it, then one of the values was added to a sum that
had it, with a result that has not. -/
theorem SumsTo.exists_step {total : α} (hSum : SumsTo num values total)
    (hZero : ∀ zero, num.ofInt 0 = .ok zero → P zero) (hTotal : ¬ P total) :
    ∃ sum amount next, AddedTo num values sum amount ∧ P sum ∧ num.add sum amount = .ok next ∧
      ¬ P next := by
  obtain ⟨zero, hInt, hFold⟩ := hSum
  obtain ⟨before, amount, after, sum, next, rfl, hBefore, hKept, hAdd, hLost⟩ :=
    exists_step_of_foldlM hFold (hZero zero hInt) hTotal
  exact ⟨sum, amount, next, ⟨before, after, rfl, zero, hInt, hBefore⟩, hKept, hAdd, hLost⟩

theorem SumsTo.property {sum : α} (hSum : SumsTo num values sum)
    (hZero : ∀ zero, num.ofInt 0 = .ok zero → P zero)
    (hStep : ∀ sum amount next, P sum → amount ∈ values → num.add sum amount = .ok next → P next) :
    P sum := by
  obtain ⟨zero, hInt, hFold⟩ := hSum
  exact property_of_foldlM hFold (hZero zero hInt) hStep

/-- What holds of zero and is kept when an adjoint is added holds of every entry. -/
theorem everyEntry_of_step (hKeeps : num.KeepsAdjoints A)
    (hZero : ∀ zero, num.ofInt 0 = .ok zero → P zero)
    (hStep : ∀ sum amount next, P sum → A amount → num.add sum amount = .ok next → P next)
    {expr : Expr α} {grads : IdMap α} (hGradient : expr.gradient num = .ok grads) :
    EveryEntry P grads := by
  intro id value hValue
  obtain ⟨amounts, hAmounts, hSums⟩ := exists_sums_of_gradient hGradient
  have hRoot : (const 1).ValueIn num A := fun one hOne => hKeeps.one (Fault.lift_eq_ok_iff.1 hOne)
  have hMem : ∀ amount ∈ valuesOf id amounts, A amount :=
    property_of_evaluateAll hAmounts (hRoot.contributions hKeeps expr)
  exact (hSums id value hValue).property hZero fun sum amount next hSum hAmount =>
    hStep sum amount next hSum (hMem amount hAmount)

end Steps

/-- No entry is a negative zero. -/
def NoNegativeZero (grads : IdMap Scalar) : Prop :=
  EveryEntry (fun value => value.isNegativeZero = false) grads

end Expr

/-! ## The capabilities -/

variable {library : Library}

namespace Ieee

variable {width : Width} {expr : Expr Scalar} {grads : IdMap Scalar}

theorem isNegativeZero_ofInt_zero {zero : Scalar}
    (hZero : (arithmetic library width).ofInt 0 = .ok zero) :
    ∃ x, zero = .ieee width x ∧ x.isNegativeZero = false := by
  cases width <;> cases hZero <;> exact ⟨_, rfl, rfl⟩

theorem noNegativeZero_of_gradient
    (hGradient : expr.gradient (arithmetic library width) = .ok grads) :
    Expr.NoNegativeZero grads := by
  have hKeeps : (arithmetic library width).KeepsAdjoints fun _ => True :=
    ⟨fun _ => trivial, fun _ _ => trivial, fun _ _ => trivial, fun _ _ => trivial⟩
  have hEntries : Expr.EveryEntry
      (fun value => ∃ x, value = .ieee width x ∧ x.isNegativeZero = false) grads := by
    refine Expr.everyEntry_of_step hKeeps (fun _ => isNegativeZero_ofInt_zero) ?_ hGradient
    rintro _ amount next ⟨x, rfl, hX⟩ - hAdd
    obtain ⟨a, b, z, hA, -, rfl, hZ⟩ := combine_add_eq_ok hAdd
    obtain ⟨a', hA', hSign⟩ := Scalar.toWidth_ieee (le_refl width.format.minExp) x
    cases hA.symm.trans hA'
    exact ⟨z, rfl, by rw [hZ, hSign, hX, Bool.false_and]⟩
  intro id value hValue
  obtain ⟨x, rfl, hX⟩ := hEntries id value hValue
  exact hX

end Ieee

namespace Decimal

theorem keepsAdjoints_isInPlace : arithmetic.KeepsAdjoints Scalar.IsInPlace where
  one hOne := by
    cases hOne
    exact inPlace_ofInt 1
  mul _ hMul := isInPlace_of_combine (by decide) hMul
  div _ hDiv := isInPlace_of_combine (by decide) hDiv
  negate _ hNegate := by
    obtain ⟨zero, -, hSub⟩ := Arithmetic.negate_eq_ok_iff.1 hNegate
    exact isInPlace_of_combine (by decide) hSub

theorem noNegativeZero_of_gradient {expr : Expr Scalar} {grads : IdMap Scalar}
    (hGradient : expr.gradient arithmetic = .ok grads) : Expr.NoNegativeZero grads := by
  have hEntries : Expr.EveryEntry (fun value => value.IsInPlace ∧ value.isNegativeZero = false)
      grads := by
    refine Expr.everyEntry_of_step keepsAdjoints_isInPlace ?_ ?_ hGradient
    · intro zero hZero
      cases hZero
      exact ⟨inPlace_ofInt 0, rfl⟩
    · rintro sum amount next ⟨hPlace, hSign⟩ hAmount hAdd
      refine ⟨isInPlace_of_combine (by decide) hAdd, ?_⟩
      rw [isNegativeZero_combine_add hPlace hAmount hAdd, hSign, Bool.false_and]
  exact fun id value hValue => (hEntries id value hValue).2

end Decimal

namespace Builtin

theorem isReal_of_ofInt {n : Int} {x : Scalar} (hInt : (arithmetic library).ofInt n = .ok x) :
    x.IsReal := by
  obtain ⟨_, -, hPure⟩ := bind_eq_ok_iff.1 hInt
  cases hPure
  trivial

theorem keepsAdjoints_isReal : (arithmetic library).KeepsAdjoints Scalar.IsReal where
  one hOne := isReal_of_ofInt hOne
  mul hAdjoint hMul := isReal_of_combine hAdjoint hMul
  div hAdjoint hDiv := isReal_of_combine hAdjoint hDiv
  negate _ hNegate := by
    obtain ⟨zero, hZero, hSub⟩ := Arithmetic.negate_eq_ok_iff.1 hNegate
    exact isReal_of_combine (isReal_of_ofInt hZero) hSub

theorem isReal_of_sumsTo {values : List Scalar} {sum : Scalar}
    (hSum : Expr.SumsTo (arithmetic library) values sum) : sum.IsReal :=
  hSum.property (fun _ => isReal_of_ofInt) fun _ _ _ hReal _ hAdd => isReal_of_combine hReal hAdd

/-- A sum of numbers is a negative zero only if it became one when a negative zero of a narrow width
was added to a small negative double. -/
theorem exists_losesSign {values : List Scalar} (hValues : ∀ amount ∈ values, amount.IsReal)
    {total : Scalar} (hTotal : Expr.SumsTo (arithmetic library) values total)
    (hSign : total.isNegativeZero = true) :
    ∃ sum amount, Expr.AddedTo (arithmetic library) values sum amount ∧ LosesSign sum amount := by
  have hZero : ∀ zero, (arithmetic library).ofInt 0 = .ok zero → zero.isNegativeZero = false := by
    intro zero hInt
    cases hInt
    rfl
  obtain ⟨sum, amount, next, hAdded, hKept, hAdd, hLost⟩ :=
    hTotal.exists_step hZero (by rw [Bool.not_eq_false]; exact hSign)
  refine ⟨sum, amount, hAdded, ?_⟩
  have hAmount := hValues amount hAdded.mem
  obtain ⟨before, after, -, hSum⟩ := hAdded
  rw [Bool.not_eq_false] at hLost
  exact (isNegativeZero_add_iff (isReal_of_sumsTo hSum) hAmount hKept hAdd).1 hLost

/-- Where no datum is of a narrow width, no contribution is. -/
theorem isNarrow_of_contributions {expr : Expr Scalar}
    (hData : expr.DataIn fun datum => datum.isNarrow = false) :
    ∀ term ∈ expr.contributions (.const 1),
      term.2.ValueIn (arithmetic library) fun value => value.isNarrow = false := by
  intro term hMem value hValue
  have hRoot : (Expr.const 1).DataIn fun datum : Scalar => datum.isNarrow = false := trivial
  have hTerm : term.2.DataIn fun datum => datum.isNarrow = false :=
    Expr.everyLeaf_contributions trivial hData hRoot term hMem
  have hRelated := (Expr.related_eq term.2).mp hTerm hTerm
    fun _ _ hWide _ hEq => (⟨hEq, hWide⟩ : _ = _ ∧ _)
  obtain ⟨_, -, -, hWide⟩ := hRelated.evaluate (wide_simulatedBy library) hValue
  exact hWide

end Builtin

/-! ## Negative zeros -/

namespace Expr

/-- In an interchange width and in decimal arithmetic no entry of a gradient is a negative zero. A
builtin entry is the sum of its contributions, from left to right. While it is no negative zero, an
addition makes it one exactly if the sum so far is a small negative double and a negative zero of a
narrow width is added; so an entry that is one has such an addition behind it. If no datum of the
tree is of a narrow width, no builtin entry is a negative zero either. -/
theorem negative_zeros_of_gradient (library : Library) (expr : Expr Scalar)
    (grads : IdMap Scalar) :
    (∀ width, expr.gradient (Ieee.arithmetic library width) = .ok grads → NoNegativeZero grads) ∧
    (expr.gradient Decimal.arithmetic = .ok grads → NoNegativeZero grads) ∧
    (expr.gradient (Builtin.arithmetic library) = .ok grads →
      (expr.DataIn (fun datum => datum.isNarrow = false) → NoNegativeZero grads) ∧
      ∃ amounts,
        evaluateAll (Builtin.arithmetic library) (expr.contributions (const 1)) = .ok amounts ∧
        (∀ id value, grads.get? id = some value →
          SumsTo (Builtin.arithmetic library) (valuesOf id amounts) value ∧
          (value.isNegativeZero = true → ∃ sum amount,
            AddedTo (Builtin.arithmetic library) (valuesOf id amounts) sum amount ∧
            Builtin.LosesSign sum amount)) ∧
        ∀ id sum amount next,
          AddedTo (Builtin.arithmetic library) (valuesOf id amounts) sum amount →
          (Builtin.arithmetic library).add sum amount = .ok next →
          sum.isNegativeZero = false →
          (next.isNegativeZero = true ↔ Builtin.LosesSign sum amount)) := by
  refine ⟨fun _ => Ieee.noNegativeZero_of_gradient, Decimal.noNegativeZero_of_gradient,
    fun hGradient => ?_⟩
  obtain ⟨amounts, hAmounts, hSums⟩ := exists_sums_of_gradient hGradient
  have hRoot : (const 1).ValueIn (Builtin.arithmetic library) Scalar.IsReal :=
    fun one hOne => Builtin.isReal_of_ofInt (Fault.lift_eq_ok_iff.1 hOne)
  have hReal : ∀ id, ∀ amount ∈ valuesOf id amounts, amount.IsReal := fun id =>
    property_of_evaluateAll hAmounts (hRoot.contributions Builtin.keepsAdjoints_isReal expr)
  have hLoses : ∀ id value, grads.get? id = some value → value.isNegativeZero = true →
      ∃ sum amount, AddedTo (Builtin.arithmetic library) (valuesOf id amounts) sum amount ∧
        Builtin.LosesSign sum amount := fun id value hValue =>
    Builtin.exists_losesSign (hReal id) (hSums id value hValue)
  refine ⟨fun hData id value hValue => ?wide, amounts, hAmounts,
    fun id value hValue => ⟨hSums id value hValue, hLoses id value hValue⟩,
    fun id sum amount next hAdded hAdd hSign => ?step⟩
  case wide =>
    refine Bool.eq_false_iff.2 fun hSign => ?_
    obtain ⟨sum, amount, hAdded, hLost⟩ := hLoses id value hValue hSign
    have hWide := property_of_evaluateAll hAmounts (Builtin.isNarrow_of_contributions hData)
      amount hAdded.mem
    exact Bool.false_ne_true (hWide.symm.trans hLost.isNarrow)
  case step =>
    have hAmount := hReal id amount hAdded.mem
    obtain ⟨before, after, -, hSum⟩ := hAdded
    exact Builtin.isNegativeZero_add_iff (Builtin.isReal_of_sumsTo hSum) hAmount hSign hAdd

/-- The product of a variable with a negative zero contributes a negative zero, but its derivative is
not one, whatever the capability. A small negative double and a negative zero of single precision
have a builtin sum that is a negative zero. -/
theorem negative_zeros_of_gradient_product :
    ∃ (expr other : Expr Scalar) (small zero : Scalar),
      expr = mul (var "x" (.int 1)) (lit (.float (.zero .double true))) ∧
      small = .float (.ofDecimal .double true 1 (-300)) ∧
      zero = .ieee .single (.zero .single true) ∧
      other = add (mul (var "x" (.int 1)) (lit small)) (mul (var "x" (.int 1)) (lit zero)) ∧
      (∀ capability : Capability, ∃ amount grads,
        evaluateAll capability.arithmetic (expr.contributions (const 1)) = .ok [("x", amount)] ∧
        amount.isNegativeZero = true ∧ expr.gradient capability.arithmetic = .ok grads ∧
        NoNegativeZero grads) ∧
      expr.DataIn (fun datum => datum.isNarrow = false) ∧
      ∃ grads amounts, other.gradient (Builtin.arithmetic .machine) = .ok grads ∧
        evaluateAll (Builtin.arithmetic .machine) (other.contributions (const 1)) = .ok amounts ∧
        grads.get? "x" = some zero ∧ zero.isNegativeZero = true ∧
        (∃ sum amount, AddedTo (Builtin.arithmetic .machine) (valuesOf "x" amounts) sum amount ∧
          Builtin.LosesSign sum amount) ∧
        AddedTo (Builtin.arithmetic .machine) (valuesOf "x" amounts) small zero ∧
        (Builtin.arithmetic .machine).add small zero = .ok zero ∧
        small.isNegativeZero = false ∧ Builtin.LosesSign small zero := by
  let expr : Expr Scalar := mul (var "x" (.int 1)) (lit (.float (.zero .double true)))
  let small : Scalar := .float (.ofDecimal .double true 1 (-300))
  let zero : Scalar := .ieee .single (.zero .single true)
  let other : Expr Scalar :=
    add (mul (var "x" (.int 1)) (lit small)) (mul (var "x" (.int 1)) (lit zero))
  have hWide : expr.DataIn fun datum => datum.isNarrow = false := ⟨rfl, rfl⟩
  have hAmount : ∀ capability : Capability, ∃ amount,
      evaluateAll capability.arithmetic (expr.contributions (const 1)) = .ok [("x", amount)] ∧
      amount.isNegativeZero = true := by
    intro capability
    cases capability with
    | ieee width =>
      refine ⟨.ieee width (.zero _ true), ?_⟩
      cases width <;> decide +kernel
    | builtin => exact ⟨.float (.zero _ true), by decide +kernel⟩
    | decimal => exact ⟨.decimal (.finite true 0 0), by decide +kernel⟩
  have hRun : ∀ capability : Capability, ∃ grads,
      expr.gradient capability.arithmetic = .ok grads := by
    rintro ((_ | _ | _) | _ | _) <;> exact ⟨_, rfl⟩
  have hEach : ∀ capability : Capability, ∃ amount grads,
      evaluateAll capability.arithmetic (expr.contributions (const 1)) = .ok [("x", amount)] ∧
      amount.isNegativeZero = true ∧ expr.gradient capability.arithmetic = .ok grads ∧
      NoNegativeZero grads := by
    intro capability
    obtain ⟨amount, hAmounts, hSign⟩ := hAmount capability
    obtain ⟨grads, hGradient⟩ := hRun capability
    obtain ⟨hWidths, hDecimal, hBuiltin⟩ := negative_zeros_of_gradient .machine expr grads
    refine ⟨amount, grads, hAmounts, hSign, hGradient, ?_⟩
    cases capability with
    | ieee width => exact hWidths width hGradient
    | builtin => exact (hBuiltin hGradient).1 hWide
    | decimal => exact hDecimal hGradient
  have hOther : (other.gradient (Builtin.arithmetic .machine)).map IdMap.entries =
      .ok [("x", zero)] := by decide +kernel
  obtain ⟨grads, hGradient, hEntries⟩ := map_eq_ok_iff.1 hOther
  have hEntry : grads.get? "x" = some zero := by
    rw [IdMap.get?, hEntries]
    rfl
  have hTerms : evaluateAll (Builtin.arithmetic .machine) (other.contributions (const 1)) =
      .ok [("x", small), ("x", zero)] := by decide +kernel
  have hAdd : (Builtin.arithmetic .machine).add small zero = .ok zero := by decide +kernel
  have hZero : zero.isNegativeZero = true := by decide +kernel
  have hSmall : small.isNegativeZero = false := by decide +kernel
  have hAdded : AddedTo (Builtin.arithmetic .machine) [small, zero] small zero :=
    ⟨[small], [], rfl, .float (.zero .double false), by decide +kernel, by decide +kernel⟩
  obtain ⟨-, amounts, hAmounts, hSums, hSteps⟩ :=
    (negative_zeros_of_gradient .machine other grads).2.2 hGradient
  cases hTerms.symm.trans hAmounts
  exact ⟨expr, other, small, zero, rfl, rfl, rfl, rfl, hEach, hWide, grads, _, hGradient, hAmounts,
    hEntry, hZero, (hSums "x" zero hEntry).2 hZero, hAdded, hAdd, hSmall,
    (hSteps "x" small zero zero hAdded hAdd hSmall).1 hZero⟩

/-- A small double and a zero of single precision, both with minus signs, are the contributions of
the two occurrences of a variable. The builtin entry is a zero with a minus sign. -/
theorem builtin_gradient_is_negative_zero :
    ∃ (expr : Expr Scalar) (grads : IdMap Scalar),
      expr = add (mul (var "x" (.int 1)) (lit (.float (.ofDecimal .double true 1 (-300)))))
        (mul (var "x" (.int 1)) (lit (.ieee .single (.zero .single true)))) ∧
      expr.gradient Capability.builtin.arithmetic = .ok grads ∧
      grads.entries = [("x", .ieee .single (.zero .single true))] ∧ ¬ NoNegativeZero grads := by
  have hRun : ((add (mul (var "x" (.int 1)) (lit (.float (.ofDecimal .double true 1 (-300)))))
        (mul (var "x" (.int 1)) (lit (.ieee .single (.zero .single true)))) :
        Expr Scalar).gradient Capability.builtin.arithmetic).map IdMap.entries =
      .ok [("x", .ieee .single (.zero .single true))] := by decide +kernel
  obtain ⟨grads, hGradient, hEntries⟩ := map_eq_ok_iff.1 hRun
  refine ⟨_, grads, rfl, hGradient, hEntries, fun hNone => ?_⟩
  have hEntry : grads.get? "x" = some (.ieee .single (.zero .single true)) := by
    rw [IdMap.get?, hEntries]
    rfl
  have hSign := hNone "x" _ hEntry
  exact absurd hSign (by decide +kernel)

end Expr

end Autodiff
