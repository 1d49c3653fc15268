import Autodiff.Capability.Registry
import Autodiff.Gradient.Numeric
import Autodiff.Proofs.Gradient.Results

/-!
# Only the converted value of a datum matters

The arithmetic of an interchange width and decimal arithmetic convert their operands before
they do anything with them. The value of a leaf is its datum as it stands, so a datum of
another kind is handed around, but it cannot reach a result unconverted.

* `Arithmetic.SeesOnly` says of an arithmetic that its operations depend on a view of their
  operands; `Capability.seesOnly_coerce` that the capabilities with a conversion see it;
* `Expr.Alike` are two trees whose leaves have the same view. `Expr.Alike.map_evaluate` says
  that their values have the same view, `Expr.Alike.gradientFrom_eq` that the walks over them
  are the same, errors included;
* `Capability.yields_kind` says that results are of the kind of the capability;
* `Expr.results_of_coercions` puts both together for a whole tree.
-/

namespace Autodiff

variable {α β ε : Type}

/-- Every operation depends on its operands only through a view of them. -/
structure Arithmetic.SeesOnly (num : Arithmetic α ε) (view : α → β) : Prop where
  apply_congr : ∀ (op : Op) {x x' y y' : α}, view x = view x' → view y = view y' →
    num.apply op x y = num.apply op x' y'
  log_congr : ∀ {x x' : α}, view x = view x' → num.log x = num.log x'

/-- Two computations are the same if their first steps have the same view and what follows
depends on the view only. -/
theorem bind_congr_of_map_eq {γ : Type} {view : α → β} {first first' : Except ε α}
    {next next' : α → Except ε γ} (hFirst : first.map view = first'.map view)
    (hNext : ∀ x x', view x = view x' → next x = next' x') :
    first >>= next = first' >>= next' := by
  cases first with
  | error cause =>
    cases first' with
    | error cause' => simpa [Except.map] using hFirst
    | ok x' => simp [Except.map] at hFirst
  | ok x =>
    cases first' with
    | error cause' => simp [Except.map] at hFirst
    | ok x' => exact hNext x x' (by simpa [Except.map] using hFirst)

namespace Expr

/-! ## Two trees with the same view -/

/-- Trees of one shape with the same ids, the leaves of which have the same view. A literal
may stand for an integer constant. -/
inductive Alike (num : Arithmetic α ε) (view : α → β) : Expr α → Expr α → Prop
  | var (id : String) {x x' : α} (hView : view x = view x') : Alike num view (var id x) (var id x')
  | lit {x x' : α} (hView : view x = view x') : Alike num view (lit x) (lit x')
  | const (n : Int) : Alike num view (const n) (const n)
  | numeral {n : Int} {x x' : α} (hInt : num.ofInt n = .ok x) (hView : view x = view x') :
      Alike num view (const n) (lit x')
  | binary (op : Op) {left left' right right' : Expr α} (hLeft : Alike num view left left')
      (hRight : Alike num view right right') :
      Alike num view (binary op left right) (binary op left' right')
  | unary (fn : Fn) {operand operand' : Expr α} (hOperand : Alike num view operand operand') :
      Alike num view (unary fn operand) (unary fn operand')

/-- The trees that become the same tree when every datum is replaced by its view. -/
theorem alike_of_map_eq (num : Arithmetic α ε) {view : α → β} {expr other : Expr α}
    (hGenuine : expr.Genuine) (hMap : expr.map view = other.map view) :
    Alike num view expr other := by
  induction expr generalizing other with
  | var id x =>
    cases other <;> simp only [map, reduceCtorEq, var.injEq] at hMap
    obtain ⟨rfl, hView⟩ := hMap
    exact .var id hView
  | lit x =>
    cases other <;> simp only [map, reduceCtorEq, lit.injEq] at hMap
    exact .lit hMap
  | const n =>
    cases other <;> simp only [map, reduceCtorEq, const.injEq] at hMap
    subst hMap
    exact .const n
  | binary op left right ihLeft ihRight =>
    cases other <;> simp only [map, reduceCtorEq, binary.injEq] at hMap
    obtain ⟨rfl, hLeft, hRight⟩ := hMap
    exact .binary op (ihLeft hGenuine.1 hLeft) (ihRight hGenuine.2 hRight)
  | unary fn operand ih =>
    cases other <;> simp only [map, reduceCtorEq, unary.injEq] at hMap
    obtain ⟨rfl, hOperand⟩ := hMap
    exact .unary fn (ih hGenuine hOperand)
  | foreign => exact hGenuine.elim

namespace Alike

variable {num : Arithmetic α ε} {view : α → β} {expr other : Expr α}

theorem evaluate_binary (hSees : num.SeesOnly view) (op : Op) {left left' right right' : Expr α}
    (hLeft : (left.evaluate num).map view = (left'.evaluate num).map view)
    (hRight : (right.evaluate num).map view = (right'.evaluate num).map view) :
    (Expr.binary op left right).evaluate num = (Expr.binary op left' right').evaluate num := by
  refine bind_congr_of_map_eq hLeft fun x x' hX => ?_
  refine bind_congr_of_map_eq hRight fun y y' hY => ?_
  rw [hSees.apply_congr op hX hY]

theorem evaluate_unary (hSees : num.SeesOnly view) (fn : Fn) {operand operand' : Expr α}
    (hOperand : (operand.evaluate num).map view = (operand'.evaluate num).map view) :
    (Expr.unary fn operand).evaluate num = (Expr.unary fn operand').evaluate num := by
  cases fn with
  | neg =>
    rw [evaluate_neg, evaluate_neg]
    exact evaluate_binary hSees .sub rfl hOperand
  | log =>
    refine bind_congr_of_map_eq hOperand fun x x' hX => ?_
    rw [hSees.log_congr hX]

/-- The values of two trees with the same view have the same view, and so have their
errors. -/
theorem map_evaluate (hSees : num.SeesOnly view) (hAlike : Alike num view expr other) :
    (expr.evaluate num).map view = (other.evaluate num).map view := by
  induction hAlike with
  | var id hView => exact congrArg Except.ok hView
  | lit hView => exact congrArg Except.ok hView
  | const n => rfl
  | numeral hInt hView =>
    simp only [evaluate, hInt, Fault.lift_ok]
    exact congrArg Except.ok hView
  | binary op _ _ ihLeft ihRight => rw [evaluate_binary hSees op ihLeft ihRight]
  | unary fn _ ih => rw [evaluate_unary hSees fn ih]

/-- The numerical walk goes the same way over two trees with the same view. -/
theorem gradientFrom_eq (hSees : num.SeesOnly view) (hAlike : Alike num view expr other)
    (adjoint : α) (grads : IdMap α) :
    expr.gradientFrom num adjoint grads = other.gradientFrom num adjoint grads := by
  induction hAlike generalizing adjoint grads with
  | var | lit | const | numeral => rfl
  | @binary op left left' right right' hLeft hRight ihLeft ihRight =>
    have hX := hLeft.map_evaluate hSees
    have hY := hRight.map_evaluate hSees
    -- an operand beside the path is computed where the walk needs it, and is an operand of an
    -- operation from then on
    cases op with
    | add => simp only [gradientFrom, ihLeft, ihRight]
    | sub => simp only [gradientFrom, ihLeft, ihRight]
    | mul =>
      simp only [gradientFrom, ihLeft, ihRight]
      refine bind_congr_of_map_eq hY fun y y' hView => ?_
      have hByLeft : num.mul adjoint y = num.mul adjoint y' := hSees.apply_congr .mul rfl hView
      rw [hByLeft]
      refine bind_congr fun leftAdjoint => bind_congr fun between => ?_
      refine bind_congr_of_map_eq hX fun x x' hView => ?_
      have hByRight : num.mul adjoint x = num.mul adjoint x' := hSees.apply_congr .mul rfl hView
      rw [hByRight]
    | div =>
      simp only [gradientFrom, ihLeft, ihRight]
      refine bind_congr_of_map_eq hX fun x x' hViewX => ?_
      refine bind_congr_of_map_eq hY fun y y' hViewY => ?_
      have hQuotient : num.div adjoint y = num.div adjoint y' := hSees.apply_congr .div rfl hViewY
      have hScaled : num.mul adjoint x = num.mul adjoint x' := hSees.apply_congr .mul rfl hViewX
      have hSquare : num.mul y y = num.mul y' y' := hSees.apply_congr .mul hViewY hViewY
      rw [hQuotient, hScaled, hSquare]
    | pow =>
      simp only [gradientFrom, ihLeft, ihRight]
      refine bind_congr_of_map_eq hX fun b b' hViewB => ?_
      refine bind_congr_of_map_eq hY fun e e' hViewE => ?_
      refine bind_congr fun one => ?_
      have hLowered : num.sub e one = num.sub e' one := hSees.apply_congr .sub hViewE rfl
      have hPower : num.pow b e = num.pow b' e' := hSees.apply_congr .pow hViewB hViewE
      have hLogarithm : num.log b = num.log b' := hSees.log_congr hViewB
      have hByBase (power : α) : num.mul e power = num.mul e' power :=
        hSees.apply_congr .mul hViewE rfl
      have hLoweredPower (lowered : α) : num.pow b lowered = num.pow b' lowered :=
        hSees.apply_congr .pow hViewB rfl
      simp only [hLowered, hPower, hLogarithm, hByBase, hLoweredPower]
  | @unary fn operand operand' hOperand ih =>
    cases fn with
    | neg => simp only [gradientFrom, ih]
    | log =>
      simp only [gradientFrom, ih]
      refine bind_congr_of_map_eq (hOperand.map_evaluate hSees) fun x x' hView => ?_
      have hQuotient : num.div adjoint x = num.div adjoint x' := hSees.apply_congr .div rfl hView
      rw [hQuotient]

theorem gradient_eq (hSees : num.SeesOnly view) (hAlike : Alike num view expr other) :
    expr.gradient num = other.gradient num :=
  bind_congr fun one => hAlike.gradientFrom_eq hSees one IdMap.empty

end Alike

end Expr

/-! ## The capabilities that convert -/

theorem map_injective {γ : Type} {f : α → γ} (hInjective : ∀ x y, f x = f y → x = y)
    {first second : Except ε α} (hMap : first.map f = second.map f) : first = second := by
  cases first with
  | error cause =>
    cases second with
    | error cause' => simpa [Except.map] using hMap
    | ok y => simp [Except.map] at hMap
  | ok x =>
    cases second with
    | error cause' => simp [Except.map] at hMap
    | ok y => exact congrArg Except.ok (hInjective x y (by simpa [Except.map] using hMap))

namespace Capability

/-- A value as the arithmetic of a capability takes it: as a number of its width, or as a
decimal number. The builtin arithmetic takes every value as it is. -/
def coerce : Capability → Scalar → Except ScalarError Scalar
  | ieee width, x => (x.toWidth width).map (.ieee width)
  | builtin, x => .ok x
  | decimal, x => x.toDecimal.map .decimal

/-- The kind of the numbers that a capability makes. -/
def kind : Capability → Kind
  | ieee width => .ieee width
  | builtin => .float
  | decimal => .decimal

theorem ieee_ne_builtin (width : Width) : ieee width ≠ builtin := by
  rintro ⟨⟩

theorem toWidth_eq_of_coerce {width : Width} {x y : Scalar}
    (hCoerce : (ieee width).coerce x = (ieee width).coerce y) :
    x.toWidth width = y.toWidth width :=
  map_injective (fun _ _ h => by cases h; rfl) hCoerce

theorem toDecimal_eq_of_coerce {x y : Scalar} (hCoerce : decimal.coerce x = decimal.coerce y) :
    x.toDecimal = y.toDecimal :=
  map_injective (fun _ _ h => by cases h; rfl) hCoerce

theorem seesOnly_coerce {capability : Capability} (hConverts : capability ≠ builtin) :
    capability.arithmetic.SeesOnly capability.coerce := by
  cases capability with
  | builtin => exact absurd rfl hConverts
  | ieee width =>
    constructor
    · intro op x x' y y' hX hY
      rw [arithmetic, Ieee.apply_arithmetic, Ieee.combine, Ieee.combine, toWidth_eq_of_coerce hX,
        toWidth_eq_of_coerce hY]
    · intro x x' hX
      simp only [arithmetic, Ieee.arithmetic, toWidth_eq_of_coerce hX]
  | decimal =>
    constructor
    · intro op x x' y y' hX hY
      rw [arithmetic, Decimal.apply_arithmetic, Decimal.combine, Decimal.combine,
        toDecimal_eq_of_coerce hX, toDecimal_eq_of_coerce hY]
    · intro x x' hX
      simp only [arithmetic, Decimal.arithmetic, toDecimal_eq_of_coerce hX]

theorem yields_kind {capability : Capability} (hConverts : capability ≠ builtin) :
    capability.arithmetic.Yields fun result => result.kind = capability.kind := by
  cases capability with
  | builtin => exact absurd rfl hConverts
  | ieee width =>
    constructor
    · intro op x y result hResult
      rw [arithmetic, Ieee.apply_arithmetic] at hResult
      simp only [Ieee.combine, bind_eq_ok_iff] at hResult
      obtain ⟨a, -, b, -, hResult⟩ := hResult
      cases hResult
      rfl
    · intro x result hResult
      simp only [arithmetic, Ieee.arithmetic, bind_eq_ok_iff] at hResult
      obtain ⟨a, -, hResult⟩ := hResult
      cases hResult
      rfl
    · intro n result hResult
      simp only [arithmetic, Ieee.arithmetic, bind_eq_ok_iff] at hResult
      obtain ⟨a, -, hResult⟩ := hResult
      cases hResult
      rfl
  | decimal =>
    constructor
    · intro op x y result hResult
      rw [arithmetic, Decimal.apply_arithmetic] at hResult
      simp only [Decimal.combine, bind_eq_ok_iff, Decimal.outcome_eq_ok_iff] at hResult
      obtain ⟨a, -, b, -, z, -, rfl⟩ := hResult
      rfl
    · intro x result hResult
      simp only [arithmetic, Decimal.arithmetic, bind_eq_ok_iff, Decimal.outcome_eq_ok_iff]
        at hResult
      obtain ⟨a, -, z, -, rfl⟩ := hResult
      rfl
    · intro n result hResult
      cases hResult
      rfl

end Capability

namespace Expr

/-- Two trees without foreign values that become the same tree when every datum is converted
as a width or decimal arithmetic converts it have the same gradient or the same error, and
unless they are a mere variable or literal also the same value or error. All these results
are of the kind of the capability, whatever the kinds of the data are. -/
theorem results_of_coercions {capability : Capability} (hConverts : capability ≠ .builtin)
    {expr other : Expr Scalar} (hGenuine : expr.Genuine)
    (hSame : expr.map capability.coerce = other.map capability.coerce) :
    expr.gradient capability.arithmetic = other.gradient capability.arithmetic ∧
    (¬ expr.IsDatum →
      expr.evaluate capability.arithmetic = other.evaluate capability.arithmetic) ∧
    (∀ grads, expr.gradient capability.arithmetic = .ok grads →
      EveryEntry (fun value => value.kind = capability.kind) grads) ∧
    (¬ expr.IsDatum → ∀ value, expr.evaluate capability.arithmetic = .ok value →
      value.kind = capability.kind) := by
  have hSees := Capability.seesOnly_coerce hConverts
  have hYields := Capability.yields_kind hConverts
  refine ⟨?gradient, ?value, ?gradientKind, ?valueKind⟩
  case gradient => exact (alike_of_map_eq _ hGenuine hSame).gradient_eq hSees
  case value =>
    intro hExpr
    cases alike_of_map_eq capability.arithmetic hGenuine hSame with
    | var | lit => exact absurd trivial hExpr
    | const => rfl
    | numeral => cases hSame
    | binary op hLeft hRight =>
      exact Alike.evaluate_binary hSees op (hLeft.map_evaluate hSees) (hRight.map_evaluate hSees)
    | unary fn hOperand => exact Alike.evaluate_unary hSees fn (hOperand.map_evaluate hSees)
  case gradientKind => exact fun grads hGradient => property_of_gradient hYields hGradient
  case valueKind => exact fun hExpr value hValue => property_of_evaluate hYields hExpr hValue

/-- The product of a variable and a tenth in single precision: 3 and the double nearest to a
tenth on one side, the text `3.0` and a decimal tenth on the other. The gradient is the single
nearest to a tenth. -/
theorem results_of_coercions_kinds :
    ∃ (expr other : Expr Scalar) (tenth : Binary .single) (grads : IdMap Scalar),
      expr = mul (var "x" (.int 3)) (lit (.float (.ofDecimal .double false 1 (-1)))) ∧
      other = mul (var "x" (.text "3.0")) (lit (.decimal (.finite false 10 (-2)))) ∧
      tenth = .finite false 0xcccccd (-27) (by decide) ∧
      grads = .ofList [("x", .ieee .single tenth)] ∧
      expr.Genuine ∧ ¬ expr.IsDatum ∧
      expr.map (Capability.ieee .single).coerce = other.map (Capability.ieee .single).coerce ∧
      expr.gradient (Capability.ieee .single).arithmetic = .ok grads ∧
      other.gradient (Capability.ieee .single).arithmetic = .ok grads ∧
      expr.evaluate (Capability.ieee .single).arithmetic =
        other.evaluate (Capability.ieee .single).arithmetic ∧
      EveryEntry (fun value => value.kind = .ieee .single) grads ∧
      ∀ value, expr.evaluate (Capability.ieee .single).arithmetic = .ok value →
        value.kind = .ieee .single := by
  have hSame : (mul (var "x" (.int 3)) (lit (.float (.ofDecimal .double false 1 (-1)))) :
      Expr Scalar).map (Capability.ieee .single).coerce =
      (mul (var "x" (.text "3.0")) (lit (.decimal (.finite false 10 (-2)))) : Expr Scalar).map
        (Capability.ieee .single).coerce := rfl
  have hGradient : (mul (var "x" (.int 3)) (lit (.float (.ofDecimal .double false 1 (-1)))) :
      Expr Scalar).gradient (Capability.ieee .single).arithmetic =
      .ok (.ofList [("x", .ieee .single (.finite false 0xcccccd (-27) (by decide)))]) := rfl
  obtain ⟨hGradients, hValues, hGradientKind, hValueKind⟩ :=
    results_of_coercions (by decide)
      (show (mul (var "x" (.int 3)) (lit (.float (.ofDecimal .double false 1 (-1)))) :
        Expr Scalar).Genuine from ⟨trivial, trivial⟩) hSame
  exact ⟨_, _, _, _, rfl, rfl, rfl, rfl, ⟨trivial, trivial⟩, id, hSame, hGradient,
    hGradients.symm.trans hGradient, hValues id, hGradientKind _ hGradient, hValueKind id⟩

end Expr

end Autodiff
