import Mathlib.Analysis.SpecialFunctions.Pow.Real
import Autodiff.Proofs.Calculus.Slope
import Autodiff.Proofs.Expr.Rebinding
import Autodiff.Proofs.Gradient.Tangent
import Autodiff.Scalar.Error

/-!
# The gradient is the derivative

Over an ordered field, with exact arithmetic, the gradient entry of a variable is the
derivative of the value of the tree as that variable moves. The reference is the bound on
the error of the linear approximation, and not a table of rules.

The trees are the rational ones: no logarithm, and only constant exponents. The
capability need not be total. It may do anything at a division by zero and at a power
of zero below the zeroth; that the value exists near the point is part of the result.

* `hasSlope_value` is the induction: the value has the forward tangent for its slope, and
  the tree stays non-singular near the point;
* `gradient_isDerivative` is the statement about the numerical gradient.
-/

namespace Autodiff

open Filter Topology

variable {K ε : Type} [Field K]

/-- Arithmetic of a field: exact wherever the result exists. -/
structure Arithmetic.FieldExact (num : Arithmetic K ε) : Prop extends num.RingExact where
  div : ∀ x y, y ≠ 0 → num.div x y = .ok (x / y)
  pow : ∀ (b : K) (n : Int), b ≠ 0 ∨ 0 ≤ n → num.pow b n = .ok (b ^ n)
  log : ∀ x, ∃ y, num.log x = .ok y

/-- The powers and logarithms of a capability, zero where it fails. -/
def Elementary.of (num : Arithmetic K ε) : Elementary K where
  power b e := (num.pow b e).toOption.getD 0
  logarithm x := (num.log x).toOption.getD 0

theorem Arithmetic.FieldExact.power_eq {num : Arithmetic K ε} (hExact : num.FieldExact) {b : K}
    {n : Int} (hDefined : b ≠ 0 ∨ 0 ≤ n) : (Elementary.of num).power b n = b ^ n := by
  simp [Elementary.of, hExact.pow b n hDefined, Except.toOption]

namespace Expr

/-- A tree of variables, literals, constants, sums, differences, products, quotients,
negations and powers with a constant for the exponent. -/
def IsRational {α : Type} : Expr α → Prop
  | var _ _ => True
  | lit _ => True
  | const _ => True
  | binary .pow base exponent => base.IsRational ∧ ∃ n, exponent = const n
  | binary _ left right => left.IsRational ∧ right.IsRational
  | unary .neg operand => operand.IsRational
  | unary .log _ => False
  | foreign _ => False

/-- Every divisor has a value other than zero, and so has every base of a power whose
exponent is not at least 1. -/
def NonSingular (num : Arithmetic K ε) : Expr K → Prop
  | binary op left right =>
    left.NonSingular num ∧ right.NonSingular num ∧
      (op = .div → ∃ y, right.evaluate num = .ok y ∧ y ≠ 0) ∧
      (op = .pow → (∃ b, left.evaluate num = .ok b ∧ b ≠ 0) ∨ ∃ n, right = const n ∧ 1 ≤ n)
  | unary _ operand => operand.NonSingular num
  | _ => True

/-- The tree with a new value for a variable. -/
abbrev withValue {α : Type} (expr : Expr α) (id : String) (x : α) : Expr α :=
  expr.rebound (.ofList [(id, x)])

theorem isRational_binary {α : Type} {op : Op} (hPow : op ≠ .pow) {left right : Expr α}
    (hLeft : left.IsRational) (hRight : right.IsRational) : (binary op left right).IsRational := by
  cases op with
  | pow => exact absurd rfl hPow
  | add | sub | mul | div => exact ⟨hLeft, hRight⟩

/-- Induction over rational trees. -/
theorem IsRational.induction {α : Type} {motive : (expr : Expr α) → expr.IsRational → Prop}
    (var : ∀ id data, motive (var id data) trivial)
    (lit : ∀ data, motive (lit data) trivial)
    (const : ∀ n, motive (const n) trivial)
    (binary : ∀ op left right (hPow : op ≠ .pow) (hLeft : left.IsRational)
      (hRight : right.IsRational), motive left hLeft → motive right hRight →
      motive (binary op left right) (isRational_binary hPow hLeft hRight))
    (pow : ∀ base n (hBase : base.IsRational), motive base hBase →
      motive (pow base (Expr.const n)) ⟨hBase, n, rfl⟩)
    (neg : ∀ operand (hOperand : operand.IsRational), motive operand hOperand →
      motive (neg operand) hOperand)
    (expr : Expr α) (hRational : expr.IsRational) : motive expr hRational := by
  induction expr with
  | var id data => exact var id data
  | lit data => exact lit data
  | const n => exact const n
  | binary op left right ihLeft ihRight =>
    cases op with
    | pow =>
      obtain ⟨hBase, n, rfl⟩ := hRational
      exact pow left n hBase (ihLeft hBase)
    | add | sub | mul | div =>
      exact binary _ left right (by decide) hRational.1 hRational.2
        (ihLeft hRational.1) (ihRight hRational.2)
  | unary fn operand ih =>
    cases fn with
    | neg => exact neg operand hRational (ih hRational)
    | log => exact hRational.elim
  | foreign => exact hRational.elim

theorem IsRational.genuine {α : Type} {expr : Expr α} (hRational : expr.IsRational) :
    expr.Genuine := by
  induction expr, hRational using IsRational.induction with
  | var | lit | const => trivial
  | binary op left right hPow hLeft hRight ihLeft ihRight => exact ⟨ihLeft, ihRight⟩
  | pow base n hBase ih => exact ⟨ih, trivial⟩
  | neg operand hOperand ih => exact ih

theorem IsRational.withValue {α : Type} {expr : Expr α} (hRational : expr.IsRational)
    (id : String) (x : α) : (expr.withValue id x).IsRational := by
  induction expr, hRational using IsRational.induction with
  | var | lit | const => trivial
  | binary op left right hPow hLeft hRight ihLeft ihRight =>
    exact isRational_binary hPow ihLeft ihRight
  | pow base n hBase ih => exact ⟨ih, n, rfl⟩
  | neg operand hOperand ih => exact ih

variable {num : Arithmetic K ε}

theorem NonSingular.binary {op : Op} (hDiv : op ≠ .div) (hPow : op ≠ .pow) {left right : Expr K}
    (hLeft : left.NonSingular num) (hRight : right.NonSingular num) :
    (Expr.binary op left right).NonSingular num :=
  ⟨hLeft, hRight, fun hOp => absurd hOp hDiv, fun hOp => absurd hOp hPow⟩

theorem NonSingular.div {left right : Expr K} (hLeft : left.NonSingular num)
    (hRight : right.NonSingular num) {y : K} (hY : right.evaluate num = .ok y) (hNe : y ≠ 0) :
    (Expr.div left right).NonSingular num :=
  ⟨hLeft, hRight, fun _ => ⟨y, hY, hNe⟩, fun hOp => by cases hOp⟩

theorem NonSingular.pow {base : Expr K} (hBase : base.NonSingular num) {n : Int}
    (hDefined : (∃ b, base.evaluate num = .ok b ∧ b ≠ 0) ∨ 1 ≤ n) :
    (Expr.pow base (const n)).NonSingular num := by
  refine ⟨hBase, trivial, ?_, ?_⟩
  · intro hOp
    cases hOp
  · intro _
    exact hDefined.imp_right fun hPos => ⟨n, rfl, hPos⟩

/-! ## Away from singularities the arithmetic is sound -/

theorem soundAt_div (hExact : num.FieldExact) (x : K) {y : K} (hNe : y ≠ 0) :
    (Elementary.of num).SoundAt num .div x y :=
  fun z => ⟨hExact.div z y hNe, hExact.div z (y * y) (mul_ne_zero hNe hNe)⟩

theorem soundAt_pow (hExact : num.FieldExact) {b : K} {n : Int} (hDefined : b ≠ 0 ∨ 1 ≤ n) :
    (Elementary.of num).SoundAt num .pow b n := by
  have hPower : b ≠ 0 ∨ 0 ≤ n := hDefined.imp_right fun h => by omega
  have hLowered : b ≠ 0 ∨ 0 ≤ n - 1 := hDefined.imp_right fun h => by omega
  have hCast : (n : K) - 1 = ((n - 1 : Int) : K) := by push_cast; rfl
  obtain ⟨logarithm, hLog⟩ := hExact.log b
  refine ⟨?_, ?_, ?_⟩
  · rw [hExact.power_eq hPower, hExact.pow b n hPower]
  · rw [hCast, hExact.power_eq hLowered, hExact.pow b (n - 1) hLowered]
  · simp [Elementary.of, hLog, Except.toOption]

theorem NonSingular.sound (hExact : num.FieldExact) {expr : Expr K}
    (hRational : expr.IsRational) (h : expr.NonSingular num) :
    expr.Sound (Elementary.of num) num := by
  induction expr, hRational using IsRational.induction with
  | var | lit | const => trivial
  | binary op left right hPow _ _ ihLeft ihRight =>
    obtain ⟨hLeft, hRight, hDivisor, -⟩ := h
    refine ⟨ihLeft hLeft, ihRight hRight, ?_⟩
    cases op with
    | add | sub | mul => trivial
    | pow => exact absurd rfl hPow
    | div =>
      obtain ⟨y, hY, hNe⟩ := hDivisor rfl
      cases hY.symm.trans (evaluate_eq_value hExact.toRingExact (ihRight hRight))
      exact soundAt_div hExact _ hNe
  | pow base n _ ih =>
    obtain ⟨hBase, -, -, hDefined⟩ := h
    refine ⟨ih hBase, trivial, soundAt_pow hExact ?_⟩
    rcases hDefined rfl with ⟨b, hB, hNe⟩ | ⟨m, hM, hPos⟩
    · cases hB.symm.trans (evaluate_eq_value hExact.toRingExact (ih hBase))
      exact Or.inl hNe
    · cases hM
      exact Or.inr hPos
  | neg operand _ ih => exact ih h

theorem NonSingular.evaluate_eq (hExact : num.FieldExact) {expr : Expr K}
    (hRational : expr.IsRational) (h : expr.NonSingular num) :
    expr.evaluate num = .ok (expr.value (Elementary.of num)) :=
  evaluate_eq_value hExact.toRingExact (h.sound hExact hRational)

/-! ## The value as one variable moves -/

section Slope

variable [TopologicalSpace K]

theorem hasSlope_var (fns : Elementary K) (id name : String) (data a : K) :
    HasSlope (fun t => ((var name data).withValue id t).value fns)
      (((var name data).withValue id a).tangent fns id) a := by
  simp only [withValue, rebound, value, tangent, IdMap.get?_ofList_singleton]
  by_cases hName : name = id
  · simpa [hName] using hasSlope_id a
  · simpa [hName] using hasSlope_const data a

variable [IsTopologicalDivisionRing K] [T1Space K]

/-- A power with a constant exponent, away from its singularity. -/
theorem hasSlope_power (hExact : num.FieldExact) {f : K → K} {g a : K} {n : Int}
    (hf : HasSlope f g a) (hDefined : f a ≠ 0 ∨ 1 ≤ n) :
    HasSlope (fun t => (Elementary.of num).power (f t) n)
      (n * (Elementary.of num).power (f a) (n - 1) * g) a := by
  have hNear : ∀ᶠ t in 𝓝 a, f t ≠ 0 ∨ 1 ≤ n := by
    rcases hDefined with hNe | hPos
    · exact (hf.eventually_ne hNe).mono fun t ht => Or.inl ht
    · exact Eventually.of_forall fun t => Or.inr hPos
  have hLowered : (Elementary.of num).power (f a) (n - 1) = f a ^ (n - 1) := by
    have hCast : (n : K) - 1 = ((n - 1 : Int) : K) := by push_cast; rfl
    rw [hCast]
    exact hExact.power_eq (hDefined.imp_right fun h => by omega)
  rw [hLowered]
  refine ((hasSlope_zpow n (f a) hDefined).comp hf).congr ?_
  filter_upwards [hNear] with t ht
  exact hExact.power_eq (ht.imp_right fun h => by omega)

/-- The value moves with the forward tangent for its slope, and close to a point where the
tree is non-singular it is non-singular too. -/
theorem hasSlope_value (hExact : num.FieldExact) {expr : Expr K} (hRational : expr.IsRational)
    (id : String) (a : K) (h : (expr.withValue id a).NonSingular num) :
    HasSlope (fun t => (expr.withValue id t).value (Elementary.of num))
        ((expr.withValue id a).tangent (Elementary.of num) id) a ∧
      ∀ᶠ t in 𝓝 a, (expr.withValue id t).NonSingular num := by
  induction expr, hRational using IsRational.induction with
  | var name data => exact ⟨hasSlope_var _ id name data a, Eventually.of_forall fun t => trivial⟩
  | lit data => exact ⟨hasSlope_const data a, Eventually.of_forall fun t => trivial⟩
  | const n => exact ⟨hasSlope_const (n : K) a, Eventually.of_forall fun t => trivial⟩
  | binary op left right hPow _ hRationalRight ihLeft ihRight =>
    obtain ⟨hLeft, hRight, hDivisor, -⟩ := h
    obtain ⟨hSlopeLeft, hNearLeft⟩ := ihLeft hLeft
    obtain ⟨hSlopeRight, hNearRight⟩ := ihRight hRight
    -- only a quotient has a singularity of its own
    have hNear : op ≠ .div →
        ∀ᶠ t in 𝓝 a, ((Expr.binary op left right).withValue id t).NonSingular num := by
      intro hDiv
      filter_upwards [hNearLeft, hNearRight] with t hLeftt hRightt
      exact hLeftt.binary hDiv hPow hRightt
    cases op with
    | add => exact ⟨hSlopeLeft.add hSlopeRight, hNear (by decide)⟩
    | sub => exact ⟨hSlopeLeft.sub hSlopeRight, hNear (by decide)⟩
    | mul => exact ⟨hSlopeLeft.mul hSlopeRight, hNear (by decide)⟩
    | pow => exact absurd rfl hPow
    | div =>
      have hNe : (right.withValue id a).value (Elementary.of num) ≠ 0 := by
        obtain ⟨y, hY, hNe⟩ := hDivisor rfl
        cases hY.symm.trans (hRight.evaluate_eq hExact (hRationalRight.withValue id a))
        exact hNe
      refine ⟨hSlopeLeft.div hSlopeRight hNe, ?_⟩
      filter_upwards [hNearLeft, hNearRight, hSlopeRight.eventually_ne hNe]
        with t hLeftt hRightt hNet
      exact hLeftt.div hRightt (hRightt.evaluate_eq hExact (hRationalRight.withValue id t)) hNet
  | pow base n hRationalBase ih =>
    obtain ⟨hBase, -, -, hExponent⟩ := h
    obtain ⟨hSlope, hNear⟩ := ih hBase
    have hDefined : (base.withValue id a).value (Elementary.of num) ≠ 0 ∨ 1 ≤ n := by
      rcases hExponent rfl with ⟨b, hB, hNe⟩ | ⟨m, hM, hPos⟩
      · cases hB.symm.trans (hBase.evaluate_eq hExact (hRationalBase.withValue id a))
        exact Or.inl hNe
      · cases hM
        exact Or.inr hPos
    refine ⟨?_, ?_⟩
    · have hPower := hasSlope_power hExact hSlope hDefined
      simpa [withValue, rebound, value, tangent, Elementary.apply] using hPower
    · rcases hDefined with hNe | hPos
      · filter_upwards [hNear, hSlope.eventually_ne hNe] with t ht hNet
        exact ht.pow (Or.inl ⟨_, ht.evaluate_eq hExact (hRationalBase.withValue id t), hNet⟩)
      · filter_upwards [hNear] with t ht
        exact ht.pow (Or.inr hPos)
  | neg operand _ ih =>
    obtain ⟨hSlope, hNear⟩ := ih h
    exact ⟨hSlope.neg, hNear⟩

end Slope

/-! ## The derivative -/

/-- In exact arithmetic over an ordered field, take a rational tree and a point at which no
divisor is zero and no power below the first has the base zero. There the tree has a value
and a gradient. Close to the point it has a value too, and the gradient entry of the
variable that moves is the derivative of the value: the error of the linear approximation
is at most any given multiple of the distance. -/
theorem gradient_isDerivative [LinearOrder K] [IsStrictOrderedRing K] (hExact : num.FieldExact)
    {expr : Expr K} (hRational : expr.IsRational) (id : String) (a : K) :
    ∃ there, expr.substitute (.ofList [(id, a)]) = .ok there ∧
      (there.NonSingular num →
        ∃ grads y, there.gradient num = .ok grads ∧ there.evaluate num = .ok y ∧
          ∀ margin > 0, ∃ radius > 0, ∀ t, 0 < |t - a| → |t - a| < radius →
            ∃ near z, expr.substitute (.ofList [(id, t)]) = .ok near ∧
              near.evaluate num = .ok z ∧
              |z - y - (grads.get? id).getD 0 * (t - a)| ≤ margin * |t - a|) := by
  let : TopologicalSpace K := Preorder.topology K
  have : OrderTopology K := ⟨rfl⟩
  refine ⟨expr.withValue id a, substitute_eq_rebound _ hRational.genuine, ?_⟩
  intro hNonSingular
  have hValue : ∀ t, (expr.withValue id t).NonSingular num →
      (expr.withValue id t).evaluate num =
        .ok ((expr.withValue id t).value (Elementary.of num)) :=
    fun t ht => ht.evaluate_eq hExact (hRational.withValue id t)
  obtain ⟨grads, hRun, hGrads⟩ := gradientFrom_tangent hExact.toRingExact
    (hNonSingular.sound hExact (hRational.withValue id a)) 1 IdMap.empty
  have hGradient : (expr.withValue id a).gradient num = .ok grads := by
    simp [gradient, hExact.ofInt, hRun]
  have hEntry : (grads.get? id).getD 0 =
      (expr.withValue id a).tangent (Elementary.of num) id := by
    simpa using hGrads id
  obtain ⟨hSlope, hNear⟩ := hasSlope_value hExact hRational id a hNonSingular
  refine ⟨grads, _, hGradient, hValue a hNonSingular, ?_⟩
  intro margin hMargin
  obtain ⟨radius, hRadius, hBall⟩ := (nhds_basis_abs_sub_lt a).eventually_iff.1
    ((hSlope.linear_approximation hMargin).and hNear)
  refine ⟨radius, hRadius, ?_⟩
  intro t _ ht
  obtain ⟨hError, hNonSingulart⟩ := hBall ht
  refine ⟨_, _, substitute_eq_rebound _ hRational.genuine, hValue t hNonSingulart, ?_⟩
  rw [hEntry]
  exact hError

/-- Real arithmetic in which a division by zero fails. -/
noncomputable def realArithmetic : Arithmetic ℝ ScalarError where
  add x y := .ok (x + y)
  sub x y := .ok (x - y)
  mul x y := .ok (x * y)
  div x y := if y = 0 then .error .floatDivisionByZero else .ok (x / y)
  pow b e := .ok (b ^ e)
  log x := .ok (Real.log x)
  ofInt n := .ok n

theorem realArithmetic_fieldExact : realArithmetic.FieldExact where
  add _ _ := rfl
  sub _ _ := rfl
  mul _ _ := rfl
  ofInt _ := rfl
  div _ _ hNe := if_neg hNe
  pow b n _ := congrArg Except.ok (Real.rpow_intCast b n)
  log x := ⟨Real.log x, rfl⟩

/-- The derivative of `x ^ 3 / (x - y) - x ^ (-1)` by `x` at 2, where `y` is 1: the
variable is in a divisor and below two powers, and it occurs three times. -/
theorem gradient_isDerivative_quotient :
    ∃ expr there : Expr ℝ,
      expr = sub (div (pow (var "x" 7) (const 3)) (sub (var "x" 8) (var "y" 1)))
        (pow (var "x" 9) (const (-1))) ∧
      realArithmetic.FieldExact ∧ expr.IsRational ∧
      expr.substitute (.ofList [("x", 2)]) = .ok there ∧ there.NonSingular realArithmetic ∧
      ∃ grads y, there.gradient realArithmetic = .ok grads ∧
        there.evaluate realArithmetic = .ok y ∧
        ∀ margin > 0, ∃ radius > 0, ∀ t, 0 < |t - 2| → |t - 2| < radius →
          ∃ near z, expr.substitute (.ofList [("x", t)]) = .ok near ∧
            near.evaluate realArithmetic = .ok z ∧
            |z - y - (grads.get? "x").getD 0 * (t - 2)| ≤ margin * |t - 2| := by
  let expr : Expr ℝ := sub (div (pow (var "x" 7) (const 3)) (sub (var "x" 8) (var "y" 1)))
    (pow (var "x" 9) (const (-1)))
  have hRational : expr.IsRational :=
    ⟨⟨⟨trivial, 3, rfl⟩, trivial, trivial⟩, trivial, -1, rfl⟩
  obtain ⟨there, hThere, hDerivative⟩ :=
    gradient_isDerivative realArithmetic_fieldExact hRational "x" 2
  have hNonSingular : there.NonSingular realArithmetic := by
    cases hThere
    have hLeaf : ∀ name value, (var name value : Expr ℝ).NonSingular realArithmetic :=
      fun _ _ => trivial
    have hCube := (hLeaf "x" 2).pow (Or.inr (by decide : (1 : Int) ≤ 3))
    have hDivisor := (hLeaf "x" 2).binary (by decide : Op.sub ≠ .div) (by decide) (hLeaf "y" 1)
    have hPower := (hLeaf "x" 2).pow (Or.inl ⟨2, rfl, two_ne_zero⟩ : _ ∨ (1 : Int) ≤ -1)
    exact (hCube.div hDivisor (y := 2 - 1) rfl (by norm_num)).binary (by decide) (by decide) hPower
  exact ⟨expr, there, rfl, realArithmetic_fieldExact, hRational, hThere, hNonSingular,
    hDerivative hNonSingular⟩

end Expr

end Autodiff
