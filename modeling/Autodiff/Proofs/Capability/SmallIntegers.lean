import Autodiff.Capability.Registry
import Autodiff.Proofs.Binary.Integers
import Autodiff.Proofs.Decimal.Integers
import Autodiff.Proofs.Gradient.Simulation

/-!
# Exact arithmetic on small integers

Every capability represents the integers up to some bound exactly, and as long as a run over the
integers stays within the bound, the run of the capability computes the same integers. The bound
is reached: it is the first power of two that follows the significands of a format, and the
largest integer of 28 digits.

* `Integers.exact` is the arithmetic of the integers, `Integers.within` the part of it within a
  bound;
* `Capability.exactBound` is the bound of a capability and `Capability.Represents` says how its
  values stand for integers;
* `Capability.within_simulatedBy` says that operations within the bound are exact, and
  `Expr.exact_on_integers` says so of values and gradients of whole trees.
-/

namespace Autodiff

/-! ## Integers -/

namespace Integers

/-- Sums, differences and products of integers. Other operations are refused. -/
def exact : Arithmetic Int Unit where
  add m n := .ok (m + n)
  sub m n := .ok (m - n)
  mul m n := .ok (m * n)
  div _ _ := .error ()
  pow _ _ := .error ()
  log _ := .error ()
  ofInt n := .ok n

/-- Exact arithmetic on the integers up to a magnitude. A run that meets a larger integer, as an
operand or as a result, is given up. -/
def within (bound : Nat) : Arithmetic Int (Option Unit) :=
  exact.restrict (fun n => decide (n.natAbs ≤ bound)) (fun n => decide (n.natAbs ≤ bound))

variable {bound : Nat}

theorem within_apply_eq_ok_iff {op : Op} {a b c : Int} :
    (within bound).apply op a b = .ok c ↔
      a.natAbs ≤ bound ∧ b.natAbs ≤ bound ∧ exact.apply op a b = .ok c ∧ c.natAbs ≤ bound := by
  simp only [within, Arithmetic.restrict_apply_eq_ok_iff, decide_eq_true_iff]

theorem within_ofInt_eq_ok_iff {n c : Int} :
    (within bound).ofInt n = .ok c ↔ n = c ∧ c.natAbs ≤ bound := by
  simp only [within, Arithmetic.restrict_ofInt_eq_ok_iff, decide_eq_true_iff, exact,
    Except.ok.injEq]

end Integers

/-! ## Exact values -/

/-- The exact value of a finite decimal number. -/
def Decimal.rational? : Decimal → Option ℚ
  | finite negative coefficient exponent =>
    some (Binary.signed negative coefficient * 10 ^ exponent)
  | _ => none

theorem Decimal.rational?_of_isInt {x : Decimal} {n : Int} (hX : x.IsInt n) :
    x.rational? = some (n : ℚ) := by
  obtain ⟨negative, coefficient, rfl, rfl⟩ := hX
  simp [rational?]

/-- The exact value of a number; texts and nothing have none. -/
def Scalar.rational? : Scalar → Option ℚ
  | int n => some n
  | float x => x.rational?
  | ieee _ x => x.rational?
  | decimal x => x.rational?
  | bool value => some (if value then 1 else 0)
  | text _ | nothing => none

theorem doubleOfInt_eq_ok {n : Int} (hBound : n.natAbs ≤ 2 ^ 53) :
    doubleOfInt n = .ok (.ofInt .double n) := by
  have hValue := Binary.rational?_ofInt Format.hasUnits_double hBound
  exact if_pos (Binary.isFinite_of_rational? hValue)

theorem Width.hasUnits (width : Width) : width.format.HasUnits := by
  cases width
  · exact Format.hasUnits_double
  · exact Format.hasUnits_single
  · exact Format.hasUnits_half

theorem Width.precision_le (width : Width) : width.format.precision ≤ 53 := by
  cases width <;> decide

/-! ## Operations on binary numbers -/

section

variable {op : Op} {a b c : Int} (hExact : Integers.exact.apply op a b = .ok c)

include hExact

theorem rational?_applyDouble (library : Library) {x y : Binary .double}
    (hX : x.rational? = some (a : ℚ)) (hY : y.rational? = some (b : ℚ))
    (hBound : c.natAbs ≤ 2 ^ 53) :
    (Ieee.applyDouble library op x y).rational? = some (c : ℚ) := by
  cases op <;> cases hExact
  · exact Binary.rational?_add Format.hasUnits_double hX hY hBound
  · exact Binary.rational?_sub Format.hasUnits_double hX hY hBound
  · exact Binary.rational?_mul Format.hasUnits_double hX hY hBound

theorem rational?_applySingle (library : Library) {x y : Binary .single}
    (hX : x.rational? = some (a : ℚ)) (hY : y.rational? = some (b : ℚ))
    (hBound : c.natAbs ≤ 2 ^ 24) :
    (Ieee.applySingle library op x y).rational? = some (c : ℚ) := by
  cases op <;> cases hExact
  · exact Binary.rational?_add Format.hasUnits_single hX hY hBound
  · exact Binary.rational?_sub Format.hasUnits_single hX hY hBound
  · exact Binary.rational?_mul Format.hasUnits_single hX hY hBound

/-- Halves are computed as singles, which hold all their integers, and rounded without effect. -/
theorem rational?_applyHalf (library : Library) {x y : Binary .half}
    (hX : x.rational? = some (a : ℚ)) (hY : y.rational? = some (b : ℚ))
    (hA : a.natAbs ≤ 2 ^ 11) (hB : b.natAbs ≤ 2 ^ 11) (hBound : c.natAbs ≤ 2 ^ 11) :
    (Ieee.applyHalf library op x y).rational? = some (c : ℚ) := by
  have hWider : 2 ^ 11 ≤ 2 ^ 24 := by decide
  have hXSingle := Binary.rational?_convert Format.hasUnits_single hX (hA.trans hWider)
  have hYSingle := Binary.rational?_convert Format.hasUnits_single hY (hB.trans hWider)
  exact Binary.rational?_convert Format.hasUnits_half
    (rational?_applySingle hExact library hXSingle hYSingle (hBound.trans hWider)) hBound

theorem rational?_apply (library : Library) (width : Width) {x y : Binary width.format}
    (hX : x.rational? = some (a : ℚ)) (hY : y.rational? = some (b : ℚ))
    (hA : a.natAbs ≤ 2 ^ width.format.precision) (hB : b.natAbs ≤ 2 ^ width.format.precision)
    (hBound : c.natAbs ≤ 2 ^ width.format.precision) :
    (Ieee.apply library width op x y).rational? = some (c : ℚ) := by
  cases width
  · exact rational?_applyDouble hExact library hX hY hBound
  · exact rational?_applySingle hExact library hX hY hBound
  · exact rational?_applyHalf hExact library hX hY hA hB hBound

end

/-! ## The capabilities -/

namespace Capability

/-- Up to this magnitude the integers of a capability are exact. -/
def exactBound : Capability → Nat
  | ieee .double | builtin => 2 ^ 53
  | ieee .single => 2 ^ 24
  | ieee .half => 2 ^ 11
  | decimal => 10 ^ 28 - 1

theorem exactBound_ieee (width : Width) :
    (ieee width).exactBound = 2 ^ width.format.precision := by
  cases width <;> rfl

/-- How the values of a run stand for integers: as a datum that is the integer itself, or as a
number that the capability has made. -/
def Represents (capability : Capability) (n : Int) (x : Scalar) : Prop :=
  x = .int n ∨
    match capability with
    | ieee width => ∃ number, x = .ieee width number ∧ number.rational? = some (n : ℚ)
    | builtin => ∃ number, x = .float number ∧ number.rational? = some (n : ℚ)
    | decimal => ∃ number : Decimal, x = .decimal number ∧ number.IsInt n

theorem rational?_of_represents {capability : Capability} {n : Int} {x : Scalar}
    (hX : capability.Represents n x) : x.rational? = some (n : ℚ) := by
  obtain rfl | hNumber := hX
  · rfl
  · cases capability with
    | ieee | builtin =>
      obtain ⟨number, rfl, hValue⟩ := hNumber
      exact hValue
    | decimal =>
      obtain ⟨number, rfl, hInt⟩ := hNumber
      exact Decimal.rational?_of_isInt hInt

theorem toWidth_of_represents {width : Width} {n : Int} {x : Scalar}
    (hX : (ieee width).Represents n x) (hBound : n.natAbs ≤ 2 ^ width.format.precision) :
    ∃ number, x.toWidth width = .ok number ∧ number.rational? = some (n : ℚ) := by
  have hDouble : n.natAbs ≤ 2 ^ 53 :=
    hBound.trans (Nat.pow_le_pow_right (by decide) width.precision_le)
  obtain rfl | ⟨number, rfl, hValue⟩ := hX
  · have hInt := Binary.rational?_ofInt Format.hasUnits_double hDouble
    refine ⟨(Binary.ofInt .double n).convert width.format, ?_,
      Binary.rational?_convert width.hasUnits hInt hBound⟩
    simp only [Scalar.toWidth, Scalar.toDouble, doubleOfInt_eq_ok hDouble, ok_bind]
    rfl
  · have hWide := Binary.rational?_convert Format.hasUnits_double hValue hDouble
    exact ⟨(number.convert .double).convert width.format, rfl,
      Binary.rational?_convert width.hasUnits hWide hBound⟩

theorem toDecimal_of_represents {n : Int} {x : Scalar} (hX : decimal.Represents n x) :
    ∃ number, x.toDecimal = .ok number ∧ number.IsInt n := by
  obtain rfl | ⟨number, rfl, hInt⟩ := hX
  · exact ⟨.ofInt n, rfl, Decimal.isInt_ofInt n⟩
  · exact ⟨number, rfl, hInt⟩

section

variable {op : Op} {a b c : Int} (hExact : Integers.exact.apply op a b = .ok c) {x y : Scalar}

include hExact

theorem represents_ieee (library : Library) {width : Width}
    (hX : (ieee width).Represents a x) (hY : (ieee width).Represents b y)
    (hA : a.natAbs ≤ 2 ^ width.format.precision) (hB : b.natAbs ≤ 2 ^ width.format.precision)
    (hC : c.natAbs ≤ 2 ^ width.format.precision) :
    ∃ z, (Ieee.arithmetic library width).apply op x y = .ok z ∧ (ieee width).Represents c z := by
  obtain ⟨number, hNumber, hValue⟩ := toWidth_of_represents hX hA
  obtain ⟨number', hNumber', hValue'⟩ := toWidth_of_represents hY hB
  refine ⟨.ieee width (Ieee.apply library width op number number'), ?_, Or.inr ⟨_, rfl, ?_⟩⟩
  · rw [Ieee.apply_arithmetic, Ieee.combine, hNumber, hNumber']
    rfl
  · exact rational?_apply hExact library width hValue hValue' hA hB hC

theorem represents_doubles (library : Library) {number number' : Binary .double}
    (hX : number.rational? = some (a : ℚ)) (hY : number'.rational? = some (b : ℚ))
    (hC : c.natAbs ≤ 2 ^ 53) :
    ∃ z, Builtin.combineDoubles library op number number' = .ok z ∧ builtin.Represents c z := by
  have hDiv : op ≠ .div := by
    rintro rfl
    cases hExact
  exact ⟨_, if_neg fun h => hDiv h.1,
    Or.inr ⟨_, rfl, rational?_applyDouble hExact library hX hY hC⟩⟩

theorem represents_builtin (library : Library) (hX : builtin.Represents a x)
    (hY : builtin.Represents b y) (hA : a.natAbs ≤ 2 ^ 53) (hB : b.natAbs ≤ 2 ^ 53)
    (hC : c.natAbs ≤ 2 ^ 53) :
    ∃ z, (Builtin.arithmetic library).apply op x y = .ok z ∧ builtin.Represents c z := by
  have hCombine : (Builtin.arithmetic library).apply op x y = Builtin.combine library op x y := by
    cases op <;> first | rfl | cases hExact
  have hInt {n : Int} (hN : n.natAbs ≤ 2 ^ 53) :=
    Binary.rational?_ofInt Format.hasUnits_double hN
  rw [hCombine]
  obtain rfl | ⟨number, rfl, hValue⟩ := hX <;> obtain rfl | ⟨number', rfl, hValue'⟩ := hY
  · -- two integers that stand in the tree are combined as integers
    cases op <;> cases hExact <;> exact ⟨_, rfl, Or.inl rfl⟩
  · simp only [Builtin.combine, Builtin.role, doubleOfInt_eq_ok hA, ok_bind]
    exact represents_doubles hExact library (hInt hA) hValue' hC
  · simp only [Builtin.combine, Builtin.role, doubleOfInt_eq_ok hB, ok_bind]
    exact represents_doubles hExact library hValue (hInt hB) hC
  · exact represents_doubles hExact library hValue hValue' hC

theorem represents_decimal (hX : decimal.Represents a x) (hY : decimal.Represents b y)
    (hC : c.natAbs < 10 ^ 28) :
    ∃ z, Decimal.arithmetic.apply op x y = .ok z ∧ decimal.Represents c z := by
  obtain ⟨number, hNumber, hInt⟩ := toDecimal_of_represents hX
  obtain ⟨number', hNumber', hInt'⟩ := toDecimal_of_represents hY
  have hOutcome : ∃ z, Decimal.apply .standard op number number' = .ok z ∧ z.IsInt c := by
    cases op <;> cases hExact
    · exact Decimal.isInt_add hInt hInt' hC
    · exact Decimal.isInt_sub hInt hInt' hC
    · exact Decimal.isInt_mul hInt hInt' hC
  obtain ⟨z, hZ, hIntZ⟩ := hOutcome
  refine ⟨.decimal z, ?_, Or.inr ⟨z, rfl, hIntZ⟩⟩
  rw [Decimal.apply_arithmetic, Decimal.combine, hNumber, hNumber']
  simp only [ok_bind, hZ, Decimal.outcome]

end

/-- Within its bound a capability computes what exact arithmetic computes. -/
theorem within_simulatedBy (capability : Capability) :
    (Integers.within capability.exactBound).SimulatedBy capability.arithmetic
      capability.Represents where
  apply := by
    intro op a b c x y hApply hX hY
    obtain ⟨hA, hB, hExact, hC⟩ := Integers.within_apply_eq_ok_iff.1 hApply
    cases capability with
    | ieee width =>
      rw [exactBound_ieee] at hA hB hC
      exact represents_ieee hExact .machine hX hY hA hB hC
    | builtin => exact represents_builtin hExact .machine hX hY hA hB hC
    | decimal => exact represents_decimal hExact hX hY (Nat.lt_of_le_pred (by decide) hC)
  log := by
    intro a c x hLog
    simp [Integers.within, Integers.exact, Arithmetic.restrict_log_eq_ok_iff] at hLog
  ofInt := by
    intro n c hInt
    obtain ⟨rfl, hBound⟩ := Integers.within_ofInt_eq_ok_iff.1 hInt
    cases capability with
    | ieee width =>
      rw [exactBound_ieee] at hBound
      obtain ⟨number, hNumber, hValue⟩ := toWidth_of_represents (Or.inl rfl) hBound
      refine ⟨.ieee width number, ?_, Or.inr ⟨number, rfl, hValue⟩⟩
      simp only [arithmetic, Ieee.arithmetic, hNumber, ok_bind]
      rfl
    | builtin =>
      refine ⟨.float (.ofInt .double n), ?_,
        Or.inr ⟨_, rfl, Binary.rational?_ofInt Format.hasUnits_double hBound⟩⟩
      simp only [arithmetic, Builtin.arithmetic, doubleOfInt_eq_ok hBound, ok_bind]
      rfl
    | decimal => exact ⟨_, rfl, Or.inr ⟨_, rfl, Decimal.isInt_ofInt n⟩⟩

end Capability

/-! ## Whole trees -/

namespace Expr

/-- For every capability and every tree over integers: if the computation of the tree over the
integers stays within the bound of the capability, then the capability has a value for the tree
and it is that integer; and if the computation of the gradient over the integers stays within the
bound, then the capability has a gradient with the same ids, and its entries are these integers. -/
theorem exact_on_integers (capability : Capability) (expr : Expr Int) :
    (∀ n, expr.evaluate (Integers.within capability.exactBound) = .ok n →
      expr.evaluate Integers.exact = .ok n ∧
      ∃ value, (expr.map Scalar.int).evaluate capability.arithmetic = .ok value ∧
        value.rational? = some (n : ℚ)) ∧
    (∀ grads, expr.gradient (Integers.within capability.exactBound) = .ok grads →
      expr.gradient Integers.exact = .ok grads ∧
      ∃ results, (expr.map Scalar.int).gradient capability.arithmetic = .ok results ∧
        results.ids = grads.ids ∧
        ∀ id n, grads.get? id = some n →
          ∃ value, results.get? id = some value ∧ value.rational? = some (n : ℚ)) := by
  have hRelated : Related capability.Represents expr (expr.map Scalar.int) :=
    related_map (f := Scalar.int) (fun _ => Or.inl rfl) expr
  have hSimulated := capability.within_simulatedBy
  refine ⟨fun n hValue => ?_, fun grads hGradient => ?_⟩
  · obtain ⟨value, hResult, hRepresents⟩ := hRelated.evaluate hSimulated hValue
    exact ⟨evaluate_of_restrict hValue, value, hResult,
      Capability.rational?_of_represents hRepresents⟩
  · obtain ⟨results, hResults, hMaps⟩ := hRelated.gradient hSimulated hGradient
    refine ⟨gradient_of_restrict hGradient, results, hResults, hMaps.ids_eq, ?_⟩
    intro id n hEntry
    obtain ⟨value, hFound, hRepresents⟩ := hMaps.get?_eq id n hEntry
    exact ⟨value, hFound, Capability.rational?_of_represents hRepresents⟩

/-- In half precision `x * x - (-23)` at 45 is 2048, the bound itself, and its derivative is 90. -/
theorem exact_on_integers_half :
    ∃ (expr : Expr Int) (grads : IdMap Int),
      expr = sub (mul (var "x" 45) (var "x" 45)) (const (-23)) ∧
      grads = .ofList [("x", 90)] ∧
      expr.evaluate (Integers.within (Capability.ieee .half).exactBound) = .ok 2048 ∧
      expr.gradient (Integers.within (Capability.ieee .half).exactBound) = .ok grads ∧
      (∃ value, (expr.map Scalar.int).evaluate (Capability.ieee .half).arithmetic = .ok value ∧
        value.rational? = some ((2048 : Int) : ℚ)) ∧
      ∃ results, (expr.map Scalar.int).gradient (Capability.ieee .half).arithmetic = .ok results ∧
        results.ids = grads.ids ∧
        ∀ id n, grads.get? id = some n →
          ∃ value, results.get? id = some value ∧ value.rational? = some (n : ℚ) := by
  have hValue : (sub (mul (var "x" 45) (var "x" 45)) (const (-23)) : Expr Int).evaluate
      (Integers.within (Capability.ieee .half).exactBound) = .ok 2048 := rfl
  have hGradient : (sub (mul (var "x" 45) (var "x" 45)) (const (-23)) : Expr Int).gradient
      (Integers.within (Capability.ieee .half).exactBound) = .ok (.ofList [("x", 90)]) := rfl
  have hExact := exact_on_integers (.ieee .half)
    (sub (mul (var "x" 45) (var "x" 45)) (const (-23)))
  exact ⟨_, _, rfl, rfl, hValue, hGradient, (hExact.1 _ hValue).2, (hExact.2 _ hGradient).2⟩

end Expr

end Autodiff
