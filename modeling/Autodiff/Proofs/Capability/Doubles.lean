import Autodiff.Capability.Builtin
import Autodiff.Proofs.Binary.Rounding
import Autodiff.Proofs.Gradient.Simulation

/-!
# Builtin doubles and interchange doubles

The builtin arithmetic and the arithmetic of the widest interchange format compute the same
doubles, except that the builtin one fails in some of the cases where a result is infinite or
not a number. Both kinds of doubles may stand in one tree; with an interchange double among its
operands the builtin arithmetic does not fail either.

The library that powers and logarithms are taken from is a parameter. It is the same for both
arithmetics, so its square is the rounded product.

* `Library.SquaresByProduct` is what is assumed of the library;
* `Builtin.apply_doubles` and `Builtin.log_double` say of a single operation that it computes the
  same double or fails where that double is not finite;
* `Builtin.simulatedBy_ieee` and `Ieee.finite_simulatedBy_builtin` are the two directions for
  operations, and `Expr.builtin_agrees_with_ieee` puts them together for whole trees.
-/

namespace Autodiff

/-- The library squares a double by a rounded product, as the arithmetic of the interchange
formats does by itself. -/
def Library.SquaresByProduct (library : Library) : Prop :=
  ∀ x, library.powDouble x (Binary.ofInt .double 2) = Binary.mul x x

/-! ## Doubles of either kind -/

namespace Scalar

/-- The double of a builtin number or of a number of the widest interchange format. -/
def double? : Scalar → Option (Binary .double)
  | float x => some x
  | ieee .double x => some x
  | _ => none

/-- Two values are the same double; two values that are not numbers are the same. -/
def SameDouble (x y : Scalar) : Prop := ∃ d, x.double? = some d ∧ y.double? = some d

theorem SameDouble.symm {x y : Scalar} (h : SameDouble x y) : SameDouble y x := by
  obtain ⟨d, hX, hY⟩ := h
  exact ⟨d, hY, hX⟩

theorem double?_eq_some_iff {x : Scalar} {d : Binary .double} :
    x.double? = some d ↔ x = float d ∨ x = ieee .double d := by
  constructor
  · intro hX
    cases x with
    | float =>
      cases hX
      exact Or.inl rfl
    | ieee width number =>
      cases width with
      | double =>
        cases hX
        exact Or.inr rfl
      | single | half => cases hX
    | int | decimal | text | bool | nothing => cases hX
  · rintro (rfl | rfl) <;> rfl

theorem toDouble_of_double? {x : Scalar} {d : Binary .double} (hX : x.double? = some d) :
    x.toDouble = .ok d := by
  obtain rfl | rfl := double?_eq_some_iff.1 hX
  · rfl
  · exact congrArg Except.ok (Binary.convert_self (by decide) d)

theorem toReal_of_double? {x : Scalar} {d : Binary .double} (hX : x.double? = some d) :
    x.toReal = .ok d := by
  rw [← toDouble_of_double? hX]
  obtain rfl | rfl := double?_eq_some_iff.1 hX <;> rfl

theorem toWidth_of_double? {x : Scalar} {d : Binary .double} (hX : x.double? = some d) :
    x.toWidth .double = .ok d := by
  have hDouble : x.toWidth .double = (do let d ← x.toDouble; return d.convert .double) := by
    obtain rfl | rfl := double?_eq_some_iff.1 hX <;> rfl
  rw [hDouble, toDouble_of_double? hX]
  exact congrArg Except.ok (Binary.convert_self (by decide) d)

end Scalar

variable {library : Library} {x y : Scalar} {a b : Binary .double}

/-! ## Single operations -/

theorem Binary.isFinite_div_of_isZero {f : Format} (x : Binary f) {y : Binary f}
    (hZero : y.isZero = true) : (Binary.div x y).isFinite = false := by
  cases y with
  | nan | infinite => cases hZero
  | finite t n q hN =>
    obtain rfl : n = 0 := beq_iff_eq.1 hZero
    cases x with
    | nan | infinite => rfl
    | finite s m p hM =>
      rw [div, if_pos rfl]
      split <;> rfl

theorem Ieee.apply_doubles (library : Library) (op : Op) (hX : x.double? = some a)
    (hY : y.double? = some b) :
    (Ieee.arithmetic library .double).apply op x y =
      .ok (.ieee .double (Ieee.applyDouble library op a b)) := by
  rw [Ieee.apply_arithmetic, Ieee.combine, Scalar.toWidth_of_double? hX,
    Scalar.toWidth_of_double? hY]
  rfl

theorem Ieee.log_double (library : Library) (hX : x.double? = some a) :
    (Ieee.arithmetic library .double).log x = .ok (.ieee .double (Binary.logDouble library a)) := by
  simp only [Ieee.arithmetic, Scalar.toWidth_of_double? hX]
  rfl

theorem Ieee.ofInt_double {n : Int} :
    (Ieee.arithmetic library .double).ofInt n = (doubleOfInt n).map (.ieee .double) := by
  simp only [Ieee.arithmetic, Scalar.toWidth, Scalar.toDouble]
  cases doubleOfInt n with
  | error => rfl
  | ok d =>
    change Except.ok (Scalar.ieee .double (d.convert .double)) = .ok (.ieee .double d)
    rw [Binary.convert_self (by decide) d]

namespace Builtin

theorem combine_doubles (op : Op) (hX : x.double? = some a) (hY : y.double? = some b) :
    (∃ z, combine library op x y = .ok z ∧
      z.double? = some (Ieee.applyDouble library op a b)) ∨
    (∃ cause, combine library op x y = .error cause ∧
      (Ieee.applyDouble library op a b).isFinite = false) := by
  have hIeee := Ieee.apply_doubles library op hX hY
  rw [Ieee.apply_arithmetic] at hIeee
  obtain rfl | rfl := Scalar.double?_eq_some_iff.1 hX <;>
    obtain rfl | rfl := Scalar.double?_eq_some_iff.1 hY
  · -- two builtin doubles: only a division by zero fails
    simp only [combine, role, combineDoubles]
    split
    · next hZero =>
      obtain ⟨rfl, hZero⟩ := hZero
      exact Or.inr ⟨_, rfl, Binary.isFinite_div_of_isZero a hZero⟩
    · exact Or.inl ⟨_, rfl, rfl⟩
  all_goals exact Or.inl ⟨_, hIeee, rfl⟩

theorem powDoubles_eq (library : Library) (x y : Binary .double) :
    powDoubles library x y = .ok (library.powDouble x y) ∨
      ∃ cause, powDoubles library x y = .error cause ∧
        (library.powDouble x y).isFinite = false := by
  unfold powDoubles
  cases hPower : library.powDouble x y with
  | nan => cases x.isFinite && y.isFinite <;> simp [Binary.isNaN, Binary.isFinite]
  | infinite =>
    cases x.isFinite && y.isFinite <;> simp [Binary.isNaN, Binary.isInfinite, Binary.isFinite]
  | finite =>
    cases x.isFinite && y.isFinite <;> simp [Binary.isNaN, Binary.isInfinite]

theorem powWith_powDouble (hSquare : library.SquaresByProduct) (x y : Binary .double) :
    Ieee.powWith library.powDouble x y = library.powDouble x y := by
  unfold Ieee.powWith
  split
  · next hTwo => rw [hTwo, hSquare x]
  · rfl

/-- On doubles of either kind the builtin arithmetic computes the double that the interchange
arithmetic computes, or it fails and that double is not finite. -/
theorem apply_doubles (hSquare : library.SquaresByProduct) (op : Op) (hX : x.double? = some a)
    (hY : y.double? = some b) :
    (∃ z, (arithmetic library).apply op x y = .ok z ∧
      z.double? = some (Ieee.applyDouble library op a b)) ∨
    (∃ cause, (arithmetic library).apply op x y = .error cause ∧
      (Ieee.applyDouble library op a b).isFinite = false) := by
  cases op with
  | add | sub | mul | div => exact combine_doubles _ hX hY
  | pow =>
    have hPow : (arithmetic library).apply .pow x y =
        (powDoubles library a b).map .float := by
      change pow library x y = _
      simp only [pow, Scalar.toReal_of_double? hX, Scalar.toReal_of_double? hY, ok_bind]
      cases powDoubles library a b <;> rfl
    have hSame : Ieee.applyDouble library .pow a b = library.powDouble a b :=
      powWith_powDouble hSquare a b
    rw [hPow, hSame]
    obtain hOk | ⟨cause, hError, hNotFinite⟩ := powDoubles_eq library a b
    · exact Or.inl ⟨_, by rw [hOk]; rfl, rfl⟩
    · exact Or.inr ⟨cause, by rw [hError]; rfl, hNotFinite⟩

theorem logDouble_eq (library : Library) (x : Binary .double) :
    logDouble library x = .ok (Binary.logDouble library x) ∨
      ∃ cause, logDouble library x = .error cause ∧
        (Binary.logDouble library x).isFinite = false := by
  cases x with
  | nan => exact Or.inl rfl
  | infinite negative => cases negative <;> simp [logDouble, Binary.logDouble, Binary.isFinite]
  | finite negative m q hCanonical =>
    unfold logDouble
    simp only
    split
    · next hOutside =>
      refine Or.inr ⟨_, rfl, ?_⟩
      simp only [Binary.logDouble]
      rcases hOutside with hNegative | hZero
      · rw [if_pos hNegative]
        split <;> rfl
      · rw [if_pos hZero]
        rfl
    · exact Or.inl rfl

theorem log_double (library : Library) (hX : x.double? = some a) :
    (∃ z, (arithmetic library).log x = .ok z ∧ z.double? = some (Binary.logDouble library a)) ∨
    (∃ cause, (arithmetic library).log x = .error cause ∧
      (Binary.logDouble library a).isFinite = false) := by
  have hLog : (arithmetic library).log x = (logDouble library a).map .float := by
    have hReal := Scalar.toReal_of_double? hX
    obtain rfl | rfl := Scalar.double?_eq_some_iff.1 hX
    all_goals
      simp only [arithmetic, log, role, hReal, ok_bind]
      cases logDouble library a <;> rfl
  rw [hLog]
  obtain hOk | ⟨cause, hError, hNotFinite⟩ := logDouble_eq library a
  · exact Or.inl ⟨_, by rw [hOk]; rfl, rfl⟩
  · exact Or.inr ⟨cause, by rw [hError]; rfl, hNotFinite⟩

theorem ofInt_double {n : Int} : (arithmetic library).ofInt n = (doubleOfInt n).map .float := by
  simp only [arithmetic]
  cases doubleOfInt n <;> rfl

end Builtin

/-! ## Both directions -/

/-- Where the builtin arithmetic has a result, the interchange arithmetic has the same double. -/
theorem Builtin.simulatedBy_ieee (hSquare : library.SquaresByProduct) :
    (Builtin.arithmetic library).SimulatedBy (Ieee.arithmetic library .double)
      Scalar.SameDouble where
  apply := by
    rintro op x y z x' y' hApply ⟨a, hX, hX'⟩ ⟨b, hY, hY'⟩
    refine ⟨_, Ieee.apply_doubles library op hX' hY', ?_⟩
    obtain ⟨found, hFound, hDouble⟩ | ⟨cause, hError, -⟩ := Builtin.apply_doubles hSquare op hX hY
    · cases hApply.symm.trans hFound
      exact ⟨_, hDouble, rfl⟩
    · cases hApply.symm.trans hError
  log := by
    rintro x z x' hLog ⟨a, hX, hX'⟩
    refine ⟨_, Ieee.log_double library hX', ?_⟩
    obtain ⟨found, hFound, hDouble⟩ | ⟨cause, hError, -⟩ :=
      Builtin.log_double library hX
    · cases hLog.symm.trans hFound
      exact ⟨_, hDouble, rfl⟩
    · cases hLog.symm.trans hError
  ofInt := by
    intro n z hInt
    rw [Builtin.ofInt_double] at hInt
    rw [Ieee.ofInt_double]
    cases hDouble : doubleOfInt n with
    | error cause =>
      rw [hDouble] at hInt
      cases hInt
    | ok d =>
      rw [hDouble] at hInt
      cases hInt
      exact ⟨_, rfl, d, rfl, rfl⟩

/-- Whether a value is a double other than an infinity or not-a-number. -/
def Scalar.isFiniteDouble (x : Scalar) : Bool := x.double?.any Binary.isFinite

/-- The interchange arithmetic on doubles, given up at the first result that is not finite. -/
def Ieee.finiteArithmetic (library : Library) : Arithmetic Scalar (Option ScalarError) :=
  (Ieee.arithmetic library .double).restrict (fun _ => true) Scalar.isFiniteDouble

/-- Where the interchange arithmetic has a finite result, the builtin arithmetic has the same
double. -/
theorem Ieee.finite_simulatedBy_builtin (hSquare : library.SquaresByProduct) :
    (Ieee.finiteArithmetic library).SimulatedBy (Builtin.arithmetic library)
      Scalar.SameDouble where
  apply := by
    rintro op x y z x' y' hApply ⟨a, hX, hX'⟩ ⟨b, hY, hY'⟩
    obtain ⟨-, -, hApply, hFinite⟩ := Arithmetic.restrict_apply_eq_ok_iff.1 hApply
    cases hApply.symm.trans (Ieee.apply_doubles library op hX hY)
    obtain ⟨found, hFound, hDouble⟩ | ⟨-, -, hNotFinite⟩ :=
      Builtin.apply_doubles hSquare op hX' hY'
    · exact ⟨found, hFound, _, rfl, hDouble⟩
    · exact absurd (hNotFinite.symm.trans hFinite) Bool.false_ne_true
  log := by
    rintro x z x' hLog ⟨a, hX, hX'⟩
    obtain ⟨-, hLog, hFinite⟩ := Arithmetic.restrict_log_eq_ok_iff.1 hLog
    cases hLog.symm.trans (Ieee.log_double library hX)
    obtain ⟨found, hFound, hDouble⟩ | ⟨-, -, hNotFinite⟩ :=
      Builtin.log_double library hX'
    · exact ⟨found, hFound, _, rfl, hDouble⟩
    · exact absurd (hNotFinite.symm.trans hFinite) Bool.false_ne_true
  ofInt := by
    intro n z hInt
    obtain ⟨hInt, -⟩ := Arithmetic.restrict_ofInt_eq_ok_iff.1 hInt
    rw [Ieee.ofInt_double] at hInt
    rw [Builtin.ofInt_double]
    cases hDouble : doubleOfInt n with
    | error cause =>
      rw [hDouble] at hInt
      cases hInt
    | ok d =>
      rw [hDouble] at hInt
      cases hInt
      exact ⟨_, rfl, d, rfl, rfl⟩

/-! ## Whole trees -/

namespace Expr

/-- A leaf other than a foreign value; a datum is a double of either kind. -/
def IsDoubleLeaf : Expr Scalar → Prop
  | var _ x | lit x => ∃ d, x.double? = some d
  | const _ => True
  | _ => False

theorem related_sameDouble {expr : Expr Scalar} (hExpr : expr.EveryLeaf IsDoubleLeaf) :
    Related Scalar.SameDouble expr expr := by
  refine related_self (fun leaf hLeaf => ?_) hExpr
  cases leaf with
  | var id x =>
    obtain ⟨d, hD⟩ := hLeaf
    exact .var id ⟨d, hD, hD⟩
  | lit x =>
    obtain ⟨d, hD⟩ := hLeaf
    exact .lit ⟨d, hD, hD⟩
  | const n => exact .const n
  | binary | unary | foreign => exact hLeaf.elim

/-- Over a tree whose data are doubles of either kind: what the builtin arithmetic computes, the
interchange arithmetic computes too, and it is the same double for the value and for each entry
of the gradient. Conversely the builtin arithmetic does not fail if the interchange arithmetic
gets through with finite results only. -/
theorem builtin_agrees_with_ieee (hSquare : library.SquaresByProduct) {expr : Expr Scalar}
    (hExpr : expr.EveryLeaf IsDoubleLeaf) :
    (∀ value, expr.evaluate (Builtin.arithmetic library) = .ok value →
      ∃ value', expr.evaluate (Ieee.arithmetic library .double) = .ok value' ∧
        value.SameDouble value') ∧
    (∀ grads, expr.gradient (Builtin.arithmetic library) = .ok grads →
      ∃ grads', expr.gradient (Ieee.arithmetic library .double) = .ok grads' ∧
        IdMap.Related Scalar.SameDouble grads grads') ∧
    (∀ value, expr.evaluate (Ieee.finiteArithmetic library) = .ok value →
      ∃ value', expr.evaluate (Builtin.arithmetic library) = .ok value' ∧
        value.SameDouble value') ∧
    (∀ grads, expr.gradient (Ieee.finiteArithmetic library) = .ok grads →
      ∃ grads', expr.gradient (Builtin.arithmetic library) = .ok grads' ∧
        IdMap.Related Scalar.SameDouble grads grads') := by
  have hRelated := related_sameDouble hExpr
  have hForth := Builtin.simulatedBy_ieee hSquare
  have hBack := Ieee.finite_simulatedBy_builtin hSquare
  exact ⟨fun _ => hRelated.evaluate hForth, fun _ => hRelated.gradient hForth,
    fun _ => hRelated.evaluate hBack, fun _ => hRelated.gradient hBack⟩

/-- The square of a builtin 3, with an interchange 2 for the exponent, over 4. The derivative by
the exponent, which is computed and dropped, takes the logarithm of 3 from the library. -/
theorem builtin_agrees_with_ieee_square :
    ∃ (library : Library) (expr : Expr Scalar) (three two : Binary .double)
      (value finite : Scalar) (grads finiteGrads : IdMap Scalar),
      three = .ofInt .double 3 ∧ two = .ofInt .double 2 ∧
      library.logDouble three = .ofDecimal .double false 10986122886681098 (-16) ∧
      library.powDouble three (.ofInt .double 1) = three ∧ library.SquaresByProduct ∧
      expr = div (pow (var "x" (.float three)) (lit (.ieee .double two))) (const 4) ∧
      expr.EveryLeaf IsDoubleLeaf ∧
      expr.evaluate (Builtin.arithmetic library) = .ok value ∧
      value = .float (.ofDecimal .double false 225 (-2)) ∧
      (∃ value', expr.evaluate (Ieee.arithmetic library .double) = .ok value' ∧
        value.SameDouble value') ∧
      expr.gradient (Builtin.arithmetic library) = .ok grads ∧
      grads.entries = [("x", .ieee .double (.ofDecimal .double false 15 (-1)))] ∧
      (∃ grads', expr.gradient (Ieee.arithmetic library .double) = .ok grads' ∧
        IdMap.Related Scalar.SameDouble grads grads') ∧
      expr.evaluate (Ieee.finiteArithmetic library) = .ok finite ∧
      (∃ value', expr.evaluate (Builtin.arithmetic library) = .ok value' ∧
        finite.SameDouble value') ∧
      expr.gradient (Ieee.finiteArithmetic library) = .ok finiteGrads ∧
      ∃ grads', expr.gradient (Builtin.arithmetic library) = .ok grads' ∧
        IdMap.Related Scalar.SameDouble finiteGrads grads' := by
  let library : Library :=
    ⟨Ieee.powWith fun x _ => x, Ieee.powWith fun x _ => x,
      fun _ => .ofDecimal .double false 10986122886681098 (-16), id, 0⟩
  let expr : Expr Scalar :=
    div (pow (var "x" (.float (.ofInt .double 3))) (lit (.ieee .double (.ofInt .double 2))))
      (const 4)
  have hSquare : library.SquaresByProduct := Ieee.powWith_two fun x _ => x
  have hExpr : expr.EveryLeaf IsDoubleLeaf := ⟨⟨⟨_, rfl⟩, ⟨_, rfl⟩⟩, trivial⟩
  have hValue : expr.evaluate (Builtin.arithmetic library) =
      .ok (.float (.ofDecimal .double false 225 (-2))) := by decide +kernel
  have hFinite : expr.evaluate (Ieee.finiteArithmetic library) =
      .ok (.ieee .double (.ofDecimal .double false 225 (-2))) := by decide +kernel
  have hRun : (expr.gradient (Builtin.arithmetic library)).map IdMap.entries =
      .ok [("x", .ieee .double (.ofDecimal .double false 15 (-1)))] := by decide +kernel
  have hFiniteRun : (expr.gradient (Ieee.finiteArithmetic library)).map IdMap.entries =
      .ok [("x", .ieee .double (.ofDecimal .double false 15 (-1)))] := by decide +kernel
  obtain ⟨grads, hGradient, hEntries⟩ := map_eq_ok_iff.1 hRun
  obtain ⟨finiteGrads, hFiniteGradient, -⟩ := map_eq_ok_iff.1 hFiniteRun
  obtain ⟨hValues, hGradients, hFinites, hFiniteGradients⟩ := builtin_agrees_with_ieee hSquare hExpr
  exact ⟨library, expr, _, _, _, _, grads, finiteGrads, rfl, rfl, rfl, rfl, hSquare, rfl, hExpr,
    hValue, rfl, hValues _ hValue, hGradient, hEntries, hGradients _ hGradient, hFinite,
    hFinites _ hFinite, hFiniteGradient, hFiniteGradients _ hFiniteGradient⟩

end Expr

end Autodiff
