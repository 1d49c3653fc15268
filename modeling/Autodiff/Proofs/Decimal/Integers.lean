import Autodiff.Decimal.Arithmetic
import Autodiff.Proofs.Text.Digits

/-!
# Integers in the standard decimal context

An integer of up to 28 digits is its own coefficient with the exponent 0. The standard context
keeps it as it is, so sums, differences and products of such integers are exact as long as they
have no more digits themselves.

* `Decimal.IsInt` says of a decimal number that it is an integer with the exponent 0;
* `Decimal.Context.standard_finalize` says that a result of up to 28 digits is not rounded;
* `Decimal.isInt_add`, `Decimal.isInt_sub` and `Decimal.isInt_mul` say that the operations are
  exact.
-/

namespace Autodiff.Decimal

open Text

/-- The decimal number of an integer with the exponent 0; a zero may have either sign. -/
def IsInt (x : Decimal) (n : Int) : Prop :=
  ∃ negative coefficient, x = finite negative coefficient 0 ∧ Binary.signed negative coefficient = n

theorem isInt_ofInt (n : Int) : (ofInt n).IsInt n := by
  refine ⟨decide (n < 0), n.natAbs, rfl, ?_⟩
  by_cases hNegative : n < 0
  · rw [Binary.signed, decide_eq_true hNegative, if_pos rfl]
    omega
  · rw [Binary.signed, decide_eq_false hNegative, if_neg Bool.false_ne_true]
    omega

theorem isInt_negate {x : Decimal} {n : Int} (hX : x.IsInt n) : x.negate.IsInt (-n) := by
  obtain ⟨negative, coefficient, rfl, rfl⟩ := hX
  refine ⟨!negative, coefficient, rfl, ?_⟩
  cases negative <;> simp [Binary.signed]

namespace Context

@[simp] theorem standard_precision : standard.precision = 28 := rfl

@[simp] theorem standard_minLeading : standard.minLeading = -999999 := rfl

@[simp] theorem standard_maxLeading : standard.maxLeading = 999999 := rfl

theorem standard_finalize (negative : Bool) {coefficient : Nat} (hBound : coefficient < 10 ^ 28) :
    standard.finalize negative coefficient 0 = .ok (finite negative coefficient 0) := by
  have hCount : digitCount coefficient ≤ 28 := (digitCount_le_iff (by decide)).2 hBound
  have hPos := digitCount_pos coefficient
  have hExcess : digitCount coefficient - standard.precision = 0 := by
    rw [standard_precision]
    omega
  have hKept : dropDigits coefficient 0 = coefficient := by
    have hOne := halfEven_mul_left coefficient Nat.one_pos
    rw [Nat.one_mul] at hOne
    rw [dropDigits, if_neg (Nat.not_lt_zero _)]
    exact hOne
  have hRound : standard.roundCoefficient coefficient 0 = (coefficient, 0) := by
    have hNe : coefficient ≠ Nat.pow 10 standard.precision := Nat.ne_of_lt hBound
    simp only [roundCoefficient, hExcess, hKept, if_neg hNe]
    rfl
  have hLow : ¬ adjusted coefficient 0 < standard.minLeading := by
    rw [adjusted, standard_minLeading]
    omega
  have hHigh : ¬ standard.maxLeading < adjusted coefficient 0 := by
    rw [adjusted, standard_maxLeading]
    omega
  unfold finalize
  split
  · next hZero =>
    rw [hZero]
    rfl
  · simp only [hRound, if_neg hLow, if_neg hHigh]

end Context

variable {x y : Decimal} {a b : Int}

theorem isInt_add (hX : x.IsInt a) (hY : y.IsInt b) (hBound : (a + b).natAbs < 10 ^ 28) :
    ∃ z, Context.standard.add x y = .ok z ∧ z.IsInt (a + b) := by
  obtain ⟨s, m, rfl, rfl⟩ := hX
  obtain ⟨t, n, rfl, rfl⟩ := hY
  -- both exponents are 0, so neither number is too small to matter
  have hFloor : ¬ adjusted n 0 < 0 - 1 + min 0 ((digitCount m : Int) -
      Context.standard.precision - 1) := by
    have := digitCount_pos n
    rw [adjusted]
    omega
  have hSum : Context.standard.add (finite s m 0) (finite t n 0) =
      if Binary.signed s m + Binary.signed t n = 0 then
        Context.standard.finalize (s && t) 0 0
      else Context.standard.finalize (Binary.signed s m + Binary.signed t n < 0)
        (Binary.signed s m + Binary.signed t n).natAbs 0 := by
    have hShift : (if m = 0 then 0 else ((0 : Int) - 0).toNat) = 0 := by split <;> rfl
    simp only [Context.add, Context.nanOutcome?, Int.le_refl, if_true, Context.addOrdered, hFloor,
      and_false, if_false, hShift, Binary.signed, Nat.pow_eq, Nat.pow_zero, Int.natCast_one,
      Int.mul_one]
    rfl
  rw [hSum]
  split
  · next hZero =>
    rw [hZero]
    refine ⟨_, Context.standard_finalize (s && t) (by decide), s && t, 0, rfl, ?_⟩
    cases s && t <;> rfl
  · exact ⟨_, Context.standard_finalize _ hBound, isInt_ofInt _⟩

theorem isInt_sub (hX : x.IsInt a) (hY : y.IsInt b) (hBound : (a - b).natAbs < 10 ^ 28) :
    ∃ z, Context.standard.sub x y = .ok z ∧ z.IsInt (a - b) := by
  have hNegated := isInt_add hX (isInt_negate hY) (by rwa [← Int.sub_eq_add_neg])
  rw [← Int.sub_eq_add_neg] at hNegated
  obtain ⟨s, m, rfl, rfl⟩ := hX
  obtain ⟨t, n, rfl, rfl⟩ := hY
  exact hNegated

theorem isInt_mul (hX : x.IsInt a) (hY : y.IsInt b) (hBound : (a * b).natAbs < 10 ^ 28) :
    ∃ z, Context.standard.mul x y = .ok z ∧ z.IsInt (a * b) := by
  obtain ⟨s, m, rfl, rfl⟩ := hX
  obtain ⟨t, n, rfl, rfl⟩ := hY
  have hProduct : Binary.signed (s ^^ t) (m * n) = Binary.signed s m * Binary.signed t n := by
    cases s <;> cases t <;> simp [Binary.signed]
  have hCoefficient : (Binary.signed s m * Binary.signed t n).natAbs = m * n := by
    rw [← hProduct, Binary.signed]
    split
    · rw [Int.natAbs_neg, Int.natAbs_natCast]
    · rw [Int.natAbs_natCast]
  rw [hCoefficient] at hBound
  exact ⟨_, Context.standard_finalize (s ^^ t) hBound, s ^^ t, m * n, rfl, hProduct⟩

end Autodiff.Decimal
