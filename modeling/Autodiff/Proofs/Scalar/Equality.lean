import Autodiff.Expr.Operators
import Autodiff.Proofs.Binary.Rounding
import Autodiff.Proofs.Outcome
import Autodiff.Scalar.Equality

/-!
# What equality of scalars compares

Two exact values are the same if they are the same rational number, though they are compared
without writing out large powers. So equality of scalars is equality of what they mean, a number,
an infinity, a text or nothing, as long as no operand is a not-a-number, which equals nothing, or
a number of a narrow width, to which others are rounded.

* `Exact.same_iff` says that exact values are compared as rational numbers;
* `Scalar.meaning?` is what a scalar is compared by, and `Scalar.equal_of_meaning` says so.
-/

namespace Autodiff

namespace Exact

/-- The rational number of an exact value. -/
def value (x : Exact) : ℚ := x.n * 2 ^ x.two * 10 ^ x.ten

theorem value_eq_zero_iff {x : Exact} : x.value = 0 ↔ x.n = 0 := by
  have hTwo : (2 : ℚ) ^ x.two ≠ 0 := by positivity
  have hTen : (10 : ℚ) ^ x.ten ≠ 0 := by positivity
  simp [value, hTwo, hTen]

/-- The bound on the powers holds wherever the two sides are equal. -/
theorem reaches_iff {m : Nat} (hM : 0 < m) (n : Nat) (s : Int) (t : Nat) :
    reaches m s t n = true ↔ (m * 2 ^ s * 10 ^ t : ℚ) = n := by
  have hShift : (0 : ℚ) < 2 ^ (-s).toNat := by positivity
  have hEqual : m * 2 ^ s.toNat * 10 ^ t = n * 2 ^ (-s).toNat ↔ (m * 2 ^ s * 10 ^ t : ℚ) = n := by
    have hPower := pow_toNat_div_pow_toNat 2 (by decide) s
    rw [Nat.cast_ofNat, div_eq_iff hShift.ne'] at hPower
    rw [← Nat.cast_inj (R := ℚ)]
    push_cast
    rw [hPower]
    constructor
    · intro h
      refine mul_right_cancel₀ hShift.ne' ?_
      linarith
    · intro h
      rw [← h]
      ring
  rw [reaches, Bool.and_eq_true, decide_eq_true_iff, beq_iff_eq]
  simp only [Nat.pow_eq]
  rw [hEqual, and_iff_right_iff_imp]
  intro h
  have hOne : (1 : ℚ) ≤ m := by exact_mod_cast hM
  have hEight : (2 : ℚ) ^ (3 * t) ≤ 10 ^ t := by
    rw [pow_mul]
    gcongr
    norm_num
  have hBits : (n : ℚ) < 2 ^ (n.log2 + 1) := by exact_mod_cast Nat.lt_log2_self
  have hPowers : (2 : ℚ) ^ (3 * (t : Int) + s) < 2 ^ ((n.log2 : Int) + 1) := by
    calc (2 : ℚ) ^ (3 * (t : Int) + s) = 2 ^ s * 2 ^ (3 * t) := by
          rw [add_comm, zpow_add₀ (by decide)]
          norm_cast
      _ ≤ m * 2 ^ s * 10 ^ t := by
          gcongr
          exact le_mul_of_one_le_left (by positivity) hOne
      _ < 2 ^ ((n.log2 : Int) + 1) := by
          rw [h]
          exact_mod_cast hBits
  exact Int.lt_add_one_iff.1 ((zpow_lt_zpow_iff_right₀ (by norm_num)).1 hPowers)

theorem value_neg_iff {x : Exact} : x.value < 0 ↔ x.n < 0 := by
  have hPowers : (0 : ℚ) < 2 ^ x.two * 10 ^ x.ten := by positivity
  rw [value, mul_assoc, mul_neg_iff]
  simp [hPowers, hPowers.le]

theorem abs_value (x : Exact) : |x.value| = x.n.natAbs * 2 ^ x.two * 10 ^ x.ten := by
  have hPowers : (0 : ℚ) < 2 ^ x.two * 10 ^ x.ten := by positivity
  rw [value, mul_assoc, abs_mul, abs_of_pos hPowers, Nat.cast_natAbs, Int.cast_abs, mul_assoc]

theorem reaches_natAbs_iff {x y : Exact} (hX : x.n ≠ 0) (hTen : y.ten ≤ x.ten) :
    reaches x.n.natAbs (x.two - y.two) (x.ten - y.ten).toNat y.n.natAbs = true ↔
      |x.value| = |y.value| := by
  have hPowers : (0 : ℚ) < 2 ^ y.two * 10 ^ y.ten := by positivity
  have hTens : (10 : ℚ) ^ (x.ten - y.ten).toNat = 10 ^ (x.ten - y.ten) := by
    rw [← zpow_natCast]
    congr 1
    omega
  rw [reaches_iff (Int.natAbs_pos.2 hX), abs_value, abs_value, hTens,
    ← mul_left_inj' hPowers.ne', zpow_sub₀ (by decide), zpow_sub₀ (by decide)]
  field_simp

/-- Exact values are compared as rational numbers. -/
theorem same_iff (x y : Exact) : x.same y = true ↔ x.value = y.value := by
  unfold same
  split
  · next hZero =>
    rw [decide_eq_true_iff]
    rcases hZero with hX | hY
    · rw [hX, value_eq_zero_iff.2 hX, eq_comm, eq_comm (a := (0 : ℚ)), value_eq_zero_iff]
    · rw [hY, value_eq_zero_iff.2 hY, value_eq_zero_iff]
  · next hNonzero =>
    rw [not_or] at hNonzero
    obtain ⟨hX, hY⟩ := hNonzero
    split
    · next hSigns =>
      have hDiffer : ¬ (x.value < 0 ↔ y.value < 0) := by
        rw [value_neg_iff, value_neg_iff]
        simpa using hSigns
      simp only [Bool.false_eq_true, false_iff]
      exact fun hEq => hDiffer (by rw [hEq])
    · next hSigns =>
      have hMagnitude : |x.value| = |y.value| ↔ x.value = y.value := by
        have hAgree : x.value < 0 ↔ y.value < 0 := by
          rw [value_neg_iff, value_neg_iff]
          simpa using hSigns
        have hNe : x.value ≠ 0 := mt value_eq_zero_iff.1 hX
        rw [abs_eq_abs, or_iff_left_iff_imp]
        intro hOpposite
        rcases lt_or_gt_of_ne hNe with hNegative | hPositive
        · linarith [hAgree.1 hNegative]
        · have := mt hAgree.2 (not_lt.2 hPositive.le)
          linarith
      split
      · next hTens => rw [reaches_natAbs_iff hX hTens, hMagnitude]
      · next hTens => rw [reaches_natAbs_iff hY (not_le.1 hTens).le, eq_comm, hMagnitude]

end Exact

/-! ## Meanings -/

/-- What a scalar is compared by. -/
inductive Meaning where
  | number (value : ℚ)
  | infinite (negative : Bool)
  | text (content : String)
  | nothing
  deriving DecidableEq

/-- Whether numbers, or infinities, mean this. -/
def Meaning.isNumber : Meaning → Bool
  | number _ | infinite _ => true
  | text _ | nothing => false

/-- The number or the infinity; a not-a-number has no meaning. -/
def Binary.meaning? {f : Format} : Binary f → Option Meaning
  | nan => none
  | infinite negative => some (.infinite negative)
  | finite negative m q _ => some (.number (signed negative m * 2 ^ q))

def Decimal.meaning? : Decimal → Option Meaning
  | nan _ _ _ => none
  | infinite negative => some (.infinite negative)
  | finite negative coefficient exponent =>
    some (.number (Binary.signed negative coefficient * 10 ^ exponent))

def Comparand.meaning? : Comparand → Option Meaning
  | exact value => some (.number value.value)
  | infinite negative => some (.infinite negative)
  | nan => none

theorem Comparand.same_of_meaning {x y : Comparand} {a b : Meaning} (hX : x.meaning? = some a)
    (hY : y.meaning? = some b) : x.same y = decide (a = b) := by
  cases x <;> cases hX <;> cases y <;> cases hY
  · rw [Bool.eq_iff_iff, decide_eq_true_iff, Meaning.number.injEq]
    exact Exact.same_iff _ _
  · rfl
  · rfl
  · rw [Bool.eq_iff_iff, decide_eq_true_iff, Meaning.infinite.injEq]
    exact beq_iff_eq

theorem Comparand.meaning?_ofBinary {f : Format} (x : Binary f) :
    (ofBinary x).meaning? = x.meaning? := by
  cases x with
  | nan | infinite => rfl
  | finite negative m q valid => simp [ofBinary, meaning?, Binary.meaning?, Exact.value]

theorem Comparand.ofDecimal_of_meaning {x : Decimal} {a : Meaning} (hX : x.meaning? = some a) :
    ∃ comparand, ofDecimal x = .ok comparand ∧ comparand.meaning? = some a := by
  cases x with
  | nan => cases hX
  | infinite negative => exact ⟨_, rfl, hX⟩
  | finite negative coefficient exponent =>
    refine ⟨_, rfl, ?_⟩
    rw [← hX]
    simp [meaning?, Decimal.meaning?, Exact.value]

namespace Scalar

/-- What a scalar means, if it is no not-a-number and no number of a narrow width. -/
def meaning? : Scalar → Option Meaning
  | int n => some (.number n)
  | float x => x.meaning?
  | ieee .double x => x.meaning?
  | ieee _ _ => none
  | decimal x => x.meaning?
  | text content => some (.text content)
  | bool value => some (.number (if value then 1 else 0))
  | nothing => some .nothing

variable {x y : Scalar} {a b : Meaning}

theorem isNumber_of_meaning (hX : x.meaning? = some a) : x.isNumber = a.isNumber := by
  cases x with
  | int | text | bool | nothing =>
    cases hX
    rfl
  | float z | decimal z => cases z <;> cases hX <;> rfl
  | ieee width z =>
    cases width with
    | double => cases z <;> cases hX <;> rfl
    | single | half => cases hX

/-- Apart from the numbers, what has the same meaning is the same. -/
theorem eq_of_meaning (hX : x.meaning? = some a) (hY : y.meaning? = some a)
    (hNumber : a.isNumber = false) : x = y := by
  have hXNumber := (isNumber_of_meaning hX).trans hNumber
  have hYNumber := (isNumber_of_meaning hY).trans hNumber
  cases x <;> cases hXNumber <;> cases y <;> cases hYNumber <;> cases hX <;> cases hY <;> rfl

/-- Neither operand is rounded to the width of the other. -/
theorem align_of_meaning (hX : x.meaning? = some a) (hY : y.meaning? = some b) :
    align x y = .ok (x, y) := by
  unfold align
  split
  · rfl
  · rfl
  · next width z hNotDouble _ =>
    cases width with
    | double => exact absurd HEq.rfl (hNotDouble z rfl)
    | single | half => cases hX
  · next width z hNotDouble _ _ =>
    cases width with
    | double => exact absurd HEq.rfl (hNotDouble z rfl)
    | single | half => cases hY
  · rfl

theorem comparand_of_meaning (hX : x.meaning? = some a) (hText : ∀ content, x ≠ text content)
    (hNothing : x ≠ nothing) :
    ∃ comparand, x.comparand = .ok comparand ∧ comparand.meaning? = some a := by
  cases x with
  | int n => exact ⟨_, rfl, by rw [← hX]; simp [meaning?, Comparand.meaning?, Exact.value]⟩
  | float x => exact ⟨_, rfl, (Comparand.meaning?_ofBinary x).trans hX⟩
  | ieee width x =>
    cases width with
    | double => exact ⟨_, rfl, (Comparand.meaning?_ofBinary x).trans hX⟩
    | single | half => cases hX
  | decimal x => exact Comparand.ofDecimal_of_meaning hX
  | text content => exact absurd rfl (hText content)
  | bool value =>
    refine ⟨_, rfl, ?_⟩
    rw [← hX]
    cases value <;> simp [meaning?, Comparand.meaning?, Exact.value]
  | nothing => exact absurd rfl hNothing

/-- Scalars that have a meaning are compared by it. -/
theorem equal_of_meaning (hX : x.meaning? = some a) (hY : y.meaning? = some b) :
    x.equal y = .ok (decide (a = b)) := by
  -- operands that are no numbers are equal only if they are the same
  have hSame (hNumber : a.isNumber = false ∨ b.isNumber = false) (hEq : a = b) : x = y := by
    subst hEq
    exact eq_of_meaning hX hY (hNumber.elim id id)
  unfold equal
  split
  · cases hX
    cases hY
    simp only [beq_eq_decide, Meaning.text.injEq]
  · cases hX
    cases hY
    rfl
  · next hNot =>
    rw [decide_eq_false fun hEq => hNot _ (hSame (.inl (by cases hX; rfl)) hEq).symm]
  · next hNot =>
    rw [decide_eq_false fun hEq => hNot _ (hSame (.inr (by cases hY; rfl)) hEq)]
  · next hNot _ =>
    rw [decide_eq_false fun hEq => hNot (hSame (.inl (by cases hX; rfl)) hEq).symm]
  · next hNot _ =>
    rw [decide_eq_false fun hEq => hNot (hSame (.inr (by cases hY; rfl)) hEq)]
  · next hXText hXNothing hYText hYNothing _ _ =>
    obtain ⟨first, hFirst, hFirstMeaning⟩ := comparand_of_meaning hX hXText hXNothing
    obtain ⟨second, hSecond, hSecondMeaning⟩ := comparand_of_meaning hY hYText hYNothing
    rw [align_of_meaning hX hY, ok_bind]
    simp only [hFirst, hSecond, ok_bind]
    rw [Comparand.same_of_meaning hFirstMeaning hSecondMeaning]
    rfl

end Scalar

end Autodiff
