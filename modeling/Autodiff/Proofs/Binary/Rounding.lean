import Autodiff.Binary.Shortest
import Mathlib.Algebra.Order.Field.Power
import Mathlib.Tactic.FieldSimp
import Mathlib.Tactic.Linarith
import Mathlib.Tactic.Positivity
import Mathlib.Tactic.Ring

/-!
# The numbers that round to a binary number

`Binary.ofQuotient` computes the significand and the exponent of the number nearest to a
quotient by way of the leading bit. `Binary.roundingInterval` says the same from the side of
the result: its quotients are those halfway to the neighbours or nearer. The two agree.

* `Binary.Ratio.value` and `Binary.Interval.Contains` are ratios and intervals of rational
  numbers, and `Binary.Interval.holds_iff` says that the test of an interval decides it;
* `halfEven_near` and `halfEven_eq_of_near` characterize the rounding to a whole number;
* `Binary.zpow_leadingExponent_le` and `Binary.lt_zpow_leadingExponent` place a quotient
  between two powers of two;
* `Binary.ofQuotient_eq_of_contains` says that a quotient in the rounding interval of a number
  is rounded to that number, and `Binary.ofQuotient_eq_of_value` that a number is not changed.
-/

namespace Autodiff

/-! ## Powers with integer exponents -/

/-- A power with an integer exponent as the quotient of two with natural exponents, of which one
is 1. -/
theorem pow_toNat_div_pow_toNat (base : Nat) (hBase : 0 < base) (k : Int) :
    (base : ℚ) ^ k.toNat / (base : ℚ) ^ (-k).toNat = (base : ℚ) ^ k := by
  have hNe : (base : ℚ) ≠ 0 := by positivity
  rw [← zpow_natCast, ← zpow_natCast, ← zpow_sub₀ hNe]
  congr 1
  omega

/-- A rounded quotient is off by at most one half, and it is even if it is off by that. -/
theorem halfEven_near (n : Nat) {d : Nat} (hPos : 0 < d) :
    2 * (halfEven n d * d) ≤ 2 * n + d ∧ 2 * n ≤ 2 * (halfEven n d * d) + d ∧
      (2 * (halfEven n d * d) = 2 * n + d ∨ 2 * n = 2 * (halfEven n d * d) + d →
        halfEven n d % 2 = 0) := by
  have hDivMod : n / d * d + n % d = n := Nat.div_add_mod' n d
  have hRest : n % d < d := Nat.mod_lt n hPos
  unfold halfEven
  simp only
  split
  · omega
  · split
    · rw [Nat.add_mul]
      omega
    · rcases Nat.mod_two_eq_zero_or_one (n / d) with hEven | hOdd
      · rw [hEven, Nat.add_zero]
        omega
      · rw [hOdd, Nat.add_mul]
        omega

/-- There is no other such number. -/
theorem halfEven_eq_of_near {n d k : Nat} (hPos : 0 < d) (hLow : 2 * (k * d) ≤ 2 * n + d)
    (hHigh : 2 * n ≤ 2 * (k * d) + d)
    (hHalf : 2 * (k * d) = 2 * n + d ∨ 2 * n = 2 * (k * d) + d → k % 2 = 0) :
    halfEven n d = k := by
  have hDivMod : n / d * d + n % d = n := Nat.div_add_mod' n d
  have hRest : n % d < d := Nat.mod_lt n hPos
  have hAbove : n / d ≤ k := by
    by_contra hLt
    have hMul : (k + 1) * d ≤ n / d * d := Nat.mul_le_mul_right d (by omega)
    rw [Nat.succ_mul] at hMul
    omega
  have hBelow : k ≤ n / d + 1 := by
    by_contra hLt
    have hMul : (n / d + 2) * d ≤ k * d := Nat.mul_le_mul_right d (by omega)
    rw [Nat.add_mul] at hMul
    omega
  unfold halfEven
  obtain hSame | hNext : n / d = k ∨ k = n / d + 1 := by omega
  · rw [hSame] at hDivMod ⊢
    simp only
    split
    · rfl
    · split
      · omega
      · rw [hHalf (Or.inr (by omega))]
        rfl
  · have hMul : k * d = n / d * d + d := by rw [hNext, Nat.succ_mul]
    simp only
    split
    · omega
    · split
      · exact hNext.symm
      · have hEven := hHalf (Or.inl (by omega))
        omega

namespace Binary

variable {f : Format}

/-! ## Ratios and intervals -/

namespace Ratio

def value (r : Ratio) : ℚ := r.num / r.den

theorem value_ofBinary (m : Nat) (q : Int) : (ofBinary m q).value = m * 2 ^ q := by
  simp only [value, ofBinary, Nat.pow_eq, Nat.cast_mul, Nat.cast_pow, mul_div_assoc]
  rw [pow_toNat_div_pow_toNat 2 (by decide) q, Nat.cast_ofNat]

theorem value_ofDecimal (c : Nat) (e : Int) : (ofDecimal c e).value = c * 10 ^ e := by
  simp only [value, ofDecimal, Nat.pow_eq, Nat.cast_mul, Nat.cast_pow, mul_div_assoc]
  rw [pow_toNat_div_pow_toNat 10 (by decide) e, Nat.cast_ofNat]

theorem den_ofBinary_pos (m : Nat) (q : Int) : 0 < (ofBinary m q).den :=
  Nat.pow_pos (by decide)

theorem den_ofDecimal_pos (c : Nat) (e : Int) : 0 < (ofDecimal c e).den :=
  Nat.pow_pos (by decide)

theorem lt_iff {r s : Ratio} (hR : 0 < r.den) (hS : 0 < s.den) :
    r.lt s = true ↔ r.value < s.value := by
  have hRPos : (0 : ℚ) < r.den := by exact_mod_cast hR
  have hSPos : (0 : ℚ) < s.den := by exact_mod_cast hS
  rw [lt, decide_eq_true_iff, value, value, div_lt_div_iff₀ hRPos hSPos]
  exact_mod_cast Iff.rfl

theorem le_iff {r s : Ratio} (hR : 0 < r.den) (hS : 0 < s.den) :
    r.le s = true ↔ r.value ≤ s.value := by
  have hRPos : (0 : ℚ) < r.den := by exact_mod_cast hR
  have hSPos : (0 : ℚ) < s.den := by exact_mod_cast hS
  rw [le, decide_eq_true_iff, value, value, div_le_div_iff₀ hRPos hSPos]
  exact_mod_cast Iff.rfl

end Ratio

/-- The rational numbers of an interval. -/
def Interval.Contains (i : Interval) (x : ℚ) : Prop :=
  if i.closed then i.low.value ≤ x ∧ x ≤ i.high.value else i.low.value < x ∧ x < i.high.value

theorem Interval.holds_iff {i : Interval} {r : Ratio} (hLow : 0 < i.low.den)
    (hHigh : 0 < i.high.den) (hR : 0 < r.den) : i.holds r = true ↔ i.Contains r.value := by
  unfold holds Contains
  split
  · rw [Bool.and_eq_true, Ratio.le_iff hLow hR, Ratio.le_iff hR hHigh]
  · rw [Bool.and_eq_true, Ratio.lt_iff hLow hR, Ratio.lt_iff hR hHigh]

/-! ## The interval of a number -/

/-- Where a number starts that rounds to `m * 2 ^ q`: half a unit of the last place below, and a
quarter of a unit below a power of two. -/
theorem value_low {m : Nat} (hPos : 0 < m) (q : Int) :
    (roundingInterval f m q).low.value =
      (m - if m = 2 ^ (f.precision - 1) ∧ f.minExp < q then 1 / 4 else 1 / 2) * 2 ^ q := by
  have hQuarter : ((4 * m - 1 : Nat) : ℚ) = 4 * m - 1 := by
    rw [Nat.cast_sub (by omega)]
    push_cast
    ring
  have hHalf : ((2 * m - 1 : Nat) : ℚ) = 2 * m - 1 := by
    rw [Nat.cast_sub (by omega)]
    push_cast
    ring
  unfold roundingInterval
  simp only [Nat.pow_eq]
  split
  · rw [Ratio.value_ofBinary, hQuarter, zpow_sub₀ (by decide)]
    ring
  · rw [Ratio.value_ofBinary, hHalf, zpow_sub₀ (by decide)]
    ring

theorem value_high (m : Nat) (q : Int) :
    (roundingInterval f m q).high.value = (m + 1 / 2) * 2 ^ q := by
  rw [roundingInterval, Ratio.value_ofBinary, zpow_sub₀ (by decide)]
  push_cast
  ring

/-- What containment in the rounding interval says: the distance is at most half a unit of the
last place, and exactly half a unit only for an even significand. -/
theorem bounds_of_contains {m : Nat} (hPos : 0 < m) {q : Int} {x : ℚ}
    (hContains : (roundingInterval f m q).Contains x) :
    (m - 1 / 2) * 2 ^ q ≤ x ∧ x ≤ (m + 1 / 2) * 2 ^ q ∧
      (x = (m - 1 / 2) * 2 ^ q ∨ x = (m + 1 / 2) * 2 ^ q → m % 2 = 0) ∧
      (m = 2 ^ (f.precision - 1) → f.minExp < q → (m - 1 / 4) * 2 ^ q ≤ x) := by
  have hUnit : (0 : ℚ) < 2 ^ q := by positivity
  have hClosed : (roundingInterval f m q).closed = (m % 2 == 0) := rfl
  have hBelow : ((m : ℚ) - 1 / 2) * 2 ^ q ≤ (roundingInterval f m q).low.value := by
    rw [value_low hPos]
    gcongr
    split <;> norm_num
  have hQuarter (hPower : m = 2 ^ (f.precision - 1)) (hMin : f.minExp < q) :
      (roundingInterval f m q).low.value = (m - 1 / 4) * 2 ^ q := by
    rw [value_low hPos, if_pos ⟨hPower, hMin⟩]
  have hAbove := value_high (f := f) m q
  simp only [Interval.Contains, hClosed, beq_iff_eq] at hContains
  split at hContains
  · next hEven =>
    exact ⟨hBelow.trans hContains.1, hAbove ▸ hContains.2, fun _ => hEven,
      fun hPower hMin => hQuarter hPower hMin ▸ hContains.1⟩
  · refine ⟨hBelow.trans hContains.1.le, hAbove ▸ hContains.2.le, ?_,
      fun hPower hMin => (hQuarter hPower hMin ▸ hContains.1).le⟩
    rintro (hLow | hHigh)
    · exact absurd hContains.1 (not_lt.2 (hLow ▸ hBelow))
    · exact absurd hContains.2 (not_lt.2 (hHigh ▸ hAbove.le))

/-! ## The leading bit -/

theorem zpow_le_div_iff {num den : Nat} (hDen : 0 < den) (k : Int) :
    (2 : ℚ) ^ k ≤ num / den ↔ den * Nat.pow 2 k.toNat ≤ num * Nat.pow 2 (-k).toNat := by
  have hDenPos : (0 : ℚ) < den := by exact_mod_cast hDen
  rw [← Nat.cast_ofNat, ← pow_toNat_div_pow_toNat 2 (by decide) k,
    div_le_div_iff₀ (by positivity) hDenPos, mul_comm _ (den : ℚ)]
  simp only [Nat.pow_eq]
  exact_mod_cast Iff.rfl

theorem zpow_leadingExponent_le {num den : Nat} (hNum : 0 < num) (hDen : 0 < den) :
    (2 : ℚ) ^ leadingExponent num den ≤ num / den := by
  unfold leadingExponent
  simp only
  split
  · next hGuess => exact (zpow_le_div_iff hDen _).2 hGuess
  · have hNumLow : ((2 : ℚ)) ^ num.log2 ≤ num := by
      exact_mod_cast Nat.log2_self_le (by omega : num ≠ 0)
    have hDenHigh : (den : ℚ) < 2 ^ (den.log2 + 1) := by exact_mod_cast Nat.lt_log2_self
    have hDenPos : (0 : ℚ) < den := by exact_mod_cast hDen
    rw [le_div_iff₀ hDenPos]
    calc (2 : ℚ) ^ ((num.log2 : Int) - den.log2 - 1) * den
        ≤ 2 ^ ((num.log2 : Int) - den.log2 - 1) * 2 ^ (den.log2 + 1) := by gcongr
      _ = 2 ^ num.log2 := by
        rw [← zpow_natCast, ← zpow_natCast, ← zpow_add₀ (by decide)]
        congr 1
        push_cast
        ring
      _ ≤ num := hNumLow

theorem lt_zpow_leadingExponent {num den : Nat} (hDen : 0 < den) :
    (num / den : ℚ) < 2 ^ (leadingExponent num den + 1) := by
  unfold leadingExponent
  simp only
  split
  · have hNumHigh : (num : ℚ) < 2 ^ (num.log2 + 1) := by exact_mod_cast Nat.lt_log2_self
    have hDenLow : ((2 : ℚ)) ^ den.log2 ≤ den := by
      exact_mod_cast Nat.log2_self_le (by omega : den ≠ 0)
    have hDenPos : (0 : ℚ) < den := by exact_mod_cast hDen
    rw [div_lt_iff₀ hDenPos]
    calc (num : ℚ) < 2 ^ (num.log2 + 1) := hNumHigh
      _ = 2 ^ ((num.log2 : Int) - den.log2 + 1) * 2 ^ den.log2 := by
        rw [← zpow_natCast, ← zpow_natCast, ← zpow_add₀ (by decide)]
        congr 1
        push_cast
        ring
      _ ≤ 2 ^ ((num.log2 : Int) - den.log2 + 1) * den := by gcongr
  · next hGuess =>
    rw [sub_add_cancel]
    exact not_le.1 (mt (zpow_le_div_iff hDen _).1 hGuess)

/-! ## Rounding a quotient -/

/-- The significand that a quotient is rounded to at an exponent. -/
theorem halfEven_scaled {num den : Nat} (hDen : 0 < den) {e q : Int} {k : Nat}
    (hLow : ((k : ℚ) - 1 / 2) * 2 ^ q ≤ num / den * 2 ^ e)
    (hHigh : (num / den * 2 ^ e : ℚ) ≤ (k + 1 / 2) * 2 ^ q)
    (hHalf : (num / den * 2 ^ e : ℚ) = (k - 1 / 2) * 2 ^ q ∨
      (num / den * 2 ^ e : ℚ) = (k + 1 / 2) * 2 ^ q → k % 2 = 0) :
    halfEven (num * 2 ^ (e - q).toNat) (den * 2 ^ (q - e).toNat) = k := by
  have hPos : 0 < den * 2 ^ (q - e).toNat := Nat.mul_pos hDen (Nat.pow_pos (by decide))
  have hUnit : (0 : ℚ) < 2 ^ q := by positivity
  have hPosCast : (0 : ℚ) < (den * 2 ^ (q - e).toNat : Nat) := by exact_mod_cast hPos
  have hScaled : ((num * 2 ^ (e - q).toNat : Nat) : ℚ) =
      num / den * 2 ^ e / 2 ^ q * (den * 2 ^ (q - e).toNat : Nat) := by
    have hDenNe : (den : ℚ) ≠ 0 := by exact_mod_cast hDen.ne'
    have hPower := pow_toNat_div_pow_toNat 2 (by decide) (e - q)
    rw [neg_sub, zpow_sub₀ (by decide), Nat.cast_ofNat] at hPower
    have hSmall : (2 : ℚ) ^ (q - e).toNat ≠ 0 := by positivity
    rw [div_eq_iff hSmall] at hPower
    simp only [Nat.cast_mul, Nat.cast_pow, Nat.cast_ofNat, hPower]
    field_simp
  generalize den * 2 ^ (q - e).toNat = d at *
  generalize num * 2 ^ (e - q).toNat = n at *
  rw [← le_div_iff₀ hUnit] at hLow
  rw [← div_le_iff₀ hUnit] at hHigh
  rw [← div_eq_iff hUnit.ne', ← div_eq_iff hUnit.ne'] at hHalf
  generalize (num / den * 2 ^ e / 2 ^ q : ℚ) = y at *
  refine halfEven_eq_of_near hPos ?_ ?_ ?_
  · have : (2 * (k * d) : ℚ) ≤ 2 * n + d := by nlinarith
    exact_mod_cast this
  · have : (2 * n : ℚ) ≤ 2 * (k * d) + d := by nlinarith
    exact_mod_cast this
  · intro hTie
    refine hHalf (hTie.imp (fun hLower => ?_) (fun hUpper => ?_))
    · have hCast : (2 * (k * d) : ℚ) = 2 * n + d := by exact_mod_cast hLower
      refine mul_right_cancel₀ hPosCast.ne' ?_
      linarith
    · have hCast : (2 * n : ℚ) = 2 * (k * d) + d := by exact_mod_cast hUpper
      refine mul_right_cancel₀ hPosCast.ne' ?_
      linarith

/-- The exponent that is chosen by the leading bit of a number near `m * 2 ^ q` is `q`, except
that just below a power of two the leading bit is one lower. -/
theorem exponent_of_bounds (hPrecision : 2 ≤ f.precision) {m : Nat} {q lead : Int}
    (hCanonical : f.Canonical m q) {x : ℚ} (hLeadLow : (2 : ℚ) ^ lead ≤ x)
    (hLeadHigh : x < 2 ^ (lead + 1)) (hLow : ((m : ℚ) - 1 / 2) * 2 ^ q ≤ x)
    (hHigh : x ≤ ((m : ℚ) + 1 / 2) * 2 ^ q) :
    max f.minExp (lead - (f.precision - 1 : Nat)) = q ∨
      max f.minExp (lead - (f.precision - 1 : Nat)) = q - 1 ∧ m = 2 ^ (f.precision - 1) ∧
        f.minExp < q ∧ x < m * 2 ^ q := by
  obtain ⟨hFits, hMin, -, hNormal⟩ := hCanonical
  rw [Nat.pow_eq] at hFits hNormal
  have hUnit : (0 : ℚ) < 2 ^ q := by positivity
  have hLeadBelow : lead < f.precision + q := by
    refine (zpow_lt_zpow_iff_right₀ (by norm_num : (1 : ℚ) < 2)).1 ?_
    have hSignificand : (m : ℚ) + 1 / 2 < 2 ^ f.precision := by
      have : (m + 1 : ℚ) ≤ 2 ^ f.precision := by exact_mod_cast hFits
      linarith
    calc (2 : ℚ) ^ lead ≤ (m + 1 / 2) * 2 ^ q := hLeadLow.trans hHigh
      _ < 2 ^ f.precision * 2 ^ q := by gcongr
      _ = 2 ^ (f.precision + q) := by rw [zpow_add₀ (by decide), zpow_natCast]
  -- a bound below by a power of two bounds the leading bit
  have hLeadAbove (k : Nat) (hPower : (2 : ℚ) ^ k * 2 ^ q ≤ x) : k + q ≤ lead := by
    refine Int.lt_add_one_iff.1 ((zpow_lt_zpow_iff_right₀ (by norm_num : (1 : ℚ) < 2)).1 ?_)
    rw [zpow_add₀ (by decide), zpow_natCast]
    exact hPower.trans_lt hLeadHigh
  obtain hNormal | hLeast := hNormal
  · rcases Nat.eq_or_lt_of_le hNormal with hPower | hAbove
    · rcases lt_or_ge x (m * 2 ^ q) with hBelow | hOver
      · have hLead := hLeadAbove (f.precision - 2) (by
          refine le_trans ?_ hLow
          gcongr
          have hDouble : (m : ℚ) = 2 * 2 ^ (f.precision - 2) := by
            rw [← hPower, show f.precision - 1 = f.precision - 2 + 1 by omega, pow_succ]
            push_cast
            ring
          have hOne : (1 : ℚ) ≤ 2 ^ (f.precision - 2) := one_le_pow₀ (by norm_num)
          linarith)
        rcases hMin.eq_or_lt with hLeast | hMin
        · left; omega
        · rcases lt_or_ge lead (f.precision - 1 + q) with hLower | hUpper
          · exact Or.inr ⟨by omega, hPower.symm, hMin, hBelow⟩
          · left; omega
      · have hLead := hLeadAbove (f.precision - 1) (by
          rw [← hPower] at hOver
          exact_mod_cast hOver)
        left; omega
    · have hLead := hLeadAbove (f.precision - 1) (by
        refine le_trans ?_ hLow
        gcongr
        have : ((2 ^ (f.precision - 1) + 1 : Nat) : ℚ) ≤ m := by exact_mod_cast hAbove
        push_cast at this
        linarith)
      left; omega
  · left; omega

/-- A quotient in the rounding interval of a number is rounded to that number. -/
theorem ofQuotient_eq_of_contains (hPrecision : 2 ≤ f.precision) (negative : Bool)
    {num den : Nat} (hDen : 0 < den) {e q : Int} {m : Nat} (hPos : 0 < m)
    (hCanonical : f.Canonical m q)
    (hContains : (roundingInterval f m q).Contains (num / den * 2 ^ e)) :
    ofQuotient f negative num den e = finite negative m q hCanonical := by
  obtain ⟨hLow, hHigh, hHalf, hQuarter⟩ := bounds_of_contains hPos hContains
  have hUnit : (0 : ℚ) < 2 ^ q := by positivity
  have hOne : (1 : ℚ) ≤ m := by exact_mod_cast hPos
  have hNum : 0 < num := by
    refine Nat.pos_of_ne_zero fun hZero => ?_
    have hPositive : (0 : ℚ) < (m - 1 / 2) * 2 ^ q := mul_pos (by linarith) hUnit
    simp only [hZero, Nat.cast_zero, zero_div, zero_mul] at hLow
    linarith
  have hLeadLow : (2 : ℚ) ^ (e + leadingExponent num den) ≤ num / den * 2 ^ e := by
    rw [add_comm, zpow_add₀ (by decide)]
    gcongr
    exact zpow_leadingExponent_le hNum hDen
  have hLeadHigh : (num / den * 2 ^ e : ℚ) < 2 ^ (e + leadingExponent num den + 1) := by
    rw [add_assoc, add_comm, zpow_add₀ (by decide)]
    gcongr
    exact lt_zpow_leadingExponent hDen
  have hFits : m ≠ 2 ^ f.precision := hCanonical.1.ne
  rw [ofQuotient, if_neg hNum.ne']
  simp only [Nat.pow_eq]
  obtain hExponent | ⟨hExponent, hPower, hMin, hBelow⟩ :=
    exponent_of_bounds hPrecision hCanonical hLeadLow hLeadHigh hLow hHigh
  · rw [hExponent, halfEven_scaled hDen hLow hHigh hHalf, if_neg hFits, pack, dif_pos hCanonical]
  · -- the significand is rounded up to a power of two and the exponent corrected
    have hDouble : ((2 ^ f.precision : Nat) : ℚ) * 2 ^ (q - 1) = m * 2 ^ q := by
      rw [hPower, zpow_sub₀ (by decide)]
      conv_lhs => rw [show f.precision = f.precision - 1 + 1 by omega]
      push_cast
      ring
    have hHalfUnit : (2 : ℚ) ^ q = 2 * 2 ^ (q - 1) := by
      rw [zpow_sub₀ (by decide)]
      ring
    have hNear := hQuarter hPower hMin
    have hRounded : halfEven (num * 2 ^ (e - (q - 1)).toNat) (den * 2 ^ (q - 1 - e).toNat) =
        2 ^ f.precision := by
      refine halfEven_scaled hDen ?_ ?_ fun _ => ?_
      · linarith
      · have : (0 : ℚ) < 2 ^ (q - 1) := by positivity
        linarith
      · exact Nat.mod_eq_zero_of_dvd (dvd_pow_self 2 (by omega))
    rw [hExponent, hRounded, if_pos rfl]
    obtain rfl := hPower
    rw [sub_add_cancel, pack, dif_pos hCanonical]

/-! ## Numbers of the format -/

theorem contains_self {m : Nat} (hPos : 0 < m) (q : Int) :
    (roundingInterval f m q).Contains (m * 2 ^ q) := by
  have hUnit : (0 : ℚ) < 2 ^ q := by positivity
  have hLow : (roundingInterval f m q).low.value < m * 2 ^ q := by
    rw [value_low hPos]
    gcongr
    split <;> linarith
  have hHigh : (m * 2 ^ q : ℚ) < (roundingInterval f m q).high.value := by
    rw [value_high]
    gcongr
    linarith
  unfold Interval.Contains
  split
  · exact ⟨hLow.le, hHigh.le⟩
  · exact ⟨hLow, hHigh⟩

/-- A quotient that is a number of the format is that number. -/
theorem ofQuotient_eq_of_value (hPrecision : 2 ≤ f.precision) (negative : Bool)
    {num den : Nat} (hDen : 0 < den) {e q : Int} {m : Nat} (hCanonical : f.Canonical m q)
    (hValue : (num / den * 2 ^ e : ℚ) = m * 2 ^ q) :
    ofQuotient f negative num den e = finite negative m q hCanonical := by
  rcases Nat.eq_zero_or_pos m with rfl | hPos
  · have hNum : num = 0 := by
      have hDenNe : (den : ℚ) ≠ 0 := by exact_mod_cast hDen.ne'
      have hPower : (2 : ℚ) ^ e ≠ 0 := by positivity
      simpa [hDenNe, hPower] using hValue
    -- zero has the least exponent
    obtain hNormal | rfl := hCanonical.2.2.2
    · exact absurd hNormal (not_le.2 (Nat.pow_pos (by decide)))
    · rw [ofQuotient, if_pos hNum, zero, pack, dif_pos hCanonical]
  · exact ofQuotient_eq_of_contains hPrecision negative hDen hPos hCanonical
      (hValue ▸ contains_self hPos q)

/-- Rounding to the format of a number does not change the number. -/
theorem convert_self (hPrecision : 2 ≤ f.precision) (x : Binary f) : x.convert f = x := by
  cases x with
  | nan | infinite => rfl
  | finite negative m q hCanonical =>
    exact ofQuotient_eq_of_value hPrecision negative Nat.one_pos hCanonical (by simp)

end Binary

end Autodiff
