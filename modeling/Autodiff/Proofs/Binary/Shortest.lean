import Autodiff.Binary.Text
import Autodiff.Proofs.Binary.Integers
import Autodiff.Proofs.Text.Digits

/-!
# Shortest digits round to their number

The digits that are written for a number lie in its rounding interval, so reading them gives
the number again. This holds of every point that the search accepts, by the test; and a point of
the finest grid is nearer than a quarter of a unit of the last place, whether it is tested or not.

* `Format.Told` says that the finest grid is fine enough for a format, `Format.told_double` that
  seventeen digits are enough for doubles;
* `Binary.contains_shortest` says that the shortest digits lie in the rounding interval;
* `Binary.ofDecimal_eq_of_contains` says that a decimal number in the interval is read as the
  number.
-/

namespace Autodiff

/-- The digits that are tried last tell any two numbers of the format apart. -/
def Format.Told (f : Format) : Prop := 2 ^ (f.precision + 1) ≤ 10 ^ Binary.maxDigits f

theorem Format.told_double : double.Told := by
  unfold Told
  decide

/-- A rounded quotient is off by at most one half. -/
theorem abs_halfEven_sub_le (n : Nat) {d : Nat} (hPos : 0 < d) :
    |(halfEven n d : ℚ) - n / d| ≤ 1 / 2 := by
  have hPosCast : (0 : ℚ) < d := by exact_mod_cast hPos
  obtain ⟨hHigh, hLow, -⟩ := halfEven_near n hPos
  have hHighCast : (2 * (halfEven n d * d) : ℚ) ≤ 2 * n + d := by exact_mod_cast hHigh
  have hLowCast : (2 * n : ℚ) ≤ 2 * (halfEven n d * d) + d := by exact_mod_cast hLow
  have hQuotient : (n / d * d : ℚ) = n := div_mul_cancel₀ _ hPosCast.ne'
  rw [abs_le]
  constructor
  · refine le_of_mul_le_mul_right ?_ hPosCast
    linarith
  · refine le_of_mul_le_mul_right ?_ hPosCast
    linarith

namespace Binary

variable {f : Format} {m : Nat} {q : Int}

/-! ## The rounding interval -/

/-- Nearer than a quarter of a unit of the last place is inside. -/
theorem contains_of_near (hPos : 0 < m) {x : ℚ} (hNear : |x - m * 2 ^ q| < 1 / 4 * 2 ^ q) :
    (roundingInterval f m q).Contains x := by
  have hUnit : (0 : ℚ) < 2 ^ q := by positivity
  obtain ⟨hBelow, hAbove⟩ := abs_lt.1 hNear
  have hLow : (roundingInterval f m q).low.value < x := by
    rw [value_low hPos]
    split <;> linarith
  have hHigh : x < (roundingInterval f m q).high.value := by
    rw [value_high]
    linarith
  unfold Interval.Contains
  split
  · exact ⟨hLow.le, hHigh.le⟩
  · exact ⟨hLow, hHigh⟩

theorem pos_of_contains (hPos : 0 < m) {x : ℚ} (hContains : (roundingInterval f m q).Contains x) :
    0 < x := by
  have hOne : (1 : ℚ) ≤ m := by exact_mod_cast hPos
  have hPositive : (0 : ℚ) < (m - 1 / 2) * 2 ^ q := mul_pos (by linarith) (by positivity)
  exact hPositive.trans_le (bounds_of_contains hPos hContains).1

theorem holds_iff_contains (f : Format) (m : Nat) (q : Int) (c : Nat) (e : Int) :
    (roundingInterval f m q).holds (Ratio.ofDecimal c e) = true ↔
      (roundingInterval f m q).Contains (c * 10 ^ e) := by
  have hLow : 0 < (roundingInterval f m q).low.den := by
    unfold roundingInterval
    simp only
    split <;> exact Ratio.den_ofBinary_pos _ _
  rw [Interval.holds_iff hLow (Ratio.den_ofBinary_pos _ _) (Ratio.den_ofDecimal_pos c e),
    Ratio.value_ofDecimal]

/-! ## The leading digit -/

theorem Ratio.zpow_leadingDigit_le {r : Ratio} (hNum : 0 < r.num) (hDen : 0 < r.den) :
    (10 : ℚ) ^ r.leadingDigit ≤ r.value := by
  have hDenPos : (0 : ℚ) < r.den := by exact_mod_cast hDen
  unfold leadingDigit
  split
  · next hLarge =>
    have hQuotient : 0 < r.num / r.den := Nat.div_pos hLarge hDen
    have hDigits := Text.pow_digitCount_le hQuotient
    have hCount := Text.digitCount_pos (r.num / r.den)
    have hMul : 10 ^ (Text.digitCount (r.num / r.den) - 1) * r.den ≤ r.num :=
      (Nat.mul_le_mul_right _ hDigits).trans (Nat.div_mul_le_self _ _)
    rw [value, le_div_iff₀ hDenPos]
    have hExponent : ((Text.digitCount (r.num / r.den) : Int) - 1) =
        (Text.digitCount (r.num / r.den) - 1 : Nat) := by omega
    rw [hExponent, zpow_natCast]
    exact_mod_cast hMul
  · have hDigits := Text.lt_pow_digitCount ((r.den - 1) / r.num)
    have hMul : r.den ≤ r.num * 10 ^ Text.digitCount ((r.den - 1) / r.num) := by
      have hLt := (Nat.div_lt_iff_lt_mul hNum).1 hDigits
      rw [Nat.mul_comm] at hLt
      omega
    rw [value, le_div_iff₀ hDenPos, zpow_neg, zpow_natCast, inv_mul_le_iff₀ (by positivity),
      mul_comm]
    exact_mod_cast hMul

/-! ## The search -/

theorem holds_of_onGrid? {i : Interval} {r : Ratio} {e : Int} {c : Nat}
    (hGrid : onGrid? i r e = some c) : i.holds (Ratio.ofDecimal c e) = true := by
  unfold onGrid? at hGrid
  extract_lets n d below nearest other at hGrid
  split at hGrid
  · next hHolds => rwa [← Option.some.inj hGrid]
  · split at hGrid
    · next hHolds => rwa [← Option.some.inj hGrid]
    · cases hGrid

/-- What the search finds passes the test, unless it is the nearest point of the finest grid. -/
theorem searchGrids_spec (i : Interval) (r : Ratio) (steps : Nat) (e : Int) :
    i.holds (Ratio.ofDecimal (searchGrids i r steps e).1 (searchGrids i r steps e).2) = true ∨
      searchGrids i r steps e =
        (halfEven (r.num * Nat.pow 10 (-(e - steps)).toNat) (r.den * Nat.pow 10 (e - steps).toNat),
          e - steps) := by
  induction steps generalizing e with
  | zero =>
    right
    rw [searchGrids, Nat.cast_zero, sub_zero]
  | succ steps ih =>
    rw [searchGrids]
    cases hGrid : onGrid? i r e with
    | some c => exact Or.inl (holds_of_onGrid? hGrid)
    | none =>
      have hSteps : e - ((steps + 1 : Nat) : Int) = e - 1 - steps := by
        push_cast
        ring
      rw [hSteps]
      exact ih (e - 1)

/-- The nearest point of a grid is off by at most half the distance of its points. -/
theorem abs_nearest_sub_le {r : Ratio} (hDen : 0 < r.den) (e : Int) :
    |(halfEven (r.num * Nat.pow 10 (-e).toNat) (r.den * Nat.pow 10 e.toNat) : ℚ) * 10 ^ e -
      r.value| ≤ 1 / 2 * 10 ^ e := by
  have hGrid : (0 : ℚ) < 10 ^ e := by positivity
  have hPos : 0 < r.den * Nat.pow 10 e.toNat := Nat.mul_pos hDen (Nat.pow_pos (by decide))
  have hScaled : ((r.num * Nat.pow 10 (-e).toNat : Nat) / (r.den * Nat.pow 10 e.toNat : Nat) : ℚ) =
      r.value / 10 ^ e := by
    have hPower := pow_toNat_div_pow_toNat 10 (by decide) e
    have hSmall : (10 : ℚ) ^ (-e).toNat ≠ 0 := by positivity
    rw [Nat.cast_ofNat, div_eq_iff hSmall] at hPower
    simp only [Nat.pow_eq, Nat.cast_mul, Nat.cast_pow, Nat.cast_ofNat, hPower, Ratio.value]
    field_simp
  have hHalf := abs_halfEven_sub_le (r.num * Nat.pow 10 (-e).toNat) hPos
  rw [hScaled] at hHalf
  have hValue : r.value = r.value / 10 ^ e * 10 ^ e := (div_mul_cancel₀ _ hGrid.ne').symm
  rw [hValue, ← sub_mul, abs_mul, abs_of_pos hGrid]
  gcongr

theorem value_dropTrailingZeros (steps c : Nat) (e : Int) :
    ((dropTrailingZeros steps c e).1 : ℚ) * 10 ^ (dropTrailingZeros steps c e).2 = c * 10 ^ e := by
  induction steps generalizing c e with
  | zero => rfl
  | succ steps ih =>
    rw [dropTrailingZeros]
    split
    · next hZero =>
      rw [ih]
      have hTen : ((c / 10 : Nat) : ℚ) * 10 = c := by
        exact_mod_cast Nat.div_mul_cancel (Nat.dvd_of_mod_eq_zero hZero)
      rw [← hTen, zpow_add_one₀ (by decide)]
      ring
    · rfl

/-- The shortest digits of a number lie in its rounding interval. -/
theorem contains_shortest (hTold : f.Told) (hPos : 0 < m) (hFits : m < 2 ^ f.precision) :
    (roundingInterval f m q).Contains ((shortest f m q).1 * 10 ^ (shortest f m q).2) := by
  unfold shortest
  simp only
  rw [value_dropTrailingZeros]
  set r := Ratio.ofBinary m q with hR
  obtain hHolds | hFinest :=
    searchGrids_spec (roundingInterval f m q) r (maxDigits f) r.leadingDigit
  · exact (holds_iff_contains f m q _ _).1 hHolds
  · rw [hFinest]
    have hDen : 0 < r.den := Ratio.den_ofBinary_pos m q
    have hNum : 0 < r.num := Nat.mul_pos hPos (Nat.pow_pos (by decide))
    have hLeading := Ratio.zpow_leadingDigit_le hNum hDen
    have hNearest := abs_nearest_sub_le hDen (r.leadingDigit - maxDigits f)
    have hValue : r.value = m * 2 ^ q := Ratio.value_ofBinary m q
    refine contains_of_near hPos (hValue ▸ hNearest.trans_lt ?_)
    -- the finest grid is finer than half a unit of the last place
    have hUnit : (0 : ℚ) < 2 ^ q := by positivity
    have hTens : (0 : ℚ) < 10 ^ maxDigits f := by positivity
    have hSignificand : (m : ℚ) < 2 ^ f.precision := by exact_mod_cast hFits
    have hTold : (2 : ℚ) ^ f.precision * 2 ≤ 10 ^ maxDigits f := by
      rw [← pow_succ]
      exact_mod_cast hTold
    rw [zpow_sub₀ (by decide), zpow_natCast, mul_div_assoc', div_lt_iff₀ hTens]
    calc 1 / 2 * (10 : ℚ) ^ r.leadingDigit ≤ 1 / 2 * (m * 2 ^ q) := by rw [← hValue]; gcongr
      _ < 1 / 2 * (2 ^ f.precision * 2 ^ q) := by gcongr
      _ = 1 / 4 * 2 ^ q * (2 ^ f.precision * 2) := by ring
      _ ≤ 1 / 4 * 2 ^ q * 10 ^ maxDigits f := by gcongr

/-! ## Reading -/

/-- What rounds to a number of a format is below the next power of two after all numbers. -/
theorem lt_of_contains (hPos : 0 < m) (hCanonical : f.Canonical m q) {x : ℚ}
    (hContains : (roundingInterval f m q).Contains x) : x < 2 ^ (f.maxExp + f.precision) := by
  obtain ⟨hFits, -, hMax, -⟩ := hCanonical
  have hSignificand : (m : ℚ) + 1 / 2 < 2 ^ f.precision := by
    have hSucc : (m + 1 : ℚ) ≤ 2 ^ f.precision := by exact_mod_cast hFits
    linarith
  calc x ≤ (m + 1 / 2) * 2 ^ q := (bounds_of_contains hPos hContains).2.1
    _ < 2 ^ f.precision * 2 ^ q := by gcongr
    _ ≤ 2 ^ f.precision * 2 ^ f.maxExp := by gcongr; norm_num
    _ = 2 ^ (f.maxExp + f.precision) := by rw [zpow_add₀ (by decide), zpow_natCast, mul_comm]

/-- What rounds to a number other than zero is at least half of the least one. -/
theorem le_of_contains (hPos : 0 < m) (hCanonical : f.Canonical m q) {x : ℚ}
    (hContains : (roundingInterval f m q).Contains x) : (2 : ℚ) ^ (f.minExp - 1) ≤ x := by
  obtain ⟨-, hMin, -, -⟩ := hCanonical
  have hOne : (1 : ℚ) ≤ m := by exact_mod_cast hPos
  calc (2 : ℚ) ^ (f.minExp - 1) ≤ 2 ^ (q - 1) := by gcongr; norm_num
    _ = (1 - 1 / 2) * 2 ^ q := by rw [zpow_sub₀ (by decide)]; ring
    _ ≤ (m - 1 / 2) * 2 ^ q := by gcongr
    _ ≤ x := (bounds_of_contains hPos hContains).1

theorem zpow_two_le_zpow_ten {k : Int} (hNonneg : 0 ≤ k) : (2 : ℚ) ^ (3 * k) ≤ 10 ^ k := by
  rw [zpow_mul]
  exact zpow_le_zpow_left₀ hNonneg (by norm_num) (by norm_num)

theorem zpow_ten_le_zpow_two {k : Int} (hNonpos : k ≤ 0) : (10 : ℚ) ^ k ≤ 2 ^ (3 * k) := by
  have hInverse := zpow_two_le_zpow_ten (k := -k) (by omega)
  rw [mul_neg, zpow_neg, zpow_neg] at hInverse
  exact (inv_le_inv₀ (by positivity) (by positivity)).1 hInverse

/-- A decimal number lies between two powers of ten. -/
theorem zpow_ten_bounds {c : Nat} (hPos : 0 < c) (e : Int) :
    (10 : ℚ) ^ (e + Text.digitCount c - 1) ≤ c * 10 ^ e ∧
      (c * 10 ^ e : ℚ) < 10 ^ (e + Text.digitCount c) := by
  have hTens : (0 : ℚ) < 10 ^ e := by positivity
  have hCount := Text.digitCount_pos c
  constructor
  · have hDigits : (10 : ℚ) ^ (Text.digitCount c - 1) ≤ c := by
      exact_mod_cast Text.pow_digitCount_le hPos
    have hSplit : e + Text.digitCount c - 1 = (Text.digitCount c - 1 : Nat) + e := by omega
    rw [hSplit, zpow_add₀ (by decide), zpow_natCast]
    gcongr
  · have hDigits : (c : ℚ) < 10 ^ Text.digitCount c := by
      exact_mod_cast Text.lt_pow_digitCount c
    rw [add_comm, zpow_add₀ (by decide), zpow_natCast]
    gcongr

/-- A decimal number in the rounding interval of a number is read as the number. The powers of
ten that are not computed are outside the range of the format. -/
theorem ofDecimal_eq_of_contains (hUnits : f.HasUnits) (negative : Bool) (hPos : 0 < m)
    (hCanonical : f.Canonical m q) {c : Nat} {e : Int}
    (hContains : (roundingInterval f m q).Contains (c * 10 ^ e)) :
    ofDecimal f negative c e = finite negative m q hCanonical := by
  obtain ⟨hPrecision, hMinExp, hMaxExp⟩ := hUnits
  have hC : 0 < c := by
    have hTens : (0 : ℚ) < 10 ^ e := by positivity
    have hCast : (0 : ℚ) < c := (mul_pos_iff_of_pos_right hTens).1 (pos_of_contains hPos hContains)
    exact_mod_cast hCast
  obtain ⟨hTenLow, hTenHigh⟩ := zpow_ten_bounds hC e
  have hNotLarge : ¬ f.maxExp + f.precision < 3 * (e + Text.digitCount c - 1) := by
    intro hLarge
    have hBelow : (2 : ℚ) ^ (3 * (e + Text.digitCount c - 1)) < 2 ^ (f.maxExp + f.precision) :=
      ((zpow_two_le_zpow_ten (by omega)).trans hTenLow).trans_lt
        (lt_of_contains hPos hCanonical hContains)
    have := (zpow_lt_zpow_iff_right₀ (by norm_num : (1 : ℚ) < 2)).1 hBelow
    omega
  have hNotSmall : ¬ 3 * (e + Text.digitCount c - 1 + 1) < f.minExp - 1 := by
    intro hSmall
    have hAbove : (2 : ℚ) ^ (f.minExp - 1) < 2 ^ (3 * (e + Text.digitCount c)) :=
      (le_of_contains hPos hCanonical hContains).trans_lt
        (hTenHigh.trans_le (zpow_ten_le_zpow_two (by omega)))
    have := (zpow_lt_zpow_iff_right₀ (by norm_num : (1 : ℚ) < 2)).1 hAbove
    omega
  have hQuotient : ((c * Nat.pow 10 e.toNat : Nat) / (Nat.pow 10 (-e).toNat : Nat) *
      2 ^ (0 : Int) : ℚ) = c * 10 ^ e := by
    rw [zpow_zero, mul_one]
    exact Ratio.value_ofDecimal c e
  rw [← hQuotient] at hContains
  simp only [ofDecimal, if_neg hC.ne', if_neg hNotLarge, if_neg hNotSmall]
  exact ofQuotient_eq_of_contains hPrecision negative (Nat.pow_pos (by decide)) hPos hCanonical
    hContains

end Binary

end Autodiff
