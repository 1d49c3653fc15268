import Autodiff.Proofs.Binary.Integers

/-!
# Signed zeros in binary formats

A product or a quotient may be too small for its format, and then it is a zero with the sign of
the exact result. A sum is never too small: the numbers of a format are multiples of its smallest
number, and so are their sums. So a sum is a negative zero only if both addends are.

* `Binary.isNegativeZero` is the zero with a minus sign;
* `Binary.OnGrid` are the multiples of a power of two, and `ofQuotient_onGrid` says that rounding
  keeps them, and keeps them apart from zero, if the format has that power;
* `Binary.convert_onGrid` and `Binary.add_onGrid` draw the conclusions for conversions and sums, and
  `isNegativeZero_add` for the sum of any two numbers of a format.
-/

namespace Autodiff.Binary

variable {f g : Format} {k : Int}

/-- A zero with a minus sign. -/
def isNegativeZero : Binary f → Bool
  | finite negative m _ _ => negative && m == 0
  | _ => false

/-- A number that is a multiple of `2 ^ k`, if it is finite. -/
def OnGrid (k : Int) : Binary f → Prop
  | finite _ m q _ => ∃ j : Nat, (m * 2 ^ q : ℚ) = j * 2 ^ k
  | _ => True

/-- A power of two is a multiple of any smaller one. -/
theorem zpow_onGrid {q : Int} (hLe : k ≤ q) (m : Nat) :
    ∃ j : Nat, (m * 2 ^ q : ℚ) = j * 2 ^ k := by
  refine ⟨m * 2 ^ (q - k).toNat, ?_⟩
  push_cast
  rw [mul_assoc, ← zpow_natCast, ← zpow_add₀ (by decide)]
  congr 2
  omega

theorem onGrid_minExp (x : Binary f) : x.OnGrid f.minExp := by
  cases x with
  | nan | infinite => trivial
  | finite negative m q hCanonical => exact zpow_onGrid hCanonical.2.1 m

/-! ## Rounding -/

theorem pack_onGrid (negative : Bool) {m : Nat} (hPos : 0 < m) {q : Int}
    (hGrid : ∃ j : Nat, (m * 2 ^ q : ℚ) = j * 2 ^ k) :
    (pack f negative m q).isNegativeZero = false ∧ (pack f negative m q).OnGrid k := by
  unfold pack
  split
  · exact ⟨by simp [isNegativeZero, hPos.ne'], hGrid⟩
  · exact ⟨rfl, trivial⟩

theorem isNegativeZero_zero (hUnits : f.HasUnits) (negative : Bool) :
    (zero f negative).isNegativeZero = negative ∧ (zero f negative).OnGrid k := by
  obtain ⟨-, hMin, hMax⟩ := hUnits
  have hCanonical : f.Canonical 0 f.minExp :=
    ⟨Nat.pow_pos (by decide), le_rfl, by omega, Or.inr rfl⟩
  rw [zero, pack, dif_pos hCanonical]
  exact ⟨by simp [isNegativeZero], 0, by simp⟩

/-- The significand that a multiple of a power of two is rounded to, at the exponent that its
leading bit asks for. -/
theorem halfEven_onGrid {num den : Nat} (hNum : 0 < num) (hDen : 0 < den) {e : Int} {j : Nat}
    (hValue : (num / den * 2 ^ e : ℚ) = j * 2 ^ k) {q : Int}
    (hPlace : q ≤ k ∨ q ≤ e + leadingExponent num den) :
    0 < halfEven (num * 2 ^ (e - q).toNat) (den * 2 ^ (q - e).toNat) ∧
      ∃ i : Nat, (halfEven (num * 2 ^ (e - q).toNat) (den * 2 ^ (q - e).toNat) * 2 ^ q : ℚ) =
        i * 2 ^ k := by
  have hDenPos : (0 : ℚ) < den := by exact_mod_cast hDen
  rcases le_or_gt q k with hFine | hCoarse
  · -- the places reach down to the unit, so nothing is cut off
    have hExact : (num / den * 2 ^ e : ℚ) = (j * 2 ^ (k - q).toNat : Nat) * 2 ^ q := by
      push_cast
      rw [hValue, mul_assoc, ← zpow_natCast, ← zpow_add₀ (by decide)]
      congr 2
      omega
    have hPos : 0 < j := by
      refine Nat.pos_of_ne_zero fun hZero => ?_
      rw [hZero, Nat.cast_zero, zero_mul] at hValue
      have hNumPos : (0 : ℚ) < num := by exact_mod_cast hNum
      have hNonzero : (0 : ℚ) < num / den * 2 ^ e := by positivity
      exact hNonzero.ne' hValue
    have hUnit : (0 : ℚ) < 2 ^ q := by positivity
    rw [halfEven_scaled hDen (q := q) (k := j * 2 ^ (k - q).toNat)]
    · exact ⟨Nat.mul_pos hPos (Nat.pow_pos (by decide)), j, hExact.symm.trans hValue⟩
    · rw [hExact]
      gcongr
      linarith
    · rw [hExact]
      gcongr
      linarith
    · rw [hExact]
      rintro (hTie | hTie)
      · have := mul_right_cancel₀ hUnit.ne' hTie
        linarith
      · have := mul_right_cancel₀ hUnit.ne' hTie
        linarith
  · refine ⟨?_, zpow_onGrid hCoarse.le _⟩
    have hLeading : (2 : ℚ) ^ (q - e) ≤ num / den := by
      refine le_trans ?_ (zpow_leadingExponent_le hNum hDen)
      exact zpow_le_zpow_right₀ (by norm_num) (by omega)
    have hScaled := (zpow_le_div_iff hDen (q - e)).1 hLeading
    rw [Int.neg_sub] at hScaled
    have hDenScaled : 0 < den * 2 ^ (q - e).toNat := Nat.mul_pos hDen (Nat.pow_pos (by decide))
    exact (Nat.div_pos hScaled hDenScaled).trans_le (div_le_halfEven _ _)

/-- A multiple of a power of two that the format has is rounded to one, and not to zero. -/
theorem ofQuotient_onGrid (hPrecision : 2 ≤ f.precision) (negative : Bool) {num den : Nat}
    (hNum : 0 < num) (hDen : 0 < den) {e : Int} (hMin : f.minExp ≤ k) {j : Nat}
    (hValue : (num / den * 2 ^ e : ℚ) = j * 2 ^ k) :
    (ofQuotient f negative num den e).isNegativeZero = false ∧
      (ofQuotient f negative num den e).OnGrid k := by
  unfold ofQuotient
  rw [if_neg hNum.ne']
  simp only [Nat.pow_eq]
  generalize hQ : max f.minExp (e + leadingExponent num den - (f.precision - 1 : Nat)) = q
  obtain ⟨hPos, i, hGrid⟩ := halfEven_onGrid hNum hDen hValue (q := q) (by omega)
  split
  · next hCarry =>
    refine pack_onGrid negative (Nat.pow_pos (by decide)) ⟨i, ?_⟩
    rw [← hGrid, hCarry, zpow_add_one₀ (by decide)]
    have hDouble : f.precision = f.precision - 1 + 1 := by omega
    rw [hDouble, pow_succ]
    push_cast
    ring
  · exact pack_onGrid negative hPos ⟨i, hGrid⟩

/-! ## Conversions and sums -/

/-- A conversion to a format with the places of a number keeps its sign and its places. -/
theorem convert_onGrid (hUnits : g.HasUnits) {x : Binary f} (hGrid : x.OnGrid k)
    (hMin : g.minExp ≤ k) :
    (x.convert g).isNegativeZero = x.isNegativeZero ∧ (x.convert g).OnGrid k := by
  cases x with
  | nan | infinite => exact ⟨rfl, trivial⟩
  | finite negative m q hCanonical =>
    rcases Nat.eq_zero_or_pos m with rfl | hPos
    · obtain ⟨hSign, hZero⟩ := isNegativeZero_zero (k := k) hUnits negative
      have hConvert : (finite negative 0 q hCanonical).convert g = zero g negative := by
        rw [convert, ofQuotient, if_pos rfl]
      rw [hConvert]
      exact ⟨by rw [hSign]; simp [isNegativeZero], hZero⟩
    · obtain ⟨j, hValue⟩ := hGrid
      obtain ⟨hSign, hRounded⟩ := ofQuotient_onGrid hUnits.two_le_precision negative hPos
        Nat.one_pos hMin (e := q) (j := j) (by rw [Nat.cast_one, div_one, hValue])
      exact ⟨hSign.trans (by simp [isNegativeZero, hPos.ne']), hRounded⟩

/-- The sign of a zero is kept in every format. -/
theorem isNegativeZero_convert_of_isZero (hUnits : g.HasUnits) {x : Binary f}
    (hZero : x.isZero = true) : (x.convert g).isNegativeZero = x.isNegativeZero := by
  refine (convert_onGrid hUnits ?_ (le_refl g.minExp)).1
  cases x with
  | nan | infinite => trivial
  | finite negative m q hCanonical =>
    obtain rfl : m = 0 := beq_iff_eq.1 hZero
    exact ⟨0, by simp⟩

theorem ofScaledInt_onGrid (hUnits : f.HasUnits) (zeroNegative : Bool) {n e j : Int}
    (hMin : f.minExp ≤ k) (hValue : (n * 2 ^ e : ℚ) = j * 2 ^ k) :
    (ofScaledInt f zeroNegative n e).isNegativeZero = (zeroNegative && n == 0) ∧
      (ofScaledInt f zeroNegative n e).OnGrid k := by
  unfold ofScaledInt
  split
  · next hZero =>
    obtain ⟨hSign, hGrid⟩ := isNegativeZero_zero (k := k) hUnits zeroNegative
    exact ⟨by rw [hSign, hZero]; simp, hGrid⟩
  · next hNonzero =>
    have hMagnitude : ((n.natAbs : Nat) / (1 : Nat) * 2 ^ e : ℚ) = j.natAbs * 2 ^ k := by
      have hAbs := congrArg abs hValue
      rwa [abs_mul, abs_mul, abs_of_pos (by positivity : (0 : ℚ) < 2 ^ e),
        abs_of_pos (by positivity : (0 : ℚ) < 2 ^ k), ← Int.cast_abs, ← Int.cast_abs,
        ← Nat.cast_natAbs, ← Nat.cast_natAbs, ← div_one (n.natAbs : ℚ), ← Nat.cast_one] at hAbs
    obtain ⟨hSign, hGrid⟩ := ofQuotient_onGrid hUnits.two_le_precision (decide (n < 0))
      (Int.natAbs_pos.2 hNonzero) Nat.one_pos hMin hMagnitude
    exact ⟨hSign.trans (by simp [hNonzero]), hGrid⟩

theorem signed_onGrid {negative : Bool} {m j : Nat} {q : Int} (hGrid : (m * 2 ^ q : ℚ) = j * 2 ^ k) :
    (signed negative m * 2 ^ q : ℚ) = signed negative j * 2 ^ k := by
  cases negative <;> simp [signed, hGrid]

/-- The sum of two numbers with minus signs is zero only if both are. -/
theorem negative_sum_eq_zero_iff {a b : Nat} (hA : 0 < a) (hB : 0 < b) (m n : Nat) :
    signed true m * a + signed true n * b = 0 ↔ m = 0 ∧ n = 0 := by
  have hSum : signed true m * a + signed true n * b = -((m * a + n * b : Nat) : Int) := by
    rw [signed, signed, if_pos rfl, if_pos rfl]
    push_cast
    ring
  rw [hSum, Int.neg_eq_zero, Int.natCast_eq_zero, Nat.add_eq_zero_iff, Nat.mul_eq_zero,
    Nat.mul_eq_zero, or_iff_left hA.ne', or_iff_left hB.ne']

/-- The sum of two numbers on a grid is on it, and it is a negative zero only if both are. -/
theorem add_onGrid (hUnits : f.HasUnits) {x y : Binary f} (hX : x.OnGrid k) (hY : y.OnGrid k)
    (hMin : f.minExp ≤ k) :
    (x.add y).isNegativeZero = (x.isNegativeZero && y.isNegativeZero) ∧ (x.add y).OnGrid k := by
  cases x with
  | nan => exact ⟨rfl, trivial⟩
  | infinite s =>
    cases y with
    | nan => exact ⟨rfl, trivial⟩
    | infinite t =>
      rw [add]
      split <;> exact ⟨rfl, trivial⟩
    | finite => exact ⟨rfl, trivial⟩
  | finite s m p hM =>
    cases y with
    | nan | infinite => exact ⟨by simp [add, isNegativeZero], trivial⟩
    | finite t n q hN =>
      obtain ⟨i, hX⟩ := hX
      obtain ⟨j, hY⟩ := hY
      have hSum := scaled_sum (signed s m) (signed t n) p q
      rw [signed_onGrid hX, signed_onGrid hY, ← add_mul, ← Int.cast_add] at hSum
      obtain ⟨hSign, hGrid⟩ := ofScaledInt_onGrid hUnits (s && t) hMin hSum
      refine ⟨hSign.trans ?_, hGrid⟩
      cases s with
      | false => simp [isNegativeZero]
      | true =>
        cases t with
        | false => simp [isNegativeZero]
        | true =>
          rw [Bool.eq_iff_iff]
          simpa [isNegativeZero] using negative_sum_eq_zero_iff
            (Nat.pow_pos (by decide : 0 < 2) (n := (p - min p q).toNat))
            (Nat.pow_pos (by decide : 0 < 2) (n := (q - min p q).toNat)) m n

/-- A sum is a negative zero only if both addends are. -/
theorem isNegativeZero_add (hUnits : f.HasUnits) (x y : Binary f) :
    (x.add y).isNegativeZero = (x.isNegativeZero && y.isNegativeZero) :=
  (add_onGrid hUnits x.onGrid_minExp y.onGrid_minExp le_rfl).1

end Autodiff.Binary
