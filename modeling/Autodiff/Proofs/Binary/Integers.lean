import Autodiff.Proofs.Binary.Rounding

/-!
# Integers in binary formats

The integers up to `2 ^ p` in magnitude, for a format with `p` significant bits, are numbers of
the format. So the rounding at the end of an operation has no effect where the exact result is
such an integer, whatever the operands are.

* `Binary.rational?` is the exact value of a finite number;
* `Format.HasUnits` says that the places of a format reach the ones and the carry above them, and
  `Format.exists_canonical` that it then has all these integers;
* `Binary.rational?_ofInt`, `rational?_convert`, `rational?_add`, `rational?_sub` and
  `rational?_mul` say that conversions, sums, differences and products are exact.
-/

namespace Autodiff

/-- Every integer of up to `precision` bits has a place in the format. -/
structure Format.HasUnits (f : Format) : Prop where
  two_le_precision : 2 ≤ f.precision
  minExp_le : f.minExp ≤ 1 - f.precision
  one_le_maxExp : 1 ≤ f.maxExp

namespace Format

variable {f : Format}

theorem hasUnits_double : double.HasUnits := ⟨by decide, by decide, by decide⟩

theorem hasUnits_single : single.HasUnits := ⟨by decide, by decide, by decide⟩

theorem hasUnits_half : half.HasUnits := ⟨by decide, by decide, by decide⟩

/-- A natural number of up to `precision` bits, or the next power of two, as a significand and an
exponent. -/
theorem exists_canonical (hUnits : f.HasUnits) {k : Nat} (hBound : k ≤ 2 ^ f.precision) :
    ∃ m q, f.Canonical m q ∧ (m * 2 ^ q : ℚ) = k := by
  obtain ⟨hPrecision, hMin, hMax⟩ := hUnits
  have hHalfOf : 2 ^ (f.precision - 1) < 2 ^ f.precision :=
    Nat.pow_lt_pow_right (by decide) (by omega)
  rcases Nat.eq_zero_or_pos k with rfl | hPos
  · exact ⟨0, f.minExp, ⟨Nat.pow_pos (by decide), le_rfl, by omega, Or.inr rfl⟩, by simp⟩
  rcases hBound.lt_or_eq with hFits | rfl
  · -- shift the leading bit to the front
    have hLow := Nat.log2_self_le hPos.ne'
    have hBits : k.log2 < f.precision := (Nat.log2_lt hPos.ne').2 hFits
    refine ⟨k * 2 ^ (f.precision - 1 - k.log2), k.log2 - (f.precision - 1 : Nat),
      ⟨?_, by omega, by omega, Or.inl ?_⟩, ?_⟩
    · calc k * 2 ^ (f.precision - 1 - k.log2)
          < 2 ^ (k.log2 + 1) * 2 ^ (f.precision - 1 - k.log2) :=
            Nat.mul_lt_mul_of_pos_right Nat.lt_log2_self (Nat.pow_pos (by decide))
        _ = 2 ^ f.precision := by rw [← pow_add]; congr 1; omega
    · calc 2 ^ (f.precision - 1) = 2 ^ k.log2 * 2 ^ (f.precision - 1 - k.log2) := by
            rw [← pow_add]; congr 1; omega
        _ ≤ k * 2 ^ (f.precision - 1 - k.log2) := Nat.mul_le_mul_right _ hLow
    · push_cast
      rw [mul_assoc, ← zpow_natCast, ← zpow_add₀ (by decide)]
      have hCancel : ((f.precision - 1 - k.log2 : Nat) : Int) +
          (k.log2 - (f.precision - 1 : Nat)) = 0 := by omega
      rw [hCancel, zpow_zero, mul_one]
  · refine ⟨2 ^ (f.precision - 1), 1, ⟨hHalfOf, by omega, hMax, Or.inl le_rfl⟩, ?_⟩
    rw [zpow_one, show f.precision = f.precision - 1 + 1 by omega, pow_succ]
    push_cast
    rfl

end Format

namespace Binary

variable {f g : Format}

/-! ## Exact values -/

/-- The exact value of a finite number. -/
def rational? : Binary f → Option ℚ
  | finite negative m q _ => some (signed negative m * 2 ^ q)
  | _ => none

theorem isFinite_of_rational? {x : Binary f} {r : ℚ} (hValue : x.rational? = some r) :
    x.isFinite = true := by
  cases x with
  | nan | infinite => cases hValue
  | finite => rfl

theorem rational?_negate {x : Binary f} {r : ℚ} (hValue : x.rational? = some r) :
    x.negate.rational? = some (-r) := by
  cases x with
  | nan | infinite => cases hValue
  | finite negative m q hCanonical =>
    cases hValue
    cases negative <;> simp [negate, rational?, signed]

/-- The exact sum of two numbers in units of the lower of their last places. -/
theorem scaled_sum (a b p q : Int) :
    ((a * Nat.pow 2 (p - min p q).toNat + b * Nat.pow 2 (q - min p q).toNat : Int) *
      2 ^ min p q : ℚ) = a * 2 ^ p + b * 2 ^ q := by
  have hShift (k : Int) (hLow : min p q ≤ k) :
      (2 : ℚ) ^ (k - min p q).toNat * 2 ^ (min p q) = 2 ^ k := by
    rw [← zpow_natCast, ← zpow_add₀ (by decide)]
    congr 1
    omega
  push_cast [Nat.pow_eq]
  rw [add_mul, mul_assoc, mul_assoc, hShift p (min_le_left p q), hShift q (min_le_right p q)]

/-! ## Exact results -/

variable (hUnits : f.HasUnits)

include hUnits

theorem rational?_ofQuotient (negative : Bool) {m : Nat} {e k : Int}
    (hBound : k.natAbs ≤ 2 ^ f.precision) (hValue : (signed negative m * 2 ^ e : ℚ) = k) :
    (ofQuotient f negative m 1 e).rational? = some (k : ℚ) := by
  obtain ⟨m', q, hCanonical, hNumber⟩ := Format.exists_canonical hUnits hBound
  have hPower : (0 : ℚ) < 2 ^ e := by positivity
  have hMagnitude : (m * 2 ^ e : ℚ) = m' * 2 ^ q := by
    rw [hNumber, Nat.cast_natAbs, Int.cast_abs, ← hValue, abs_mul, abs_of_pos hPower]
    cases negative <;> simp [signed]
  rw [ofQuotient_eq_of_value hUnits.two_le_precision negative Nat.one_pos hCanonical
    (by rw [Nat.cast_one, div_one, hMagnitude]), rational?, ← hValue, Option.some.injEq]
  cases negative <;> simp [signed, hMagnitude]

theorem rational?_ofScaledInt (zeroNegative : Bool) {n e k : Int}
    (hBound : k.natAbs ≤ 2 ^ f.precision) (hValue : (n * 2 ^ e : ℚ) = k) :
    (ofScaledInt f zeroNegative n e).rational? = some (k : ℚ) := by
  have hSigned : signed (decide (n < 0)) n.natAbs = n := by
    unfold signed
    by_cases hNegative : n < 0
    · rw [decide_eq_true hNegative, if_pos rfl]
      omega
    · rw [decide_eq_false hNegative, if_neg Bool.false_ne_true]
      omega
  unfold ofScaledInt
  split
  · next hZero =>
    obtain ⟨hPrecision, hMin, hMax⟩ := id hUnits
    have hCanonical : f.Canonical 0 f.minExp :=
      ⟨Nat.pow_pos (by decide), le_rfl, by omega, Or.inr rfl⟩
    rw [zero, pack, dif_pos hCanonical, rational?, ← hValue, hZero]
    cases zeroNegative <;> simp [signed]
  · exact rational?_ofQuotient hUnits _ hBound (by rw [hSigned, hValue])

theorem rational?_ofInt {k : Int} (hBound : k.natAbs ≤ 2 ^ f.precision) :
    (ofInt f k).rational? = some (k : ℚ) :=
  rational?_ofScaledInt hUnits false hBound (by simp)

theorem rational?_convert {x : Binary g} {k : Int} (hValue : x.rational? = some (k : ℚ))
    (hBound : k.natAbs ≤ 2 ^ f.precision) : (x.convert f).rational? = some (k : ℚ) := by
  cases x with
  | nan | infinite => cases hValue
  | finite negative m q hCanonical =>
    exact rational?_ofQuotient hUnits negative hBound (Option.some.inj hValue)

theorem rational?_add {x y : Binary f} {a b : Int} (hX : x.rational? = some (a : ℚ))
    (hY : y.rational? = some (b : ℚ)) (hBound : (a + b).natAbs ≤ 2 ^ f.precision) :
    (x.add y).rational? = some ((a + b : Int) : ℚ) := by
  cases x with
  | nan | infinite => cases hX
  | finite s m p hM =>
    cases y with
    | nan | infinite => cases hY
    | finite t n q hN =>
      rw [rational?, Option.some.injEq] at hX hY
      refine rational?_ofScaledInt hUnits _ hBound ?_
      rw [scaled_sum, hX, hY, Int.cast_add]

theorem rational?_sub {x y : Binary f} {a b : Int} (hX : x.rational? = some (a : ℚ))
    (hY : y.rational? = some (b : ℚ)) (hBound : (a - b).natAbs ≤ 2 ^ f.precision) :
    (x.sub y).rational? = some ((a - b : Int) : ℚ) := by
  have hNegated : y.negate.rational? = some ((-b : Int) : ℚ) := by
    rw [rational?_negate hY, Int.cast_neg]
  rw [sub_eq_add_neg] at hBound ⊢
  exact rational?_add hUnits hX hNegated hBound

theorem rational?_mul {x y : Binary f} {a b : Int} (hX : x.rational? = some (a : ℚ))
    (hY : y.rational? = some (b : ℚ)) (hBound : (a * b).natAbs ≤ 2 ^ f.precision) :
    (x.mul y).rational? = some ((a * b : Int) : ℚ) := by
  cases x with
  | nan | infinite => cases hX
  | finite s m p hM =>
    cases y with
    | nan | infinite => cases hY
    | finite t n q hN =>
      rw [rational?, Option.some.injEq] at hX hY
      refine rational?_ofQuotient hUnits (s ^^ t) hBound ?_
      rw [Int.cast_mul, ← hX, ← hY, zpow_add₀ (by decide)]
      cases s <;> cases t <;> simp [signed] <;> ring

end Binary

end Autodiff
