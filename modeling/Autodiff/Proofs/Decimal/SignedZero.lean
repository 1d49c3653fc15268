import Autodiff.Proofs.Binary.SignedZero
import Autodiff.Proofs.Decimal.Integers

/-!
# Signed zeros in the standard decimal context

A product or a quotient may be too small for a context, and then it is a zero with the sign of the
exact result. A sum of results is never too small: no digit of a result stands below the last place
of the context, and so none of their sum does. So such a sum is a negative zero only if both addends
are.

* `Decimal.isNegativeZero` is a zero with a minus sign, and `Decimal.InPlace` are the numbers without
  digits below the last place of the context;
* `Decimal.Context.finalize_spec` says that a rounded result is in place, and that it is not zero if
  the exact one is in place and not zero;
* `Decimal.add_spec` is about sums; `Decimal.inPlace_sub`, `inPlace_mul` and `inPlace_div` say that
  the other results are in place too.
-/

namespace Autodiff.Decimal

open Text

/-- A zero with a minus sign. -/
def isNegativeZero : Decimal → Bool
  | finite negative coefficient _ => negative && coefficient == 0
  | _ => false

/-- A number without digits below the last place of the standard context, if it is finite. -/
def InPlace : Decimal → Prop
  | finite _ _ exponent => Context.standard.minLast ≤ exponent
  | _ => True

theorem inPlace_ofInt (n : Int) : (ofInt n).InPlace := by
  change Context.standard.minLast ≤ 0
  decide

namespace Context

@[simp] theorem standard_minLast : standard.minLast = -1000026 := rfl

/-! ## Rounding -/

/-- A coefficient keeps its leading digit. -/
theorem dropDigits_pos {coefficient : Nat} (hNonzero : coefficient ≠ 0) :
    0 < dropDigits coefficient (digitCount coefficient - standard.precision) := by
  have hCount := digitCount_pos coefficient
  rw [standard_precision, dropDigits, if_neg (by omega)]
  refine Nat.lt_of_lt_of_le (Nat.div_pos ?_ (Nat.pow_pos (by decide))) (div_le_halfEven _ _)
  calc 10 ^ (digitCount coefficient - 28) ≤ 10 ^ (digitCount coefficient - 1) :=
        Nat.pow_le_pow_right (by decide) (by omega)
    _ ≤ coefficient := pow_digitCount_le (Nat.pos_of_ne_zero hNonzero)

theorem roundCoefficient_spec {coefficient : Nat} (hNonzero : coefficient ≠ 0) {exponent : Int}
    (hLeading : standard.minLeading ≤ adjusted coefficient exponent) :
    (standard.roundCoefficient coefficient exponent).1 ≠ 0 ∧
      standard.minLast ≤ (standard.roundCoefficient coefficient exponent).2 := by
  rw [adjusted, standard_minLeading] at hLeading
  have hPrecision : standard.precision = 28 := rfl
  by_cases hCarry : dropDigits coefficient (digitCount coefficient - standard.precision) =
      Nat.pow 10 standard.precision
  · simp only [roundCoefficient, if_pos hCarry]
    exact ⟨by decide, by rw [standard_minLast]; omega⟩
  · simp only [roundCoefficient, if_neg hCarry]
    exact ⟨(dropDigits_pos hNonzero).ne', by rw [standard_minLast]; omega⟩

/-- A rounded result has the sign of the exact one and is in place. If the exact one is in place
too, then either both are zero or none is. -/
theorem finalize_spec {negative : Bool} {coefficient : Nat} {exponent : Int} {result : Decimal}
    (hResult : standard.finalize negative coefficient exponent = .ok result) :
    ∃ rounded last, result = finite negative rounded last ∧ standard.minLast ≤ last ∧
      (standard.minLast ≤ exponent → (rounded = 0 ↔ coefficient = 0)) := by
  unfold finalize at hResult
  split at hResult
  · next hZero =>
    cases hResult
    refine ⟨0, _, rfl, ?_, fun _ => by simp [hZero]⟩
    rw [standard_maxLeading, standard_minLast]
    omega
  · next hNonzero =>
    simp only at hResult
    split at hResult
    · cases hResult
    · split at hResult
      · split at hResult
        · next hBelow =>
          cases hResult
          exact ⟨_, _, rfl, le_rfl, fun hPlace => absurd hBelow (not_lt.2 hPlace)⟩
        · next hPlace =>
          cases hResult
          exact ⟨_, _, rfl, not_lt.1 hPlace, fun _ => Iff.rfl⟩
      · next hLeading =>
        obtain ⟨hRounded, hLast⟩ := roundCoefficient_spec hNonzero (not_lt.1 hLeading)
        split at hResult
        · cases hResult
        · cases hResult
          exact ⟨_, _, rfl, hLast, fun _ => iff_of_false hRounded hNonzero⟩

theorem inPlace_of_nanOutcome? {x y result : Decimal}
    (hOutcome : standard.nanOutcome? x y = some (.ok result)) : result.InPlace := by
  unfold nanOutcome? at hOutcome
  split at hOutcome <;> cases hOutcome <;> trivial

end Context

/-! ## Sums -/

/-- The exact sum of two numbers, rounded, is a negative zero only if both are. -/
theorem roundSum_spec {s t : Bool} {m n a : Nat} (hA : 0 < a) {q : Int} {sum : Int}
    (hSum : sum = Binary.signed s m * a + Binary.signed t n) {result : Decimal}
    (hResult : (if sum = 0 then Context.standard.finalize (s && t) 0 q
      else Context.standard.finalize (sum < 0) sum.natAbs q) = .ok result) :
    result.InPlace ∧ (Context.standard.minLast ≤ q →
      result.isNegativeZero = ((s && m == 0) && (t && n == 0))) := by
  split at hResult
  · next hZero =>
    obtain ⟨rounded, last, rfl, hLast, hRounded⟩ := Context.finalize_spec hResult
    refine ⟨hLast, fun hPlace => ?_⟩
    rw [isNegativeZero, (hRounded hPlace).2 rfl]
    cases s with
    | false => simp
    | true =>
      cases t with
      | false => simp
      | true =>
        have hBoth := (Binary.negative_sum_eq_zero_iff hA Nat.one_pos m n).1
          (by rw [Nat.cast_one, mul_one, ← hSum, hZero])
        simp [hBoth]
  · next hNonzero =>
    obtain ⟨rounded, last, rfl, hLast, hRounded⟩ := Context.finalize_spec hResult
    refine ⟨hLast, fun hPlace => ?_⟩
    have hKept : rounded ≠ 0 := mt (hRounded hPlace).1 (Int.natAbs_ne_zero.2 hNonzero)
    have hAddends : ¬ (m = 0 ∧ n = 0) := by
      rintro ⟨rfl, rfl⟩
      exact hNonzero (by simp [hSum, Binary.signed])
    rw [isNegativeZero, beq_eq_false_iff_ne.2 hKept, Bool.and_false, eq_comm,
      Bool.eq_false_iff]
    simp only [Bool.and_eq_true, beq_iff_eq, ne_eq, not_and]
    exact fun hM hT hN => hAddends ⟨hM.2, hN⟩

theorem addOrdered_spec {s t : Bool} {m n : Nat} {p q : Int} {result : Decimal}
    (hResult : Context.standard.addOrdered s m p t n q = .ok result) :
    result.InPlace ∧ (Context.standard.minLast ≤ q →
      result.isNegativeZero = ((s && m == 0) && (t && n == 0))) := by
  -- a unit that replaces the second addend stands in a higher place
  have hAddend : ∃ n' q', (if m ≠ 0 ∧ adjusted n q < p - 1 + min 0 ((digitCount m : Int) -
        Context.standard.precision - 1) then
      (min n 1, p - 1 + min 0 ((digitCount m : Int) - Context.standard.precision - 1)) else (n, q)) =
        (n', q') ∧ (n' = 0 ↔ n = 0) ∧ q ≤ q' := by
    split
    · next hSmall =>
      have hCount := digitCount_pos n
      have hLt := hSmall.2
      rw [adjusted] at hLt
      exact ⟨_, _, rfl, by omega, by omega⟩
    · exact ⟨_, _, rfl, Iff.rfl, le_rfl⟩
  obtain ⟨n', q', hEq, hZero, hPlace⟩ := hAddend
  simp only [Context.addOrdered, hEq] at hResult
  obtain ⟨hResultPlace, hSign⟩ := roundSum_spec (Nat.pow_pos (by decide)) rfl hResult
  refine ⟨hResultPlace, fun hQ => (hSign (hQ.trans hPlace)).trans ?_⟩
  have hBeq : (n' == 0) = (n == 0) := by rw [Bool.eq_iff_iff, beq_iff_eq, beq_iff_eq, hZero]
  rw [hBeq]

/-- The sum of two numbers is in place. If both are in place, it is a negative zero only if both
are. -/
theorem add_spec {x y result : Decimal} (hResult : Context.standard.add x y = .ok result) :
    result.InPlace ∧ (x.InPlace → y.InPlace →
      result.isNegativeZero = (x.isNegativeZero && y.isNegativeZero)) := by
  cases x with
  | nan s signaling payload =>
    cases signaling with
    | true => cases hResult
    | false =>
      cases y with
      | nan t signaling payload =>
        cases signaling <;> cases hResult
        exact ⟨trivial, fun _ _ => rfl⟩
      | infinite | finite =>
        cases hResult
        exact ⟨trivial, fun _ _ => rfl⟩
  | infinite s =>
    cases y with
    | nan t signaling payload =>
      cases signaling <;> cases hResult
      exact ⟨trivial, fun _ _ => rfl⟩
    | infinite t =>
      change (if s = t then (.ok (infinite s) : Except Signal Decimal)
        else .error .invalidOperation) = .ok result at hResult
      split at hResult <;> cases hResult
      exact ⟨trivial, fun _ _ => rfl⟩
    | finite =>
      cases hResult
      exact ⟨trivial, fun _ _ => rfl⟩
  | finite s m p =>
    cases y with
    | nan t signaling payload =>
      cases signaling <;> cases hResult
      exact ⟨trivial, fun _ _ => (Bool.and_false _).symm⟩
    | infinite t =>
      cases hResult
      exact ⟨trivial, fun _ _ => (Bool.and_false _).symm⟩
    | finite t n q =>
      change (if q ≤ p then Context.standard.addOrdered s m p t n q
        else Context.standard.addOrdered t n q s m p) = .ok result at hResult
      split at hResult
      · obtain ⟨hPlace, hSign⟩ := addOrdered_spec hResult
        exact ⟨hPlace, fun _ hY => hSign hY⟩
      · obtain ⟨hPlace, hSign⟩ := addOrdered_spec hResult
        exact ⟨hPlace, fun hX _ => (hSign hX).trans (Bool.and_comm _ _)⟩

/-! ## Results in place -/

theorem inPlace_of_finalize {negative : Bool} {coefficient : Nat} {exponent : Int}
    {result : Decimal}
    (hResult : Context.standard.finalize negative coefficient exponent = .ok result) :
    result.InPlace := by
  obtain ⟨_, _, rfl, hLast, -⟩ := Context.finalize_spec hResult
  exact hLast

variable {x y result : Decimal}

theorem inPlace_sub (hResult : Context.standard.sub x y = .ok result) : result.InPlace := by
  unfold Context.sub at hResult
  split at hResult
  · next hOutcome => exact Context.inPlace_of_nanOutcome? (hResult ▸ hOutcome)
  · exact (add_spec hResult).1

theorem inPlace_mul (hResult : Context.standard.mul x y = .ok result) : result.InPlace := by
  unfold Context.mul at hResult
  split at hResult
  · next hOutcome => exact Context.inPlace_of_nanOutcome? (hResult ▸ hOutcome)
  · split at hResult
    · exact inPlace_of_finalize hResult
    · split at hResult <;> cases hResult
      trivial

theorem inPlace_div (hResult : Context.standard.div x y = .ok result) : result.InPlace := by
  unfold Context.div at hResult
  split at hResult
  · next hOutcome => exact Context.inPlace_of_nanOutcome? (hResult ▸ hOutcome)
  · simp only at hResult
    split at hResult
    · split at hResult
      · cases hResult
      · split at hResult
        · exact inPlace_of_finalize hResult
        · unfold Context.divFinite at hResult
          simp only at hResult
          split at hResult <;> exact inPlace_of_finalize hResult
    · cases hResult
    · cases hResult
      trivial
    · cases hResult
      exact le_rfl

end Autodiff.Decimal
