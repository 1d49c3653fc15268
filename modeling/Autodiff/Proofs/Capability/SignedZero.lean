import Autodiff.Capability.Builtin
import Autodiff.Proofs.Capability.SmallIntegers
import Autodiff.Proofs.Decimal.SignedZero

/-!
# Sums that are negative zeros

In an interchange width and in decimal arithmetic a sum of results is a negative zero only if both
addends are. Builtin arithmetic agrees as long as it does not convert the first addend to a narrow
width: beside a negative zero of such a width a small negative double turns into one.

* `Scalar.isNegativeZero` is a zero of any kind with a minus sign;
* `Ieee.isNegativeZero_apply_add` and `Decimal.isNegativeZero_combine_add` are about sums in a width
  and in decimal arithmetic;
* `Builtin.LosesSign` are the pairs of addends that are said above, and
  `Builtin.isNegativeZero_add_iff` says that there are no others;
* `Builtin.isReal_of_combine` and `Builtin.wide_simulatedBy` say which kinds the results have.
-/

namespace Autodiff

/-- A zero with a minus sign. -/
def Scalar.isNegativeZero : Scalar → Bool
  | float x => x.isNegativeZero
  | ieee _ x => x.isNegativeZero
  | decimal x => x.isNegativeZero
  | _ => false

/-! ## Interchange widths -/

theorem Width.minExp_double_le (width : Width) : Format.double.minExp ≤ width.format.minExp := by
  cases width <;> decide

theorem Width.minExp_max_le_left (first second : Width) :
    (first.max second).format.minExp ≤ first.format.minExp := by
  cases first <;> cases second <;> decide

/-- A number keeps its sign, if it is zero, in a width that is not narrower. -/
theorem Scalar.toWidth_ieee {width other : Width}
    (hMin : width.format.minExp ≤ other.format.minExp) (x : Binary other.format) :
    ∃ y, (ieee other x).toWidth width = .ok y ∧ y.isNegativeZero = x.isNegativeZero := by
  obtain ⟨hSign, hGrid⟩ :=
    Binary.convert_onGrid Format.hasUnits_double x.onGrid_minExp other.minExp_double_le
  exact ⟨_, rfl, (Binary.convert_onGrid width.hasUnits hGrid hMin).1.trans hSign⟩

namespace Ieee

/-- The sum of halves is computed as one of singles, where it stays on the grid of the halves. -/
theorem isNegativeZero_apply_add (library : Library) (width : Width)
    (x y : Binary width.format) :
    (apply library width .add x y).isNegativeZero = (x.isNegativeZero && y.isNegativeZero) := by
  cases width with
  | double => exact Binary.isNegativeZero_add Format.hasUnits_double x y
  | single => exact Binary.isNegativeZero_add Format.hasUnits_single x y
  | half =>
    have hPlaces : Format.single.minExp ≤ Format.half.minExp := by decide
    obtain ⟨hX, hXGrid⟩ := Binary.convert_onGrid Format.hasUnits_single x.onGrid_minExp hPlaces
    obtain ⟨hY, hYGrid⟩ := Binary.convert_onGrid Format.hasUnits_single y.onGrid_minExp hPlaces
    obtain ⟨hSum, hSumGrid⟩ := Binary.add_onGrid Format.hasUnits_single hXGrid hYGrid hPlaces
    rw [← hX, ← hY, ← hSum]
    exact (Binary.convert_onGrid Format.hasUnits_half hSumGrid le_rfl).1

/-- A sum is a negative zero exactly if both addends are when they are converted. -/
theorem combine_add_eq_ok {library : Library} {width : Width} {x y result : Scalar}
    (hSum : combine library width .add x y = .ok result) :
    ∃ a b z, x.toWidth width = .ok a ∧ y.toWidth width = .ok b ∧ result = .ieee width z ∧
      z.isNegativeZero = (a.isNegativeZero && b.isNegativeZero) := by
  rw [combine, bind_eq_ok_iff] at hSum
  obtain ⟨a, hX, hRest⟩ := hSum
  obtain ⟨b, hY, hPure⟩ := bind_eq_ok_iff.1 hRest
  cases hPure
  exact ⟨a, b, _, hX, hY, rfl, isNegativeZero_apply_add library width a b⟩

theorem exists_of_combine {library : Library} {width : Width} {op : Op} {x y result : Scalar}
    (hResult : combine library width op x y = .ok result) : ∃ z, result = .ieee width z := by
  rw [combine, bind_eq_ok_iff] at hResult
  obtain ⟨a, -, hRest⟩ := hResult
  obtain ⟨b, -, hPure⟩ := bind_eq_ok_iff.1 hRest
  cases hPure
  exact ⟨_, rfl⟩

end Ieee

/-! ## Decimal arithmetic -/

/-- A number without digits below the last place of the standard context. -/
def Scalar.IsInPlace : Scalar → Prop
  | decimal x => x.InPlace
  | _ => False

namespace Decimal

variable {op : Op} {x y result : Scalar}

theorem isInPlace_of_combine (hOp : op ≠ .pow) (hResult : combine op x y = .ok result) :
    result.IsInPlace := by
  rw [combine, bind_eq_ok_iff] at hResult
  obtain ⟨a, -, hRest⟩ := hResult
  obtain ⟨b, -, hOutcome⟩ := bind_eq_ok_iff.1 hRest
  obtain ⟨z, hZ, rfl⟩ := outcome_eq_ok_iff.1 hOutcome
  cases op with
  | add => exact (add_spec hZ).1
  | sub => exact inPlace_sub hZ
  | mul => exact inPlace_mul hZ
  | div => exact inPlace_div hZ
  | pow => exact absurd rfl hOp

theorem isNegativeZero_combine_add (hX : x.IsInPlace) (hY : y.IsInPlace)
    (hSum : combine .add x y = .ok result) :
    result.isNegativeZero = (x.isNegativeZero && y.isNegativeZero) := by
  cases x with
  | decimal a =>
    cases y with
    | decimal b =>
      obtain ⟨z, hZ, rfl⟩ := outcome_eq_ok_iff.1 hSum
      exact (add_spec hZ).2 hX hY
    | int | float | ieee | text | bool | nothing => exact hY.elim
  | int | float | ieee | text | bool | nothing => exact hX.elim

end Decimal

/-! ## Builtin arithmetic -/

/-- A double or a number of a width. -/
def Scalar.IsReal : Scalar → Prop
  | float _ | ieee _ _ => True
  | _ => False

/-- A number of one of the narrow widths. -/
def Scalar.isNarrow : Scalar → Bool
  | ieee .single _ | ieee .half _ => true
  | _ => false

namespace Builtin

variable {library : Library} {op : Op} {x y result : Scalar}

theorem exists_of_combineDoubles {a b : Binary .double}
    (hResult : combineDoubles library op a b = .ok result) : ∃ z, result = .float z := by
  unfold combineDoubles at hResult
  split at hResult <;> cases hResult
  exact ⟨_, rfl⟩

/-- Whatever is combined with a double or a number of a width, the result is one again. -/
theorem isReal_of_combine (hX : x.IsReal) (hResult : combine library op x y = .ok result) :
    result.IsReal := by
  have hDoubles {a b : Binary .double} (hDouble : combineDoubles library op a b = .ok result) :
      result.IsReal := by
    obtain ⟨z, rfl⟩ := exists_of_combineDoubles hDouble
    trivial
  have hIeee {width : Width} (hWidth : Ieee.combine library width op x y = .ok result) :
      result.IsReal := by
    obtain ⟨z, rfl⟩ := Ieee.exists_of_combine hWidth
    trivial
  cases x with
  | float a =>
    cases y with
    | float b => exact hDoubles hResult
    | int n | bool n =>
      obtain ⟨b, -, hDouble⟩ := bind_eq_ok_iff.1 hResult
      exact hDoubles hDouble
    | ieee => exact hIeee hResult
    | decimal | text | nothing => cases hResult
  | ieee w a =>
    cases y with
    | float | int | bool | ieee => exact hIeee hResult
    | decimal | text | nothing => cases hResult
  | int | bool | decimal | text | nothing => exact hX.elim

/-- A double that is small enough to become a negative zero of a width, though it is not zero, and
a negative zero of that width. -/
def LosesSign (sum amount : Scalar) : Prop :=
  ∃ x width y, sum = .float x ∧ x.isZero = false ∧
    (x.convert width.format).isNegativeZero = true ∧
    amount = .ieee width y ∧ y.isNegativeZero = true

theorem LosesSign.isNarrow {sum amount : Scalar} (hLoses : LosesSign sum amount) :
    amount.isNarrow = true := by
  obtain ⟨x, width, y, -, hNonzero, hRounded, rfl, -⟩ := hLoses
  cases width with
  | double =>
    -- a double is not changed by a conversion to doubles
    have hSelf : x.convert Width.double.format = x :=
      Binary.convert_self (f := .double) (by decide) x
    rw [hSelf] at hRounded
    cases x with
    | nan | infinite => cases hRounded
    | finite negative m q hCanonical =>
      exact absurd (Bool.and_eq_true_iff.1 hRounded).2 (Bool.eq_false_iff.1 hNonzero)
  | single | half => rfl

/-- A sum is a negative zero exactly if the addends are such a pair, unless the first one is a
negative zero already. -/
theorem isNegativeZero_add_iff (hX : x.IsReal) (hY : y.IsReal) (hSign : x.isNegativeZero = false)
    (hSum : combine library .add x y = .ok result) :
    result.isNegativeZero = true ↔ LosesSign x y := by
  cases x with
  | float a =>
    cases y with
    | float b =>
      have hResult : result = .float (a.add b) := (Except.ok.inj hSum).symm
      have hNo : result.isNegativeZero = false := by
        rw [hResult, Scalar.isNegativeZero, Binary.isNegativeZero_add Format.hasUnits_double]
        exact Bool.and_eq_false_imp.2 fun hA => absurd (hSign.symm.trans hA) Bool.false_ne_true
      rw [hNo]
      refine iff_of_false Bool.false_ne_true ?_
      rintro ⟨_, _, _, -, -, -, hIeee, -⟩
      cases hIeee
    | ieee width b =>
      obtain ⟨c, d, z, hA, hB, rfl, hZ⟩ := Ieee.combine_add_eq_ok hSum
      cases hA
      obtain ⟨d', hB', hD⟩ := Scalar.toWidth_ieee (le_refl width.format.minExp) b
      cases hB.symm.trans hB'
      rw [Scalar.isNegativeZero, hZ, hD, Bool.and_eq_true]
      constructor
      · rintro ⟨hRounded, hB⟩
        refine ⟨a, width, b, rfl, Bool.eq_false_iff.2 fun hZero => ?_, hRounded, rfl, hB⟩
        rw [Binary.isNegativeZero_convert_of_isZero width.hasUnits hZero] at hRounded
        exact absurd (hSign.symm.trans hRounded) Bool.false_ne_true
      · rintro ⟨_, _, _, hFloat, -, hRounded, hIeee, hB⟩
        cases hFloat
        cases hIeee
        exact ⟨hRounded, hB⟩
    | int | bool | decimal | text | nothing => exact hY.elim
  | ieee width a =>
    have hFirst {wide : Width} (hMin : wide.format.minExp ≤ width.format.minExp)
        (hWide : Ieee.combine library wide .add (.ieee width a) y = .ok result) :
        result.isNegativeZero = false := by
      obtain ⟨c, d, z, hA, -, rfl, hZ⟩ := Ieee.combine_add_eq_ok hWide
      obtain ⟨c', hA', hC⟩ := Scalar.toWidth_ieee hMin a
      cases hA.symm.trans hA'
      rw [Scalar.isNegativeZero, hZ, hC, ← Scalar.isNegativeZero, hSign, Bool.false_and]
    have hNo : result.isNegativeZero = false := by
      cases y with
      | float b => exact hFirst le_rfl hSum
      | ieee v b => exact hFirst (Width.minExp_max_le_left width v) hSum
      | int | bool | decimal | text | nothing => exact hY.elim
    rw [hNo]
    refine iff_of_false Bool.false_ne_true ?_
    rintro ⟨_, _, _, hFloat, -⟩
    cases hFloat
  | int | bool | decimal | text | nothing => exact hX.elim

/-! ### Without narrow numbers -/

theorem isNarrow_of_combineDoubles {a b : Binary .double}
    (hResult : combineDoubles library op a b = .ok result) : result.isNarrow = false := by
  obtain ⟨z, rfl⟩ := exists_of_combineDoubles hResult
  rfl

theorem isNarrow_of_combineInts {m n : Int} (hResult : combineInts op m n = .ok result) :
    result.isNarrow = false := by
  have hQuotient (hDiv : quotientOfInts m n = .ok result) : result.isNarrow = false := by
    unfold quotientOfInts at hDiv
    split at hDiv
    · cases hDiv
    · simp only at hDiv
      split at hDiv <;> cases hDiv
      rfl
  cases op with
  | add | sub | mul =>
    cases hResult
    rfl
  | div | pow => exact hQuotient hResult

theorem isNarrow_of_repeatText {room : Nat} {content : String} {count : Int}
    (hResult : repeatText room content count = .ok result) : result.isNarrow = false := by
  simp only [repeatText] at hResult
  split at hResult
  · cases hResult
  · split at hResult
    · cases hResult
      rfl
    · split at hResult
      · cases hResult
      · split at hResult <;> cases hResult
        rfl

/-- A number of a width that is not narrow is one of the widest. -/
theorem eq_double_of_role {width : Width} {a : Binary width.format}
    (hX : x.isNarrow = false) (hRole : role x = .ieee width a) : width = .double := by
  cases x with
  | ieee =>
    cases hRole
    cases width with
    | double => rfl
    | single | half => cases hX
  | int | float | decimal | text | bool | nothing => cases hRole

/-- Without numbers of the narrow widths there is no such result. -/
theorem isNarrow_of_combine (hX : x.isNarrow = false) (hY : y.isNarrow = false)
    (hResult : combine library op x y = .ok result) : result.isNarrow = false := by
  have hIeee {width : Width} (hWidth : width = .double)
      (hCombine : Ieee.combine library width op x y = .ok result) : result.isNarrow = false := by
    subst hWidth
    obtain ⟨z, rfl⟩ := Ieee.exists_of_combine hCombine
    rfl
  have hDecimal {outcome : Except Decimal.Signal Decimal}
      (hOutcome : Decimal.outcome outcome = .ok result) : result.isNarrow = false := by
    obtain ⟨z, -, rfl⟩ := Decimal.outcome_eq_ok_iff.1 hOutcome
    rfl
  unfold combine at hResult
  split at hResult
  case h_1 => exact isNarrow_of_combineInts hResult
  case h_2 => exact isNarrow_of_combineDoubles hResult
  case h_3 | h_4 =>
    obtain ⟨_, -, hDouble⟩ := bind_eq_ok_iff.1 hResult
    exact isNarrow_of_combineDoubles hDouble
  case h_5 hLeft hRight =>
    refine hIeee ?_ hResult
    rw [eq_double_of_role hX hLeft, eq_double_of_role hY hRight]
    rfl
  case h_6 hLeft _ | h_7 hLeft _ => exact hIeee (eq_double_of_role hX hLeft) hResult
  case h_8 _ hRight | h_9 _ hRight => exact hIeee (eq_double_of_role hY hRight) hResult
  case h_10 | h_11 | h_12 => exact hDecimal hResult
  case h_13 =>
    split at hResult <;> cases hResult
    rfl
  case h_14 | h_15 =>
    split at hResult
    · exact isNarrow_of_repeatText hResult
    · cases hResult
  case h_16 => cases hResult

/-- Arithmetic of values that are not of a narrow width has only such results. -/
theorem wide_simulatedBy (library : Library) :
    (arithmetic library).SimulatedBy (arithmetic library)
      fun x y => x = y ∧ x.isNarrow = false where
  apply := by
    rintro op x y z _ _ hApply ⟨rfl, hX⟩ ⟨rfl, hY⟩
    refine ⟨z, hApply, rfl, ?_⟩
    cases op with
    | add | sub | mul | div => exact isNarrow_of_combine hX hY hApply
    | pow =>
      obtain ⟨_, -, hRest⟩ := bind_eq_ok_iff.1 hApply
      obtain ⟨_, -, hPower⟩ := bind_eq_ok_iff.1 hRest
      obtain ⟨_, -, hPure⟩ := bind_eq_ok_iff.1 hPower
      cases hPure
      rfl
  log := by
    rintro x z _ hLog ⟨rfl, -⟩
    refine ⟨z, hLog, rfl, ?_⟩
    change log library x = .ok z at hLog
    unfold log at hLog
    split at hLog
    · obtain ⟨_, -, hPure⟩ := bind_eq_ok_iff.1 hLog
      cases hPure
      rfl
    · obtain ⟨_, -, hRest⟩ := bind_eq_ok_iff.1 hLog
      obtain ⟨_, -, hPure⟩ := bind_eq_ok_iff.1 hRest
      cases hPure
      rfl
  ofInt := by
    intro n z hInt
    obtain ⟨_, -, hPure⟩ := bind_eq_ok_iff.1 hInt
    cases hPure
    exact ⟨_, hInt, rfl, rfl⟩

end Builtin

end Autodiff
