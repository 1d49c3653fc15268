import Autodiff.Proofs.Binary.Shortest

/-!
# Numbers with a fixed number of places

A number that is written with a fixed number of places is rounded once, from its exact value, to a
whole number of units of the last place. The text is made of the digits of that whole number, with
the point in front of the last ones.

* `NearestEven` is what rounding to a whole number means, and `nearestEven_halfEven` that quotients
  are rounded so;
* `Binary.ShownTo` says what a text with a fixed number of places shows, without the computation,
  `Binary.shownTo_fixedText` that this is what is written, and `Binary.ShownTo.mem` which characters
  it has.
-/

namespace Autodiff

open Text

/-! ## Whole numbers -/

/-- A whole number is nearest to a number, and even if another one is as near. -/
structure NearestEven (x : ℚ) (n : Nat) : Prop where
  abs_sub_le : |(n : ℚ) - x| ≤ 1 / 2
  even : |(n : ℚ) - x| = 1 / 2 → n % 2 = 0

theorem nearestEven_halfEven (n : Nat) {d : Nat} (hPos : 0 < d) :
    NearestEven (n / d) (halfEven n d) where
  abs_sub_le := abs_halfEven_sub_le n hPos
  even := by
    intro hHalf
    have hPosCast : (0 : ℚ) < d := by exact_mod_cast hPos
    have hQuotient : (n / d * d : ℚ) = n := div_mul_cancel₀ _ hPosCast.ne'
    refine (halfEven_near n hPos).2.2 ?_
    rcases (abs_eq (by norm_num)).1 hHalf with hAbove | hBelow
    · refine .inl ?_
      have hCast : (2 * (halfEven n d * d) : ℚ) = 2 * n + d := by
        rw [← hQuotient, sub_eq_iff_eq_add.1 hAbove]
        ring
      exact_mod_cast hCast
    · refine .inr ?_
      have hCast : (2 * n : ℚ) = 2 * (halfEven n d * d) + d := by
        rw [← hQuotient, sub_eq_iff_eq_add.1 hBelow]
        ring
      exact_mod_cast hCast

namespace Binary

variable {f : Format}

/-! ## Texts -/

/-- A text that shows a number to a number of places: a word if it is not finite, and else the
nearest multiple of a unit of the last place, with a sign and a point. -/
inductive ShownTo (places : Nat) : Binary f → String → Prop
  | nan : ShownTo places nan "nan"
  | infinite (negative : Bool) :
      ShownTo places (infinite negative) (String.ofList (signText negative) ++ "inf")
  | finite {negative : Bool} {m : Nat} {q : Int} {valid : f.Canonical m q} {units : Nat}
      {fraction : List Char} (hUnits : NearestEven (m * 2 ^ q * 10 ^ places) units)
      (hPlaces : fraction.length = places) (hDigits : ∀ c ∈ fraction, c.isDigit = true)
      (hFraction : ofDigits fraction = units % 10 ^ places) :
      ShownTo places (finite negative m q valid)
        (String.ofList (signText negative) ++ natText (units / 10 ^ places) ++ "." ++
          String.ofList fraction)

/-- The point stands in front of the last digits. -/
theorem fixedText_finite {negative : Bool} {m units places : Nat} {q : Int}
    (valid : f.Canonical m q) {whole fraction : List Char}
    (hUnits : halfEven ((Ratio.ofBinary m q).num * Nat.pow 10 places) (Ratio.ofBinary m q).den =
      units)
    (hSplit : zeros (places + 1 - digitCount units) ++ digits units = whole ++ fraction)
    (hPlaces : fraction.length = places) :
    (finite negative m q valid).fixedText places =
      String.ofList (signText negative) ++ String.ofList whole ++ "." ++
        String.ofList fraction := by
  have hWhole : (whole ++ fraction).length - places = whole.length := by
    rw [List.length_append, hPlaces, Nat.add_sub_cancel]
  rw [digitCount] at hSplit
  simp only [fixedText, hUnits, hSplit, hWhole, List.take_left, List.drop_left]
  simp [← String.toList_inj]

/-- What is written with a number of places shows the number. -/
theorem shownTo_fixedText (places : Nat) (x : Binary f) :
    ShownTo places x (x.fixedText places) := by
  cases x with
  | nan => exact .nan
  | infinite negative =>
    rw [fixedText, String.ofList_append]
    exact .infinite negative
  | finite negative m q valid =>
    obtain ⟨units, hUnits⟩ : ∃ units,
        halfEven ((Ratio.ofBinary m q).num * Nat.pow 10 places) (Ratio.ofBinary m q).den = units :=
      ⟨_, rfl⟩
    have hNearest : NearestEven (m * 2 ^ q * 10 ^ places) units := by
      have hNear := nearestEven_halfEven ((Ratio.ofBinary m q).num * Nat.pow 10 places)
        (Ratio.den_ofBinary_pos m q)
      rwa [hUnits, Nat.cast_mul, ← div_mul_eq_mul_div, ← Ratio.value, Ratio.value_ofBinary,
        Nat.pow_eq, Nat.cast_pow, Nat.cast_ofNat] at hNear
    obtain ⟨fraction, hSplit, hPlaces⟩ := exists_digits_div_pow units places
    have hDigits : ∀ c ∈ fraction, c.isDigit = true := by
      intro c hMem
      have hMem := List.mem_append_right (digits (units / 10 ^ places)) hMem
      rw [← hSplit] at hMem
      exact (List.mem_append.1 hMem).elim isDigit_of_mem_zeros isDigit_of_mem_digits
    have hFraction : ofDigits fraction = units % 10 ^ places := by
      have hValue := congrArg ofDigits hSplit
      rw [ofDigits_append, ofDigits_append, ofDigits_zeros, ofDigits_digits, ofDigits_digits,
        hPlaces, Nat.mul_zero, Nat.zero_add] at hValue
      have hDivMod := Nat.div_add_mod units (10 ^ places)
      omega
    rw [fixedText_finite valid hUnits hSplit hPlaces]
    exact .finite hNearest hPlaces hDigits hFraction

/-- The characters of such a text: digits, a sign and a point, or the letters of a word. -/
theorem ShownTo.mem {places : Nat} {x : Binary f} {text : String} (h : ShownTo places x text)
    {c : Char} (hMem : c ∈ text.toList) :
    c.isDigit = true ∨ c ∈ ['-', '.', 'n', 'a', 'i', 'f'] := by
  have hSign (negative : Bool) (hMem : c ∈ signText negative) : c = '-' := by
    cases negative <;> simp_all [signText]
  cases h with
  | nan =>
    have hNan : c = 'n' ∨ c = 'a' ∨ c = 'n' := by simpa using hMem
    rcases hNan with rfl | rfl | rfl <;> simp
  | infinite negative =>
    rw [String.toList_append, String.toList_ofList, List.mem_append] at hMem
    rcases hMem with hMinus | hInf
    · simp [hSign negative hMinus]
    · have hInf : c = 'i' ∨ c = 'n' ∨ c = 'f' := by simpa using hInf
      rcases hInf with rfl | rfl | rfl <;> simp
  | @finite negative _ _ _ _ fraction _ _ hDigits _ =>
    simp only [String.toList_append, String.toList_ofList, natText, List.mem_append] at hMem
    rcases hMem with ((hMinus | hWhole) | hPoint) | hFraction
    · simp [hSign negative hMinus]
    · exact .inl (isDigit_of_mem_digits hWhole)
    · have hPoint : c = '.' := by simpa using hPoint
      simp [hPoint]
    · exact .inl (hDigits c hFraction)

/-- Halfway between two numbers with four places, the even one of them is shown. -/
example : (ofDecimal .double false 3125 (-5)).fixedText 4 = "0.0312" := by rfl

end Binary

end Autodiff
