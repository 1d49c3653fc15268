import Autodiff.Decimal.Text
import Autodiff.Proofs.Binary.ReadBack

/-!
# Decimal numbers read back

The text of a finite decimal number shows its coefficient and its exponent: without a power of ten
the places behind the point count the exponent, and with one the two together do. So a number that
can be held is read back from its text with the same coefficient and the same exponent, whichever
way it is written.

* `Decimal.denotes_layOut` says that the digits of a coefficient, laid out for an exponent, are a
  number of the expression language that is read as the coefficient and the exponent;
* `Decimal.isNumeral_text` and `Decimal.parse_text` are the two conclusions for the text of a
  number without a minus sign.
-/

namespace Autodiff.Decimal

open Syntax Text Text.Numeral

/-! ## Layouts -/

section

variable (c : Nat) (e : Int)

/-- Without a power of ten the digits have all their places, and no more. -/
theorem layOut_positional (hNegative : e < 0) (hLeading : -6 ≤ e + (digits c).length - 1) :
    layOut (digits c) e = Binary.positional (digits c) (e + (digits c).length) := by
  have hPositional : e ≤ 0 ∧ -6 ≤ e + (digits c).length - 1 := ⟨by omega, hLeading⟩
  simp only [layOut, Binary.positional, if_pos hPositional, if_neg hNegative.ne, sub_add_cancel]
  by_cases hWhole : e + (digits c).length ≤ 0
  · have hZeros : -(e + (digits c).length - 1) - 1 = -(e + (digits c).length) := by omega
    rw [if_pos hWhole, if_neg (by omega), hZeros]
  · have hDrop : (digits c).drop (e + (digits c).length).toNat ≠ [] :=
      fun hNil => absurd (List.drop_eq_nil_iff.1 hNil) (by omega)
    have hZeros : (e + (digits c).length).toNat - (digits c).length = 0 := by omega
    rw [if_neg hWhole, if_pos (by omega), if_neg hDrop, hZeros]
    simp [zeros]

/-- With a power of ten the first digit stands before the point. -/
theorem layOut_scientific (hScientific : ¬ (e ≤ 0 ∧ -6 ≤ e + (digits c).length - 1))
    {first : Char} {rest : List Char} (hDigits : digits c = first :: rest) :
    layOut (digits c) e = [first] ++ ((if rest = [] then [] else '.' :: rest) ++
      'E' :: (if decide (e + rest.length < 0) then '-' else '+') ::
        digits (e + rest.length).natAbs) := by
  rw [hDigits] at hScientific ⊢
  have hLeading : e + (first :: rest).length - 1 = e + rest.length := by
    rw [List.length_cons]
    push_cast
    ring
  simp only [layOut]
  rw [if_neg hScientific, hLeading]
  cases rest <;> simp

/-- The digits of a coefficient, laid out for an exponent, are read as the coefficient and the
exponent. -/
theorem denotes_layOut : Denotes (layOut (digits c) e) ⟨c, e⟩ := by
  have hDigits : ∀ d ∈ digits c, d.isDigit = true := fun _ => isDigit_of_mem_digits
  by_cases hPositional : e ≤ 0 ∧ -6 ≤ e + (digits c).length - 1
  · rcases hPositional.1.lt_or_eq with hNegative | rfl
    · obtain ⟨w, hChars, hCoefficient, hExponent⟩ := Binary.exists_written_fraction c e hNegative
      rw [layOut_positional c e hNegative hPositional.2, ← hChars]
      have hDenotes := w.denotes
      rwa [hCoefficient, hExponent] at hDenotes
    · let w : Written := ⟨digits c, [], none, Nat.toDigits_ne_nil, hDigits, by simp, by simp⟩
      have hChars : w.chars = layOut (digits c) 0 := by
        rw [layOut, if_pos hPositional, if_pos rfl]
        simp [w, Written.chars, Written.fractionChars, Written.powerChars]
      have hCoefficient : w.coefficient = c := by
        rw [Written.coefficient, List.append_nil, ofDigits_digits]
      have hDenotes := w.denotes
      rwa [hChars, hCoefficient] at hDenotes
  · obtain ⟨first, rest, hCons⟩ : ∃ first rest, digits c = first :: rest :=
      List.exists_cons_of_ne_nil Nat.toDigits_ne_nil
    rw [hCons] at hDigits
    obtain ⟨hFirst, hRest⟩ := List.forall_mem_cons.1 hDigits
    let w : Written := ⟨[first], rest, none, by simp, by simpa using hFirst, hRest, by simp⟩
    have hCoefficient : w.coefficient = c := by
      rw [Written.coefficient, List.singleton_append, ← hCons, ofDigits_digits]
    have hExponent : (if decide (e + rest.length < 0) = true then
        -(ofDigits (digits (e + rest.length).natAbs) : Int)
        else ofDigits (digits (e + rest.length).natAbs)) - rest.length = e := by
      rw [ofDigits_digits]
      by_cases hNegative : e + rest.length < 0
      · rw [if_pos (decide_eq_true hNegative)]
        omega
      · rw [if_neg (by simpa using hNegative)]
        omega
    have hPower : digits (e + rest.length).natAbs ≠ [] := Nat.toDigits_ne_nil
    have hDenotes := w.denotes_marked (.inr rfl) (decide (e + rest.length < 0)) hPower
      fun _ => isDigit_of_mem_digits
    rw [hCoefficient, hExponent] at hDenotes
    rw [layOut_scientific c e hPositional hCons]
    exact hDenotes

end

/-! ## The text of a number -/

/-- A number of the expression language is read exactly, if it can be held. -/
theorem parse_of_denotes {word : List Char} {numeral : Numeral} (h : Denotes word numeral)
    (hLimits : withinLimits numeral.coefficient numeral.exponent = true) :
    parse (String.ofList word) = .ok (finite false numeral.coefficient numeral.exponent) := by
  have hTrim : trim isBlank word = word := trim_eq_self (Lexeme.isBlank_of_mem_number h.mem_number)
  have hKept : word.filter (· ≠ '_') = word := by
    refine List.filter_eq_self.2 fun c hMem => decide_eq_true ?_
    rintro rfl
    exact Lexeme.lowLine_notMem_of_mem_number h.mem_number hMem
  simp only [parse, String.toList_ofList, hTrim, hKept,
    Lexeme.splitSign_of_mem_number h.mem_number, parseUnsigned, h.parse, hLimits, if_true]

theorem isNumeral_text (c : Nat) (e : Int) : IsNumeral (finite false c e).text :=
  (denotes_layOut c e).isNumeral

theorem text_negative (c : Nat) (e : Int) :
    (finite true c e).text = "-" ++ (finite false c e).text := by
  have hChars : (finite true c e).chars = ['-'] ++ (finite false c e).chars := rfl
  rw [text, hChars, String.ofList_append]
  rfl

/-- A number that can be held is read back with its coefficient and its exponent. -/
theorem parse_text {c : Nat} {e : Int} (hLimits : withinLimits c e = true) :
    parse (finite false c e).text = .ok (finite false c e) :=
  parse_of_denotes (denotes_layOut c e) hLimits

/-- Zeros at the end of a coefficient are kept, on either side of the point and with a power of
ten. -/
example : [(finite false 150 (-2)).text, (finite false 0 (-10)).text,
    (finite false 120 5).text] = ["1.50", "0E-10", "1.20E+7"] := by rfl

end Autodiff.Decimal
