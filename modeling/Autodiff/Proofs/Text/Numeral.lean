import Autodiff.Proofs.Text.Digits
import Mathlib.Data.List.TakeWhile

/-!
# Numerals as numbers are written

A number is written with ASCII digits, a point and a fraction if there is one, and a power of ten
with a sign if there is one. Such a text is read as a numeral as a whole.

* `Numeral.Written` are the parts of such a numeral, with `Written.chars` for its text;
* `Numeral.Written.parse?_append` reads a mantissa with anything behind it, and
  `parseExponent?_cons` a power of ten;
* `Numeral.Written.parse?_chars` says that the text is read with the coefficient and the exponent
  that its parts write.
-/

namespace Autodiff.Text.Numeral

/-- The parts of a numeral as numbers are written. -/
structure Written where
  whole : List Char
  fraction : List Char
  /-- Whether the power of ten is negative, and its digits. -/
  power : Option (Bool × List Char)
  whole_ne_nil : whole ≠ []
  whole_digits : ∀ c ∈ whole, c.isDigit = true
  fraction_digits : ∀ c ∈ fraction, c.isDigit = true
  power_digits : ∀ part ∈ power, part.2 ≠ [] ∧ ∀ c ∈ part.2, c.isDigit = true

namespace Written

variable (w : Written)

def fractionChars : List Char := if w.fraction = [] then [] else '.' :: w.fraction

def powerChars : List Char :=
  match w.power with
  | none => []
  | some (negative, run) => 'e' :: (if negative then '-' else '+') :: run

def chars : List Char := w.whole ++ (w.fractionChars ++ w.powerChars)

def coefficient : Nat := ofDigits (w.whole ++ w.fraction)

/-- The power of ten that is written out. -/
def writtenPower : Int :=
  match w.power with
  | none => 0
  | some (negative, run) => if negative then -(ofDigits run : Int) else ofDigits run

def exponent : Int := w.writtenPower - w.fraction.length

/-! ## Reading the parts -/

/-- A run of digits ends where a character that is no digit follows. -/
theorem span_digits {run rest : List Char} (hRun : ∀ c ∈ run, c.isDigit = true)
    (hRest : ∀ c ∈ rest.head?, isDigit c = false) :
    (run ++ rest).takeWhile isDigit = run ∧ (run ++ rest).dropWhile isDigit = rest := by
  have hDigits : ∀ c ∈ run, isDigit c = true := fun c hMem => isDigit_of_ascii (hRun c hMem)
  rw [List.takeWhile_append_of_pos hDigits, List.dropWhile_append_of_pos hDigits]
  cases rest with
  | nil => simp
  | cons c rest => simp [hRest c rfl]

/-- Digits end at a character that is none, and a fraction is told by its point. -/
theorem head?_fractionChars {rest : List Char} (hRest : ∀ c ∈ rest.head?, isDigit c = false) :
    ∀ c ∈ (w.fractionChars ++ rest).head?, isDigit c = false := by
  unfold fractionChars
  split
  · exact hRest
  · intro c hMem
    cases hMem
    decide

theorem splitFraction_eq {rest : List Char}
    (hRest : ∀ c ∈ rest.head?, isDigit c = false ∧ c ≠ '.') :
    splitFraction (w.fractionChars ++ rest) = (w.fraction, rest) := by
  unfold fractionChars
  split
  · next hNone =>
    rw [hNone, List.nil_append]
    unfold splitFraction
    split
    · next rest => exact absurd rfl (hRest '.' rfl).2
    · rfl
  · obtain ⟨hTake, hDrop⟩ := span_digits w.fraction_digits fun c hHead => (hRest c hHead).1
    rw [List.cons_append, splitFraction, hTake, hDrop]

/-- A mantissa with a power of ten behind it, in whatever way that is written. -/
theorem parse?_append {rest : List Char}
    (hRest : ∀ c ∈ rest.head?, isDigit c = false ∧ c ≠ '.') :
    parse? (w.whole ++ (w.fractionChars ++ rest)) = (parseExponent? rest).map fun power =>
      ⟨w.coefficient, power - w.fraction.length⟩ := by
  obtain ⟨hTake, hDrop⟩ := span_digits w.whole_digits
    (w.head?_fractionChars fun c hHead => (hRest c hHead).1)
  unfold parse?
  simp only [hTake, hDrop, w.splitFraction_eq hRest, w.whole_ne_nil, false_and, if_false]
  rfl

theorem parseExponent?_cons {mark : Char} (hMark : mark = 'e' ∨ mark = 'E') (negative : Bool)
    {run : List Char} (hRun : run ≠ []) (hDigits : ∀ c ∈ run, c.isDigit = true) :
    parseExponent? (mark :: (if negative then '-' else '+') :: run) =
      some (if negative then -(ofDigits run : Int) else ofDigits run) := by
  have hAll : run.all isDigit = true :=
    List.all_eq_true.2 fun c hMem => isDigit_of_ascii (hDigits c hMem)
  cases negative <;> simp [parseExponent?, splitSign, hMark, hRun, hAll]

theorem parseExponent?_powerChars : parseExponent? w.powerChars = some w.writtenPower := by
  unfold powerChars writtenPower
  cases hPower : w.power with
  | none => rfl
  | some part =>
    obtain ⟨hRun, hDigits⟩ := w.power_digits part hPower
    exact parseExponent?_cons (.inl rfl) part.1 hRun hDigits

theorem head?_powerChars : ∀ c ∈ w.powerChars.head?, isDigit c = false ∧ c ≠ '.' := by
  unfold powerChars
  split
  · intro c hMem
    cases hMem
  · intro c hMem
    cases hMem
    decide

/-- The text is a numeral as a whole. -/
theorem parse?_chars : parse? w.chars = some ⟨w.coefficient, w.exponent⟩ := by
  rw [chars, w.parse?_append w.head?_powerChars, w.parseExponent?_powerChars]
  rfl

end Written

end Autodiff.Text.Numeral
