import Autodiff.Proofs.Syntax.RoundTrip
import Autodiff.Proofs.Text.Numeral

/-!
# The texts of numbers

A word of the language of numbers is one token, and nothing in it is white space, a low line or a
leading sign. So it is left as it is by all that is done to a text before a number is read from it,
and what the number is depends on `Numeral.parse?` only.

* `Lexeme.class_of_mem_number` says what characters the words have, with its consequences for
  `trim` and `splitSign`;
* `Denotes` are the words together with the numeral they are read as, and `Written.denotes` and
  `Written.denotes_marked` say which one it is.
-/

namespace Autodiff

open Text Text.Numeral

namespace Text

theorem trim_eq_self {drop : Char → Bool} {chars : List Char}
    (hKept : ∀ c ∈ chars, drop c = false) : trim drop chars = chars := by
  have hWhile {run : List Char} (hRun : ∀ c ∈ run, drop c = false) : run.dropWhile drop = run := by
    cases run with
    | nil => rfl
    | cons c rest => exact List.dropWhile_cons_of_neg (by simp [hRun c List.mem_cons_self])
  rw [trim, hWhile hKept, hWhile fun c hMem => hKept c (List.mem_reverse.1 hMem),
    List.reverse_reverse]

theorem splitSign_cons {c : Char} (hMinus : c ≠ '-') (hPlus : c ≠ '+') (rest : List Char) :
    splitSign (c :: rest) = (false, c :: rest) := by
  unfold splitSign
  split
  · next hEq => exact absurd (List.cons.inj hEq).1 hMinus
  · next hEq => exact absurd (List.cons.inj hEq).1 hPlus
  · rfl

end Text

namespace Syntax

section

variable {word : List Char}

/-! ## The words of numbers -/

namespace Lexeme

theorem class_of_mem_number (hWord : word ∈ number) :
    ∀ c ∈ word, isDigit c = true ∨ c = '.' ∨ isMark c = true ∨ isSign c = true := by
  obtain ⟨front, hFront, back, hBack, rfl⟩ := Language.mem_mul.1 hWord
  intro c hMem
  rcases List.mem_append.1 hMem with hMem | hMem
  · exact (digit_or_point_of_mem_mantissa hFront c hMem).imp id .inl
  · rcases mem_option.1 hBack with rfl | hPower
    · cases hMem
    · obtain ⟨mark, sign, run, hMark, hSign, hRun, rfl⟩ := mem_power.1 hPower
      rcases List.mem_cons.1 hMem with rfl | hMem
      · exact .inr (.inr (.inl hMark))
      · rcases List.mem_append.1 hMem with hMem | hMem
        · rcases mem_option.1 hSign with rfl | ⟨d, hClass, rfl⟩
          · cases hMem
          · obtain rfl := List.mem_singleton.1 hMem
            exact .inr (.inr (.inr hClass))
        · exact .inl ((mem_run.1 hRun).2 c hMem)

theorem isBlank_of_mem_number (hWord : word ∈ number) : ∀ c ∈ word, isBlank c = false := by
  intro c hMem
  refine Bool.eq_false_iff.2 fun hBlank => ?_
  rcases class_of_mem_number hWord c hMem with hDigit | rfl | hMark | hSign
  · exact absurd hDigit (by simp [isDigit_of_isBlank hBlank])
  · exact absurd hBlank (by decide)
  · rcases isMark_iff.1 hMark with rfl | rfl <;> exact absurd hBlank (by decide)
  · rcases isSign_iff.1 hSign with rfl | rfl <;> exact absurd hBlank (by decide)

theorem lowLine_notMem_of_mem_number (hWord : word ∈ number) : '_' ∉ word := by
  intro hMem
  rcases class_of_mem_number hWord '_' hMem with hClass | hClass | hClass | hClass <;>
    exact absurd hClass (by decide)

/-- A number has no sign, except in its power of ten. -/
theorem splitSign_of_mem_number (hWord : word ∈ number) : splitSign word = (false, word) := by
  obtain ⟨c, rest, rfl, hFirst⟩ := begins_of_mem_number hWord
  refine splitSign_cons ?_ ?_ _ <;>
  · rintro rfl
    rcases hFirst with hDigit | hPoint <;> contradiction

end Lexeme

end

/-! ## Words and their numerals -/

/-- The word is a number of the expression language, and it is read as the numeral. -/
structure Denotes (word : List Char) (numeral : Numeral) : Prop where
  mem_number : word ∈ Lexeme.number
  parse : Numeral.parse? word = some numeral

theorem Denotes.isNumeral {word : List Char} {numeral : Numeral} (h : Denotes word numeral) :
    IsNumeral (String.ofList word) :=
  isNumeral_of_mem_number h.mem_number

end Syntax

open Syntax

namespace Text.Numeral.Written

variable (w : Written)

theorem mem_number {rest : List Char} (hRest : rest = [] ∨ rest ∈ Lexeme.power) :
    w.whole ++ (w.fractionChars ++ rest) ∈ Lexeme.number := by
  have hWhole : w.whole ∈ Lexeme.run isDigit :=
    Lexeme.mem_run.2 ⟨w.whole_ne_nil, fun c hMem => isDigit_of_ascii (w.whole_digits c hMem)⟩
  have hMantissa : w.whole ++ w.fractionChars ∈ Lexeme.mantissa := by
    refine Lexeme.mem_mantissa.2 (.inl ⟨w.whole, hWhole, ?_⟩)
    unfold fractionChars
    split
    · exact .inl (List.append_nil _)
    · exact .inr ⟨w.fraction, fun c hMem => isDigit_of_ascii (w.fraction_digits c hMem), rfl⟩
  rw [← List.append_assoc]
  exact Language.mem_mul.2 ⟨_, hMantissa, rest, Lexeme.mem_option.2 hRest, rfl⟩

theorem mem_power {mark : Char} (hMark : mark = 'e' ∨ mark = 'E') (negative : Bool)
    {run : List Char} (hRun : run ≠ []) (hDigits : ∀ c ∈ run, c.isDigit = true) :
    mark :: (if negative then '-' else '+') :: run ∈ Lexeme.power := by
  refine Lexeme.mem_power.2 ⟨mark, [if negative then '-' else '+'], run, ?_, ?_, ?_, rfl⟩
  · exact Lexeme.isMark_iff.2 hMark
  · exact Lexeme.mem_option.2 (.inr ⟨_, by cases negative <;> rfl, rfl⟩)
  · exact Lexeme.mem_run.2 ⟨hRun, fun c hMem => isDigit_of_ascii (hDigits c hMem)⟩

theorem denotes : Denotes w.chars ⟨w.coefficient, w.exponent⟩ := by
  refine ⟨w.mem_number ?_, w.parse?_chars⟩
  unfold powerChars
  cases hPower : w.power with
  | none => exact .inl rfl
  | some part =>
    obtain ⟨hRun, hDigits⟩ := w.power_digits part hPower
    exact .inr (mem_power (.inl rfl) part.1 hRun hDigits)

/-- A mantissa with a power of ten under either mark. -/
theorem denotes_marked {mark : Char} (hMark : mark = 'e' ∨ mark = 'E') (negative : Bool)
    {run : List Char} (hRun : run ≠ []) (hDigits : ∀ c ∈ run, c.isDigit = true) :
    Denotes (w.whole ++ (w.fractionChars ++ mark :: (if negative then '-' else '+') :: run))
      ⟨w.coefficient,
        (if negative then -(ofDigits run : Int) else ofDigits run) - w.fraction.length⟩ := by
  refine ⟨w.mem_number (.inr (mem_power hMark negative hRun hDigits)), ?_⟩
  rw [w.parse?_append, parseExponent?_cons hMark negative hRun hDigits, Option.map_some]
  intro c hHead
  cases hHead
  rcases hMark with rfl | rfl <;> decide

end Text.Numeral.Written

end Autodiff
