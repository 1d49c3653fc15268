import Autodiff.Proofs.Decimal.ReadBack
import Autodiff.Scalar.Literal

/-!
# Literals read back

A finite number of any kind is written as one number of the expression language, with a minus sign
in front if it has one. So the text of a literal is parsed to a literal, or to the negation of one,
and a reader of the same kind finds the number that was written.

* `Scalar.Signed` relates a finite number to its sign and its magnitude; `Scalar.Signed.write_eq`
  and `Scalar.Signed.isNumeral_write` do so for its text;
* `LiteralFormat.Keeps` says which numbers a format reads back, and `LiteralFormat.read_write` that
  it does;
* `Expr.parse_literal` joins these facts.
-/

namespace Autodiff

open Syntax Text

/-! ## Signs and magnitudes -/

namespace Scalar

/-- A finite number, whether it has a minus sign, and the number without it. -/
inductive Signed : Scalar → Bool → Scalar → Prop where
  | int (n : Nat) : Signed (int n) false (int n)
  | negInt {n : Nat} (hPos : 0 < n) : Signed (int (-n)) true (int n)
  | float (negative : Bool) {m : Nat} {q : Int} (h : Format.double.Canonical m q) :
      Signed (float (.finite negative m q h)) negative (float (.finite false m q h))
  | ieee (width : Width) (negative : Bool) {m : Nat} {q : Int}
      (h : width.format.Canonical m q) :
      Signed (ieee width (.finite negative m q h)) negative (ieee width (.finite false m q h))
  | decimal (negative : Bool) (c : Nat) (e : Int) :
      Signed (decimal (.finite negative c e)) negative (decimal (.finite false c e))

theorem write_int (n : Nat) : write (int n) = natText n := by
  rw [write, intText, if_neg (by omega), Int.natAbs_natCast]

namespace Signed

variable {value magnitude : Scalar} {negative : Bool}

theorem eq_of_unsigned (h : Signed value false magnitude) : magnitude = value := by
  cases h <;> rfl

theorem write_eq (h : Signed value true magnitude) : value.write = "-" ++ magnitude.write := by
  cases h with
  | @negInt n hPos =>
    have hNegative : -(n : Int) < 0 := by omega
    have hNonneg : ¬ (n : Int) < 0 := by omega
    simp only [write, intText, if_pos hNegative, if_neg hNonneg, Int.natAbs_neg]
  | float _ h => exact Binary.text_negative h
  | ieee width _ h => exact Binary.text_negative h
  | decimal _ c e => exact Decimal.text_negative c e

theorem isNumeral_write (h : Signed value negative magnitude) : IsNumeral magnitude.write := by
  cases h with
  | int n | negInt =>
    rw [write_int]
    exact isNumeral_natText _
  | float _ h => exact Binary.isNumeral_text h
  | ieee width _ h => exact Binary.isNumeral_text h
  | decimal _ c e => exact Decimal.isNumeral_text c e

end Signed

end Scalar

/-! ## Reading -/

namespace LiteralFormat

/-- The number is read back by the format: any integer, any builtin number, and any decimal number
with an exponent that a decimal number can have. -/
def Keeps : LiteralFormat → Scalar → Prop
  | int, .int _ => True
  | float, .float _ => True
  | decimal, .decimal (.finite _ c e) => Decimal.withinLimits c e = true
  | _, _ => False

/-- The digits of a number are read as the number. -/
theorem read_int_text (n : Nat) : int.read (natText n) = .ok (.int n) := by
  have hWord := Lexeme.digits_mem_number n
  have hTrim : trim isBlank (digits n) = digits n :=
    trim_eq_self (Lexeme.isBlank_of_mem_number hWord)
  have hRun : ¬ (digits n = [] ∨ ¬ (digits n).all isDigit) := by
    rw [not_or, not_not]
    exact ⟨Nat.toDigits_ne_nil,
      List.all_eq_true.2 fun c hMem => isDigit_of_ascii (isDigit_of_mem_digits hMem)⟩
  simp only [read, readInt, natText, String.toList_ofList, hTrim,
    Lexeme.splitSign_of_mem_number hWord, if_neg hRun, ofDigits_digits]
  rfl

theorem read_float_eq_ok_iff {numeral : String} {value : Scalar} :
    float.read numeral = .ok value ↔
      ∃ x, Binary.parse? .double numeral = some x ∧ .float x = value := by
  rw [read, map_eq_ok_iff]
  simp only [Scalar.toDouble]
  split
  · next x hRead => simp [hRead]
  · next hNone => simp [hNone]

theorem read_float_text {m : Nat} {q : Int} (h : Format.double.Canonical m q) :
    float.read (Binary.finite false m q h).text = .ok (.float (.finite false m q h)) :=
  read_float_eq_ok_iff.2
    ⟨_, Binary.parse?_text Format.hasUnits_double Format.told_double h, rfl⟩

theorem read_decimal_text {c : Nat} {e : Int} (hLimits : Decimal.withinLimits c e = true) :
    decimal.read (Decimal.finite false c e).text = .ok (.decimal (.finite false c e)) := by
  rw [read, Scalar.toDecimal, Decimal.parse_text hLimits]
  rfl

/-- A format finds the magnitude in the text of a number that it keeps. -/
theorem read_write {format : LiteralFormat} {value magnitude : Scalar} {negative : Bool}
    (hKeeps : format.Keeps value) (hSigned : value.Signed negative magnitude) :
    format.read magnitude.write = .ok magnitude := by
  cases hSigned with
  | int n | @negInt n =>
    cases format with
    | int => rw [Scalar.write_int, read_int_text]
    | float | ieee | decimal | text => exact hKeeps.elim
  | float negative h =>
    cases format with
    | float => exact read_float_text h
    | ieee | decimal | int | text => exact hKeeps.elim
  | ieee width negative h => cases format <;> exact hKeeps.elim
  | decimal negative c e =>
    cases format with
    | decimal => exact read_decimal_text hKeeps
    | float | ieee | int | text => exact hKeeps.elim

end LiteralFormat

namespace Expr

/-- The text of the literal of a finite number is one number token, behind a minus sign if the
number has one, and a reader of the kind of the number finds the number again. -/
theorem parse_literal {value magnitude : Scalar} {negative : Bool}
    (hSigned : value.Signed negative magnitude) :
    ∃ source, (lit value).infixText Scalar.write = .ok source ∧
      match negative with
      | false => tokenize source = .ok [.number source] ∧
          ∀ format : LiteralFormat, format.Keeps value →
            parse ⟨.empty, format.read⟩ source = .ok (lit value)
      | true => source = "-" ++ magnitude.write ∧
          tokenize source = .ok [.symbol .minus, .number magnitude.write] ∧
          ∀ format : LiteralFormat, format.Keeps value →
            parse ⟨.empty, format.read⟩ source = .ok (neg (lit magnitude)) := by
  have hNumeral := hSigned.isNumeral_write
  have hValue {format : LiteralFormat} (hKeeps : format.Keeps value) :
      format.read magnitude.write = .ok magnitude := LiteralFormat.read_write hKeeps hSigned
  refine ⟨value.write, rfl, ?_⟩
  cases negative with
  | false =>
    obtain rfl := hSigned.eq_of_unsigned
    exact ⟨hNumeral, fun format hKeeps => (Rendered.lit hNumeral (hValue hKeeps)).parse_eq⟩
  | true =>
    have hLexes := ((lexes_iff _ _).2 hNumeral).symbol .minus (by decide)
    rw [hSigned.write_eq]
    refine ⟨rfl, (lexes_iff _ _).1 ?_,
      fun format hKeeps => (Rendered.negative hNumeral (hValue hKeeps)).parse_eq⟩
    simpa [Symbol.text] using hLexes

/-- A negative zero with places behind the point, written with a power of ten. -/
theorem parse_literal_zero :
    tokenize "-0E-10" = .ok [.symbol .minus, .number "0E-10"] ∧
    parse ⟨.empty, LiteralFormat.decimal.read⟩ "-0E-10" =
      .ok (neg (lit (.decimal (.finite false 0 (-10))))) := by
  obtain ⟨source, -, hSource, hTokens, hParse⟩ := parse_literal (.decimal true 0 (-10))
  have hWritten : Scalar.write (.decimal (.finite false 0 (-10))) = "0E-10" := by rfl
  rw [hWritten] at hSource hTokens
  subst hSource
  have hLimits : Decimal.withinLimits 0 (-10) = true := by decide
  exact ⟨hTokens, hParse .decimal hLimits⟩

end Expr

end Autodiff
