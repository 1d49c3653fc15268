import Autodiff.Text.Digit

/-!
# Decimal numerals

An unsigned decimal numeral is a run of digits with at most one point, and an optional
power of ten after the letter `e`. Digits of every script count by their value.

* `Numeral.parse?` reads a numeral that fills its text; its value is
  `coefficient * 10 ^ exponent`;
* `digits`, `natText` and `intText` write a number in base ten.
-/

namespace Autodiff.Text

/-! ## Natural numbers in base ten -/

/-- The decimal digits of a number, `0` for zero. -/
def digits (n : Nat) : List Char := Nat.toDigits 10 n

/-- The number in base ten. -/
def natText (n : Nat) : String := String.ofList (digits n)

/-- The number of decimal digits of a number, one for zero. -/
def digitCount (n : Nat) : Nat := (digits n).length

/-- The number written by a run of digits. -/
def ofDigits (chars : List Char) : Nat :=
  chars.foldl (fun n c => 10 * n + (digitValue? c).getD 0) 0

/-- The integer in base ten. -/
def intText (n : Int) : String :=
  if n < 0 then "-" ++ natText n.natAbs else natText n.natAbs

def zeros (count : Nat) : List Char := List.replicate count '0'

/-! ## Numerals -/

/-- A sign at the front of a text: whether it is a minus, and the text after it. -/
def splitSign : List Char → Bool × List Char
  | '-' :: rest => (true, rest)
  | '+' :: rest => (false, rest)
  | chars => (false, chars)

/-- A power of ten at the end of a numeral; nothing stands for the power 0. -/
def parseExponent? : List Char → Option Int
  | [] => some 0
  | mark :: rest =>
    if mark = 'e' ∨ mark = 'E' then
      let (negative, run) := splitSign rest
      if run ≠ [] ∧ run.all isDigit then
        some (if negative then -(ofDigits run : Int) else ofDigits run)
      else none
    else none

/-- The decimal number `coefficient * 10 ^ exponent`. -/
structure Numeral where
  coefficient : Nat
  exponent : Int

namespace Numeral

/-- The digits after a point at the front of a text, and the text after them. -/
def splitFraction : List Char → List Char × List Char
  | '.' :: rest => (rest.takeWhile isDigit, rest.dropWhile isDigit)
  | chars => ([], chars)

/-- Read a numeral that fills the text: digits before or after the point, then an
optional power of ten. -/
def parse? (chars : List Char) : Option Numeral :=
  let whole := chars.takeWhile isDigit
  let (fraction, rest) := splitFraction (chars.dropWhile isDigit)
  if whole = [] ∧ fraction = [] then none
  else (parseExponent? rest).map fun power =>
    ⟨ofDigits (whole ++ fraction), power - fraction.length⟩

end Numeral

/-! ## Space around a text -/

/-- The text in lower-case ASCII letters. -/
def lowerCase (chars : List Char) : List Char := chars.map Char.toLower

/-- The text without the characters of a class at its ends. -/
def trim (drop : Char → Bool) (chars : List Char) : List Char :=
  ((chars.dropWhile drop).reverse.dropWhile drop).reverse

end Autodiff.Text
