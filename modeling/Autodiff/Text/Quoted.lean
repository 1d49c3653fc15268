import Autodiff.Text.Printable

/-!
# Quoted text

A text between quotes. Single quotes are used unless the text holds one and holds no
double quote. The backslash and the chosen quote are escaped by a backslash, line feed,
carriage return and tab have letters of their own, and any other character that is not
printable is written by its code point in two, four or eight hexadecimal digits.

* `Quoted.exists_body` says that quoted text begins and ends with the chosen quote.
-/

namespace Autodiff.Text.Quoted

/-- The quote that surrounds a text. -/
def quoteOf (chars : List Char) : Char :=
  if chars.contains '\'' && !chars.contains '"' then '"' else '\''

/-- The code point in lower-case hexadecimal digits, padded with zeros to a width. -/
def hexadecimal (width n : Nat) : List Char :=
  let digits := Nat.toDigits 16 n
  List.replicate (width - digits.length) '0' ++ digits

/-- A code point that is not shown as it is. -/
def escapeCode (n : Nat) : List Char :=
  if n < 0x100 then '\\' :: 'x' :: hexadecimal 2 n
  else if n < 0x10000 then '\\' :: 'u' :: hexadecimal 4 n
  else '\\' :: 'U' :: hexadecimal 8 n

/-- A character as it stands between two quotes. -/
def encodeChar (quote c : Char) : List Char :=
  if c = quote ∨ c = '\\' then ['\\', c]
  else if c = '\n' then ['\\', 'n']
  else if c = '\r' then ['\\', 'r']
  else if c = '\t' then ['\\', 't']
  else if isPrintable c then [c]
  else escapeCode c.toNat

/-- The characters between the quotes. -/
def body (quote : Char) (chars : List Char) : List Char := chars.flatMap (encodeChar quote)

def encode (text : String) : String :=
  let quote := quoteOf text.toList
  String.ofList (quote :: body quote text.toList ++ [quote])

theorem exists_body (text : String) :
    ∃ inner, encode text = String.ofList (quoteOf text.toList :: inner ++ [quoteOf text.toList]) :=
  ⟨body (quoteOf text.toList) text.toList, rfl⟩

end Autodiff.Text.Quoted
