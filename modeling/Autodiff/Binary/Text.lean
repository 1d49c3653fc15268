import Autodiff.Binary.Shortest
import Autodiff.Text.Blank

/-!
# Binary numbers as text

A number is written with the shortest digits that read back, positionally unless its
exact value is very large or very small; `defaultLayout` holds the decisions. It can also
be written with a fixed number of places, which rounds its exact value. Reading rounds
the exact decimal value once.

* `Binary.text` writes with the shortest digits;
* `Binary.fixedText` writes with a fixed number of places;
* `Binary.ofDecimal` reads a decimal number, `Binary.parse?` a text.
-/

namespace Autodiff.Binary

variable {f : Format}

open Text

/-! ## Shortest digits -/

/-- How the digits of a number are laid out. -/
structure Layout where
  /-- Values from this power of ten on are written positionally. -/
  positionalFrom : Int
  /-- Values from this power of ten on are written with a power of ten. -/
  scientificFrom : Int
  /-- The least number of digits of a power of ten. -/
  exponentWidth : Nat

/-- Numbers from `0.0001` up to below `10 ^ 16` are positional; the power of ten has a
sign and at least two digits. -/
def defaultLayout : Layout := ⟨-4, 16, 2⟩

/-- Digits with a point after the first `whole` of them, filled with zeros on both
sides; at least one digit stands on either side of the point. -/
def positional (ds : List Char) (whole : Int) : List Char :=
  if whole ≤ 0 then '0' :: '.' :: zeros (-whole).toNat ++ ds
  else
    let count := whole.toNat
    let fraction := ds.drop count
    ds.take count ++ zeros (count - ds.length) ++
      '.' :: (if fraction = [] then ['0'] else fraction)

/-- Digits with a point after the first of them, if there are more, and a power of
ten. -/
def scientific (layout : Layout) (ds : List Char) (exponent : Int) : List Char :=
  let power := digits exponent.natAbs
  let point := match ds.tail with
    | [] => []
    | rest => '.' :: rest
  ds.take 1 ++ point ++ 'e' :: (if exponent < 0 then '-' else '+') ::
    zeros (layout.exponentWidth - power.length) ++ power

/-- Whether a value is written positionally. The exact value decides and not its digits:
the single nearest to `0.0001` is below it, and so it is written `1e-04`. -/
def Layout.isPositional (layout : Layout) (value : Ratio) : Bool :=
  (Ratio.ofDecimal 1 layout.positionalFrom).le value &&
    value.lt (Ratio.ofDecimal 1 layout.scientificFrom)

/-- The digits of a value and the exponent of the leading one, laid out. -/
def layOut (layout : Layout) (value : Ratio) (ds : List Char) (leading : Int) : List Char :=
  if layout.isPositional value then positional ds (leading + 1)
  else scientific layout ds leading

def signText (negative : Bool) : List Char := if negative then ['-'] else []

/-- The characters of a number, with the shortest digits that read back. -/
def chars : Binary f → List Char
  | nan => ['n', 'a', 'n']
  | infinite negative => signText negative ++ ['i', 'n', 'f']
  | finite negative m q _ =>
    if m = 0 then signText negative ++ ['0', '.', '0']
    else
      let (c, e) := shortest f m q
      let ds := digits c
      signText negative ++
        layOut defaultLayout (Ratio.ofBinary m q) ds (e + ds.length - 1)

/-- A number as text, with the shortest digits that read back. -/
def text (x : Binary f) : String := String.ofList x.chars

/-! ## Fixed places -/

/-- A number with a fixed number of places: its exact value, rounded with halves to
even. A negative number keeps its sign even where only zeros are left. -/
def fixedText (places : Nat) : Binary f → String
  | nan => "nan"
  | infinite negative => String.ofList (signText negative ++ ['i', 'n', 'f'])
  | finite negative m q _ =>
    let r := Ratio.ofBinary m q
    let ds := digits (halfEven (r.num * Nat.pow 10 places) r.den)
    let padded := zeros (places + 1 - ds.length) ++ ds
    String.ofList (signText negative ++
      padded.take (padded.length - places) ++ '.' :: padded.drop (padded.length - places))

/-! ## Reading -/

/-- The number of the format nearest to `c * 10 ^ e`. Powers of ten that are certainly
beyond the largest number, or below half of the smallest, are not computed. -/
def ofDecimal (f : Format) (negative : Bool) (c : Nat) (e : Int) : Binary f :=
  if c = 0 then zero f negative
  else
    let leading := e + digitCount c - 1
    if f.maxExp + f.precision < 3 * leading then infinite negative
    else if 3 * (leading + 1) < f.minExp - 1 then zero f negative
    else ofQuotient f negative (c * Nat.pow 10 e.toNat) (Nat.pow 10 (-e).toNat) 0

/-- A numeral without a sign, or one of the words for infinity and not-a-number. -/
def parseUnsigned? (f : Format) (negative : Bool) (run : List Char) : Option (Binary f) :=
  match Numeral.parse? run with
  | some numeral => some (ofDecimal f negative numeral.coefficient numeral.exponent)
  | none =>
    let word := String.ofList (lowerCase run)
    if word = "inf" ∨ word = "infinity" then some (infinite negative)
    else if word = "nan" then some nan
    else none

/-- Take out low lines between digits; elsewhere they are refused. -/
def joinDigits? (previous : Option Char) : List Char → Option (List Char)
  | [] => if previous = some '_' then none else some []
  | c :: rest =>
    let afterDigit := previous.any isDigit
    if c = '_' then
      if afterDigit then joinDigits? (some c) rest else none
    else if previous = some '_' ∧ !isDigit c then none
    else (joinDigits? (some c) rest).map (c :: ·)

/-- The white space that may surround a number. The four information separators are
white space elsewhere, and not here. -/
def isPadding (c : Char) : Bool := isBlank c && !(0x1c ≤ c.toNat && c.toNat ≤ 0x1f)

/-- Read a number: a numeral or a word for infinity or not-a-number, with an optional
sign and white space around it; low lines may stand between digits. -/
def parse? (f : Format) (source : String) : Option (Binary f) := do
  let joined ← joinDigits? none (trim isPadding source.toList)
  let (negative, run) := splitSign joined
  parseUnsigned? f negative run

end Autodiff.Binary
