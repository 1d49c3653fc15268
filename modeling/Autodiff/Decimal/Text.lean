import Autodiff.Decimal.Basic
import Autodiff.Binary.Text
import Autodiff.Text.Blank

/-!
# Decimal numbers as text

A decimal number is written so that its coefficient and its exponent can be read off:
positionally if it has no positive exponent and no more than five zeros after the point,
and with a power of ten otherwise. Reading is exact.

* `Decimal.text` writes a number;
* `Decimal.parse?` reads one, within the limits of `Decimal.withinLimits`.
-/

namespace Autodiff.Decimal

open Text

/-! ## Writing -/

def layOut (ds : List Char) (exponent : Int) : List Char :=
  let leading := exponent + ds.length - 1
  if exponent ≤ 0 ∧ -6 ≤ leading then
    if exponent = 0 then ds
    else if 0 ≤ leading then
      ds.take (leading + 1).toNat ++ '.' :: ds.drop (leading + 1).toNat
    else '0' :: '.' :: zeros (-leading - 1).toNat ++ ds
  else
    let point := match ds.tail with
      | [] => []
      | rest => '.' :: rest
    ds.take 1 ++ point ++ 'E' :: (if leading < 0 then '-' else '+') :: digits leading.natAbs

def chars : Decimal → List Char
  | finite negative coefficient exponent =>
    Binary.signText negative ++ layOut (digits coefficient) exponent
  | infinite negative => Binary.signText negative ++ "Infinity".toList
  | nan negative signaling payload =>
    Binary.signText negative ++ (if signaling then ['s'] else []) ++ "NaN".toList ++
      (if payload = 0 then [] else digits payload)

def text (x : Decimal) : String := String.ofList x.chars

/-! ## Reading -/

/-- Why a text is no decimal number. -/
inductive ReadError where
  | malformed
  /-- The exponent is beyond every number. -/
  | outOfRange
  deriving DecidableEq

/-- The largest exponent of a leading digit. -/
def largestLeading : Int := 999999999999999999

/-- The smallest exponent of a last digit. -/
def smallestLast : Int := -1999999999999999997

/-- Whether a coefficient with an exponent can be held exactly. -/
def withinLimits (coefficient : Nat) (exponent : Int) : Bool :=
  adjusted coefficient exponent ≤ largestLeading && smallestLast ≤ exponent

/-- Not-a-number with the payload written after it. -/
def parsePayload (negative signaling : Bool) (run : List Char) : Except ReadError Decimal :=
  if run.all isDigit then .ok (nan negative signaling (ofDigits run)) else .error .malformed

/-- A number without its sign. -/
def parseUnsigned (negative : Bool) (run : List Char) : Except ReadError Decimal :=
  match Numeral.parse? run with
  | some numeral =>
    if withinLimits numeral.coefficient numeral.exponent then
      .ok (finite negative numeral.coefficient numeral.exponent)
    else .error .outOfRange
  | none =>
    match lowerCase run with
    | 'n' :: 'a' :: 'n' :: payload => parsePayload negative false payload
    | 's' :: 'n' :: 'a' :: 'n' :: payload => parsePayload negative true payload
    | word =>
      if word = "inf".toList ∨ word = "infinity".toList then .ok (infinite negative)
      else .error .malformed

/-- Read a number: white space around it and low lines anywhere in it are dropped. -/
def parse (source : String) : Except ReadError Decimal :=
  let kept := (trim isBlank source.toList).filter (· ≠ '_')
  let (negative, run) := splitSign kept
  parseUnsigned negative run

/-! ## Conversion to binary -/

/-- The nearest number of a binary format; a signaling not-a-number has none. -/
def toBinary? (f : Format) : Decimal → Option (Binary f)
  | finite negative coefficient exponent =>
    some (Binary.ofDecimal f negative coefficient exponent)
  | infinite negative => some (.infinite negative)
  | nan _ signaling _ => if signaling then none else some .nan

end Autodiff.Decimal
