import Autodiff.Binary.Basic
import Autodiff.Text.Numeral

/-!
# Decimal numbers

A finite decimal number is a signed coefficient times a power of ten. Trailing zeros of
the coefficient are part of the number: `1.50` and `1.5` are different numbers with the
same value. There are signed infinities, and not-a-numbers, quiet or signaling, that may
carry a number as payload.

* `Decimal.ofInt` and `Decimal.ofBinary` convert exactly, `Decimal.toBinary?` rounds.
-/

namespace Autodiff

/-- A decimal floating point number of any length. -/
inductive Decimal where
  /-- The number `coefficient * 10 ^ exponent`, negated if the sign is set. -/
  | finite (negative : Bool) (coefficient : Nat) (exponent : Int)
  | infinite (negative : Bool)
  /-- Not a number; a payload of zero is no payload. -/
  | nan (negative signaling : Bool) (payload : Nat)
  deriving DecidableEq

namespace Decimal

/-! ## Conversions -/

def ofInt (n : Int) : Decimal := finite (n < 0) n.natAbs 0

/-- Cancel common factors of two of a numerator and a power of two. -/
def cancelTwos : Nat → Nat → Nat × Nat
  | m, 0 => (m, 0)
  | m, k + 1 => if m % 2 = 0 then cancelTwos (m / 2) k else (m, k + 1)

/-- The decimal number with the exact value of a binary number, with the exponent 0 for
an integer and as few places as the value needs otherwise. -/
def ofBinary {f : Format} : Binary f → Decimal
  | .nan => nan false false 0
  | .infinite negative => infinite negative
  | .finite negative m q _ =>
    if m = 0 then finite negative 0 0
    else if 0 ≤ q then finite negative (m * Nat.pow 2 q.toNat) 0
    else
      let (n, k) := cancelTwos m (-q).toNat
      finite negative (n * Nat.pow 5 k) (-(k : Int))

/-! ## Parts -/

def isZero : Decimal → Bool
  | finite _ coefficient _ => coefficient == 0
  | _ => false

def isNegative : Decimal → Bool
  | finite negative _ _ => negative
  | infinite negative => negative
  | nan negative _ _ => negative

def negate : Decimal → Decimal
  | finite negative coefficient exponent => finite (!negative) coefficient exponent
  | infinite negative => infinite (!negative)
  | nan negative signaling payload => nan (!negative) signaling payload

/-- The exponent of the leading digit of a coefficient with an exponent. -/
def adjusted (coefficient : Nat) (exponent : Int) : Int :=
  exponent + Text.digitCount coefficient - 1

/-- Whether a coefficient with an exponent is an integer. -/
def isIntegral (coefficient : Nat) (exponent : Int) : Bool :=
  coefficient == 0 || 0 ≤ exponent ||
    ((-exponent).toNat < Text.digitCount coefficient && coefficient % Nat.pow 10 (-exponent).toNat == 0)

/-- The integer of a coefficient with an exponent; places are cut off. -/
def truncate (coefficient : Nat) (exponent : Int) : Nat :=
  if 0 ≤ exponent then coefficient * Nat.pow 10 exponent.toNat
  else if Text.digitCount coefficient ≤ (-exponent).toNat then 0
  else coefficient / Nat.pow 10 (-exponent).toNat

/-- Whether a coefficient with an exponent is an odd integer. -/
def isOdd (coefficient : Nat) (exponent : Int) : Bool :=
  isIntegral coefficient exponent && if 0 < exponent then false
    else truncate coefficient exponent % 2 == 1

end Decimal

end Autodiff
