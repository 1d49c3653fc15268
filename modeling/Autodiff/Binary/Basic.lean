import Autodiff.Rounding

/-!
# Binary floating point numbers

A format fixes the number of significant bits and the range of exponents. A number of
the format is a signed significand times a power of two, an infinity or not-a-number;
zero has two signs, and every finite number has exactly one representation, which is a
field of the type.

* `Binary.ofQuotient` rounds an exact quotient times a power of two to the format, to
  nearest with halves to even; every operation on finite numbers is this rounding of an
  exact result.
-/

namespace Autodiff

/-- The significant bits of a binary format and the exponents of its last place. -/
structure Format where
  /-- The number of significant bits. -/
  precision : Nat
  /-- The exponent of the last place of the smallest numbers. -/
  minExp : Int
  /-- The exponent of the last place of the largest numbers. -/
  maxExp : Int
  deriving DecidableEq

namespace Format

/-- The 64-bit interchange format. -/
def double : Format := ⟨53, -1074, 971⟩

/-- The 32-bit interchange format. -/
def single : Format := ⟨24, -149, 104⟩

/-- The 16-bit interchange format. -/
def half : Format := ⟨11, -24, 5⟩

/-- The significand fits, the exponent is in range, and no larger significand with a
smaller exponent would do: leading zeros occur at the smallest exponent only. -/
def Canonical (f : Format) (m : Nat) (q : Int) : Prop :=
  m < Nat.pow 2 f.precision ∧ f.minExp ≤ q ∧ q ≤ f.maxExp ∧
    (Nat.pow 2 (f.precision - 1) ≤ m ∨ q = f.minExp)

instance (f : Format) (m : Nat) (q : Int) : Decidable (f.Canonical m q) := by
  unfold Canonical
  infer_instance

end Format

/-- A number of a binary format. -/
inductive Binary (f : Format) where
  | nan
  | infinite (negative : Bool)
  /-- The number `m * 2 ^ q`, negated if the sign is set. -/
  | finite (negative : Bool) (m : Nat) (q : Int) (canonical : f.Canonical m q)
  deriving DecidableEq

namespace Binary

variable {f g : Format}

/-! ## Making numbers -/

/-- The finite number with a significand and an exponent, or infinity if the format has
none. -/
def pack (f : Format) (negative : Bool) (m : Nat) (q : Int) : Binary f :=
  if h : f.Canonical m q then finite negative m q h else infinite negative

def zero (f : Format) (negative : Bool) : Binary f := pack f negative 0 f.minExp

/-- The exponent of the leading bit of the quotient of two positive numbers. -/
def leadingExponent (num den : Nat) : Int :=
  let guess : Int := (num.log2 : Int) - den.log2
  if den * Nat.pow 2 guess.toNat ≤ num * Nat.pow 2 (-guess).toNat then guess else guess - 1

/-- The number of the format nearest to `num / den * 2 ^ e`, halves to even; beyond the
largest number it is infinite. -/
def ofQuotient (f : Format) (negative : Bool) (num den : Nat) (e : Int) : Binary f :=
  if num = 0 then zero f negative
  else
    let q := max f.minExp (e + leadingExponent num den - (f.precision - 1 : Nat))
    let m := halfEven (num * Nat.pow 2 (e - q).toNat) (den * Nat.pow 2 (q - e).toNat)
    if m = Nat.pow 2 f.precision then pack f negative (Nat.pow 2 (f.precision - 1)) (q + 1)
    else pack f negative m q

/-- The number of the format nearest to an integer times a power of two. A zero takes
the given sign. -/
def ofScaledInt (f : Format) (zeroNegative : Bool) (n : Int) (e : Int) : Binary f :=
  if n = 0 then zero f zeroNegative else ofQuotient f (n < 0) n.natAbs 1 e

/-- The number of the format nearest to an integer. -/
def ofInt (f : Format) (n : Int) : Binary f := ofScaledInt f false n 0

/-- The number of another format nearest to a number. -/
def convert (g : Format) : Binary f → Binary g
  | nan => nan
  | infinite negative => infinite negative
  | finite negative m q _ => ofQuotient g negative m 1 q

/-! ## Taking numbers apart -/

def isNaN : Binary f → Bool
  | nan => true
  | _ => false

def isFinite : Binary f → Bool
  | finite .. => true
  | _ => false

def isInfinite : Binary f → Bool
  | infinite _ => true
  | _ => false

def isZero : Binary f → Bool
  | finite _ m _ _ => m == 0
  | _ => false

def signed (negative : Bool) (m : Nat) : Int := if negative then -(m : Int) else m

/-! ## Arithmetic -/

def negate : Binary f → Binary f
  | nan => nan
  | infinite negative => infinite (!negative)
  | finite negative m q h => finite (!negative) m q h

/-- The exact sum, rounded. A sum of zero is negative only if both operands are. -/
def add : Binary f → Binary f → Binary f
  | nan, _ => nan
  | _, nan => nan
  | infinite s, infinite t => if s = t then infinite s else nan
  | infinite s, finite .. => infinite s
  | finite .., infinite t => infinite t
  | finite s m p _, finite t n q _ =>
    let e := min p q
    ofScaledInt f (s && t)
      (signed s m * Nat.pow 2 (p - e).toNat + signed t n * Nat.pow 2 (q - e).toNat) e

def sub (x y : Binary f) : Binary f := add x (negate y)

def mul : Binary f → Binary f → Binary f
  | nan, _ => nan
  | _, nan => nan
  | infinite s, infinite t => infinite (s ^^ t)
  | infinite s, finite t n _ _ => if n = 0 then nan else infinite (s ^^ t)
  | finite s m _ _, infinite t => if m = 0 then nan else infinite (s ^^ t)
  | finite s m p _, finite t n q _ => ofQuotient f (s ^^ t) (m * n) 1 (p + q)

/-- The exact quotient, rounded. A number over zero is infinite, zero over zero is not a
number. -/
def div : Binary f → Binary f → Binary f
  | nan, _ => nan
  | _, nan => nan
  | infinite _, infinite _ => nan
  | infinite s, finite t _ _ _ => infinite (s ^^ t)
  | finite s _ _ _, infinite t => zero f (s ^^ t)
  | finite s m p _, finite t n q _ =>
    if n = 0 then (if m = 0 then nan else infinite (s ^^ t))
    else ofQuotient f (s ^^ t) m n (p - q)

end Binary

end Autodiff
