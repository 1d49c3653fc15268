import Autodiff.Scalar.Conversion

/-!
# Equality of scalars

Numbers of different kinds are equal if their exact values are; a truth value counts as
0 or 1, a text equals only a text, and nothing equals only nothing. A number of one of
the narrow widths is compared in its own format with integers and doubles. A
not-a-number equals nothing, and a signaling one cannot be compared.

* `Scalar.equal` compares two values;
* `Exact.same` compares two exact values without writing out large powers.
-/

namespace Autodiff

/-- The integer `n` times a power of two times a power of ten. -/
structure Exact where
  n : Int
  two : Int
  ten : Int

namespace Exact

/-- Whether `m * 2 ^ s * 10 ^ t = n` for positive `m` and `n` and any `s`, and `t` at
least zero. The power of ten is computed only if it can be small enough. -/
def reaches (m : Nat) (s : Int) (t : Nat) (n : Nat) : Bool :=
  decide (3 * (t : Int) + s ≤ n.log2) &&
    m * Nat.pow 2 s.toNat * Nat.pow 10 t == n * Nat.pow 2 (-s).toNat

/-- Whether two exact values are the same. -/
def same (x y : Exact) : Bool :=
  if x.n = 0 ∨ y.n = 0 then decide (x.n = y.n)
  else if decide (x.n < 0) != decide (y.n < 0) then false
  else if y.ten ≤ x.ten then
    reaches x.n.natAbs (x.two - y.two) (x.ten - y.ten).toNat y.n.natAbs
  else reaches y.n.natAbs (y.two - x.two) (y.ten - x.ten).toNat x.n.natAbs

end Exact

/-- What a number is for a comparison. -/
inductive Comparand where
  | exact (value : Exact)
  | infinite (negative : Bool)
  /-- A number that equals none. -/
  | nan

namespace Comparand

def ofBinary {f : Format} : Binary f → Comparand
  | .nan => nan
  | .infinite negative => infinite negative
  | .finite negative m q _ => exact ⟨Binary.signed negative m, q, 0⟩

/-- A decimal number; a signaling not-a-number cannot be compared. -/
def ofDecimal : Decimal → Except ScalarError Comparand
  | .nan _ true _ => .error (.decimal .invalidOperation)
  | .nan _ false _ => .ok nan
  | .infinite negative => .ok (infinite negative)
  | .finite negative coefficient exponent =>
    .ok (exact ⟨Binary.signed negative coefficient, 0, exponent⟩)

def same : Comparand → Comparand → Bool
  | exact x, exact y => x.same y
  | infinite s, infinite t => s == t
  | _, _ => false

end Comparand

namespace Scalar

/-- The number that a value is compared as; texts and nothing equal no number. -/
def comparand : Scalar → Except ScalarError Comparand
  | int n => .ok (.exact ⟨n, 0, 0⟩)
  | float x => .ok (.ofBinary x)
  | ieee _ x => .ok (.ofBinary x)
  | decimal x => Comparand.ofDecimal x
  | bool value => .ok (.exact ⟨if value then 1 else 0, 0, 0⟩)
  | text _ => .ok .nan
  | nothing => .ok .nan

/-- The value rounded to a narrow width, if it is an integer, a truth value or a builtin
double; other values stay as they are. -/
def beside (width : Width) (x : Scalar) : Except ScalarError Scalar :=
  match x with
  | int _ | bool _ | float _ => do
    let rounded ← x.toWidth width
    return ieee width rounded
  | other => .ok other

/-- The two values as they are compared: beside a number of a narrow width an integer or
a builtin double is rounded to it. -/
def align (x y : Scalar) : Except ScalarError (Scalar × Scalar) :=
  match x, y with
  | ieee .double _, _ => .ok (x, y)
  | _, ieee .double _ => .ok (x, y)
  | ieee width _, _ => do
    let other ← beside width y
    return (x, other)
  | _, ieee width _ => do
    let other ← beside width x
    return (other, y)
  | _, _ => .ok (x, y)

def equal (x y : Scalar) : Except ScalarError Bool :=
  match x, y with
  | text s, text t => .ok (s == t)
  | nothing, nothing => .ok true
  | text _, _ | _, text _ | nothing, _ | _, nothing => .ok false
  | _, _ => do
    let (a, b) ← align x y
    let first ← a.comparand
    let second ← b.comparand
    return first.same second

end Scalar

end Autodiff
