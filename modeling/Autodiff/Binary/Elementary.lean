import Autodiff.Binary.Basic

/-!
# Powers and logarithms of binary numbers

Powers and logarithms are those of a mathematical library. A number is handed over to the
library of the machine as its interchange word and taken back from the word of the result.

* `Binary.toWord` and `Binary.ofWord` are the interchange words;
* `Library` is what a machine has to offer, `Library.machine` is the one at hand;
* `Binary.logDouble` spells out the logarithm outside the positive finite numbers.
-/

namespace Autodiff.Binary

variable {f : Format}

/-! ## Interchange words -/

/-- The word of positive infinity: an exponent field of ones and no fraction. -/
def infinityWord (f : Format) : Nat :=
  (f.maxExp - f.minExp + 2).toNat * Nat.pow 2 (f.precision - 1)

def signWord (f : Format) : Nat :=
  (f.maxExp - f.minExp + 3).toNat * Nat.pow 2 (f.precision - 1)

/-- The interchange word of a number: sign, exponent and fraction. -/
def toWord : Binary f → Nat
  | nan => infinityWord f + Nat.pow 2 (f.precision - 2)
  | infinite negative => (if negative then signWord f else 0) + infinityWord f
  | finite negative m q _ =>
    (if negative then signWord f else 0) + ((q - f.minExp).toNat * Nat.pow 2 (f.precision - 1) + m)

/-- The number of an interchange word. -/
def ofWord (f : Format) (word : Nat) : Binary f :=
  let negative := decide (signWord f ≤ word)
  let magnitude := if negative then word - signWord f else word
  let fraction := magnitude % Nat.pow 2 (f.precision - 1)
  let field := magnitude / Nat.pow 2 (f.precision - 1)
  if infinityWord f < magnitude then nan
  else if infinityWord f = magnitude then infinite negative
  else if field = 0 then pack f negative fraction f.minExp
  else pack f negative (fraction + Nat.pow 2 (f.precision - 1)) (f.minExp + field - 1)

end Autodiff.Binary

namespace Autodiff

/-! ## The mathematical library -/

/-- What a machine has to offer to arithmetic: the powers and logarithms of its mathematical
library, and its memory. -/
structure Library where
  powDouble : Binary .double → Binary .double → Binary .double
  powSingle : Binary .single → Binary .single → Binary .single
  /-- The logarithm of a positive finite double. -/
  logDouble : Binary .double → Binary .double
  /-- The logarithm of a positive finite single. -/
  logSingle : Binary .single → Binary .single
  /-- The length of the longest text that fits into the memory. -/
  room : Nat

open Binary in
/-- The library of the machine. -/
def Library.machine : Library where
  powDouble x y :=
    ofWord .double
      (Float.pow (Float.ofBits (UInt64.ofNat x.toWord)) (Float.ofBits (UInt64.ofNat y.toWord))
        |>.toBits.toNat)
  powSingle x y :=
    ofWord .single
      (Float32.pow (Float32.ofBits (UInt32.ofNat x.toWord)) (Float32.ofBits (UInt32.ofNat y.toWord))
        |>.toBits.toNat)
  logDouble x :=
    ofWord .double (Float.log (Float.ofBits (UInt64.ofNat x.toWord)) |>.toBits.toNat)
  logSingle x :=
    ofWord .single (Float32.log (Float32.ofBits (UInt32.ofNat x.toWord)) |>.toBits.toNat)
  room := Nat.pow 2 32

namespace Binary

/-! ## Logarithms -/

/-- The logarithm of a double. Zero has the logarithm minus infinity, a negative number
has none. -/
def logDouble (library : Library) : Binary .double → Binary .double
  | nan => nan
  | infinite negative => if negative then nan else infinite false
  | finite negative m q h =>
    if m = 0 then infinite true
    else if negative then nan
    else library.logDouble (finite negative m q h)

/-- The logarithm of a single, by the same rules. -/
def logSingle (library : Library) : Binary .single → Binary .single
  | nan => nan
  | infinite negative => if negative then nan else infinite false
  | finite negative m q h =>
    if m = 0 then infinite true
    else if negative then nan
    else library.logSingle (finite negative m q h)

end Binary

end Autodiff
