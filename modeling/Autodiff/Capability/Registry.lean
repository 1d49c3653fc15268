import Autodiff.Capability.Builtin

/-!
# Known capabilities

The capabilities for scalars, and the names under which they are found.

* `Capability.find` looks a name up among the registered capabilities;
* `Width.find?` knows the names of the interchange formats.
-/

namespace Autodiff

/-- The capabilities for scalars. -/
inductive Capability where
  | ieee (width : Width)
  | builtin
  | decimal
  deriving DecidableEq

/-- Why no capability is found. -/
inductive LookupError where
  /-- No capability is registered under the name. -/
  | unknownNumber (name : String)
  /-- No interchange format has the name. -/
  | unknownFormat (name : String)
  deriving DecidableEq

namespace Width

/-- The short codes of the formats, which may follow a mark for the order of bytes. -/
def ofCode? : List Char → Option Width
  | ['f', '8'] | ['d'] => some double
  | ['f', '4'] | ['f'] => some single
  | ['f', '2'] | ['e'] => some half
  | _ => none

/-- The width of a format name, in full, short or coded spelling. -/
def find? (name : String) : Option Width :=
  if name = "float64" ∨ name = "double" ∨ name = "float" then some double
  else if name = "float32" ∨ name = "single" then some single
  else if name = "float16" ∨ name = "half" then some half
  else
    match name.toList with
    | '<' :: code | '>' :: code | '=' :: code | '|' :: code => ofCode? code
    | code => ofCode? code

end Width

namespace Capability

def name : Capability → String
  | ieee width => width.name
  | builtin => "float"
  | decimal => "decimal"

/-- The class of a capability with its name in quotes. -/
def describe (capability : Capability) : String :=
  let className := match capability with
    | ieee _ => "NumpyNumber"
    | builtin => "PythonFloat"
    | decimal => "DecimalNumber"
  className ++ "(" ++ Text.Quoted.encode capability.name ++ ")"

/-- The arithmetic of a capability, with the library of the machine. -/
def arithmetic : Capability → Arithmetic Scalar ScalarError
  | ieee width => Ieee.arithmetic .machine width
  | builtin => Builtin.arithmetic .machine
  | decimal => Decimal.arithmetic

/-- The registered capabilities, in the order of their names. -/
def registered : List Capability := [decimal, builtin, ieee .single, ieee .double]

def find (wanted : String) : Except LookupError Capability :=
  match registered.find? (fun capability => capability.name == wanted) with
  | some capability => .ok capability
  | none => .error (.unknownNumber wanted)

/-- The capability of a format name. -/
def ofFormat (formatName : String) : Except LookupError Capability :=
  match Width.find? formatName with
  | some width => .ok (ieee width)
  | none => .error (.unknownFormat formatName)

end Capability

namespace LookupError

def message : LookupError → String
  | unknownNumber name =>
    "Unknown number type " ++ Text.Quoted.encode name ++ " (known: " ++
      ", ".intercalate (Capability.registered.map Capability.name) ++ ")"
  | unknownFormat name => "data type " ++ Text.Quoted.encode name ++ " not understood"

end LookupError

end Autodiff
