import Autodiff.Scalar.Equality

/-!
# Data and where they were entered

A value that is entered into a session once can come to stand in many places: a kept
expression is used again, a derivative copies its operands, and an id that is written
twice in a text is bound once. A datum is a value together with its entry, the command
and the place in it where the value was given. A datum is equal to itself, whatever its
value is; data of different entries are equal if their values are.

* `Datum.equal_self` says that even a not-a-number equals itself where it is shared;
* `Datum.equal_of_entry_ne` says that otherwise the values decide.
-/

namespace Autodiff

/-- Where a value stands in a command. -/
inductive Place where
  | first
  | second
  /-- The binding of an id. -/
  | binding (id : String)
  | numeral
  deriving DecidableEq

/-- Where a value was entered into a session: the number of the command and the place in
it. -/
structure Entry where
  command : Nat
  place : Place
  deriving DecidableEq

/-- A value and where it was entered. -/
structure Datum where
  value : Scalar
  entry : Entry
  deriving DecidableEq

namespace Datum

/-- Whether two data are equal: a datum equals itself, and other data are equal if their
values are. -/
def equal (x y : Datum) : Except ScalarError Bool :=
  if x = y then .ok true else x.value.equal y.value

/-- A datum equals itself, a not-a-number too. -/
theorem equal_self (x : Datum) : x.equal x = .ok true := if_pos rfl

/-- Data of different entries are compared by their values. -/
theorem equal_of_entry_ne {x y : Datum} (hEntry : x.entry ≠ y.entry) :
    x.equal y = x.value.equal y.value :=
  if_neg fun h => hEntry (congrArg entry h)

end Datum

end Autodiff
