import Autodiff.Expr.Basic

/-!
# Arithmetic capabilities

An `Arithmetic α ε` is the arithmetic that trees over the scalar type `α` are computed
with. Each operation may refuse its operands with an error of type `ε`; no law is
assumed of any of them. There is no negation: it is subtraction from zero.
-/

namespace Autodiff

/-- The operations a scalar type must offer. -/
structure Arithmetic (α ε : Type) where
  add : α → α → Except ε α
  sub : α → α → Except ε α
  mul : α → α → Except ε α
  div : α → α → Except ε α
  /-- The first operand raised to the second. -/
  pow : α → α → Except ε α
  log : α → Except ε α
  /-- The scalar of an exact integer. -/
  ofInt : Int → Except ε α

/-- What stops the computation of a tree. -/
inductive Fault (α ε : Type) where
  | notNode (found : NotNode α)
  | arithmetic (cause : ε)
  deriving DecidableEq

namespace Fault

variable {α ε β : Type}

/-- The outcome of an operation, as a step of a computation over a tree. -/
def lift : Except ε β → Except (Fault α ε) β
  | .ok value => .ok value
  | .error cause => .error (arithmetic cause)

/-- The outcome of a walk, as a step of a computation over a tree. -/
def liftWalk : Except (NotNode α) β → Except (Fault α ε) β
  | .ok value => .ok value
  | .error found => .error (notNode found)

@[simp] theorem lift_ok (value : β) : (lift (.ok value) : Except (Fault α ε) β) = .ok value := rfl

@[simp] theorem lift_error (cause : ε) :
    (lift (.error cause) : Except (Fault α ε) β) = .error (arithmetic cause) := rfl

theorem lift_eq_ok_iff {outcome : Except ε β} {value : β} :
    (lift outcome : Except (Fault α ε) β) = .ok value ↔ outcome = .ok value := by
  cases outcome <;> simp

theorem lift_eq_error_iff {outcome : Except ε β} {fault : Fault α ε} :
    (lift outcome : Except (Fault α ε) β) = .error fault ↔
      ∃ cause, outcome = .error cause ∧ arithmetic cause = fault := by
  cases outcome <;> simp

end Fault

namespace Arithmetic

variable {α ε : Type}

def apply (num : Arithmetic α ε) : Op → α → α → Except ε α
  | .add => num.add
  | .sub => num.sub
  | .mul => num.mul
  | .div => num.div
  | .pow => num.pow

/-- Zero minus the value; zero is made first. -/
def negate (num : Arithmetic α ε) (value : α) : Except ε α := do
  let zero ← num.ofInt 0
  num.sub zero value

end Arithmetic

end Autodiff
