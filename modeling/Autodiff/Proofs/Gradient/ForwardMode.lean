import Mathlib.Data.Rat.Defs
import Mathlib.Algebra.Field.Rat
import Mathlib.Tactic.NormNum
import Autodiff.Proofs.Expr.Occurrence
import Autodiff.Proofs.Gradient.Tangent

/-!
# Reverse mode and forward mode

In the arithmetic of a field, in which everything divided by zero is zero, the reverse walk
and the forward tangent of a tree agree for every variable. The power and the logarithm may
be any functions: the local derivatives of both directions refer to them in the same way,
and no rule of calculus is used.

* `Arithmetic.Computes` says that a capability has the operations of the field and two given
  functions;
* `gradient_eq_tangent` is the agreement.
-/

namespace Autodiff

variable {K ε : Type} [Field K]

/-- The operations are those of the field, with zero for a quotient by zero, and the given
power and logarithm. All of them are total. -/
structure Arithmetic.Computes (num : Arithmetic K ε) (fns : Elementary K) : Prop
    extends num.RingExact where
  div : ∀ x y, num.div x y = .ok (x / y)
  pow : ∀ b e, num.pow b e = .ok (fns.power b e)
  log : ∀ x, num.log x = .ok (fns.logarithm x)

/-- The arithmetic of the field with the given power and logarithm. -/
def Elementary.arithmetic (fns : Elementary K) (ε : Type) : Arithmetic K ε where
  add x y := .ok (x + y)
  sub x y := .ok (x - y)
  mul x y := .ok (x * y)
  div x y := .ok (x / y)
  pow b e := .ok (fns.power b e)
  log x := .ok (fns.logarithm x)
  ofInt n := .ok n

theorem Elementary.arithmetic_computes (fns : Elementary K) :
    (fns.arithmetic ε).Computes fns where
  add _ _ := rfl
  sub _ _ := rfl
  mul _ _ := rfl
  ofInt _ := rfl
  div _ _ := rfl
  pow _ _ := rfl
  log _ := rfl

namespace Arithmetic.Computes

variable {num : Arithmetic K ε} {fns : Elementary K}

theorem soundAt (hComputes : num.Computes fns) (op : Op) (x y : K) : fns.SoundAt num op x y := by
  cases op with
  | add | sub | mul => trivial
  | div => exact fun z => ⟨hComputes.div z y, hComputes.div z (y * y)⟩
  | pow => exact ⟨hComputes.pow x y, hComputes.pow x (y - 1), hComputes.log x⟩

/-- A total capability is sound at every node. -/
theorem sound (hComputes : num.Computes fns) {expr : Expr K} (hGenuine : expr.Genuine) :
    expr.Sound fns num := by
  induction expr with
  | var | lit | const => trivial
  | binary op left right ihLeft ihRight =>
    exact ⟨ihLeft hGenuine.1, ihRight hGenuine.2, hComputes.soundAt op _ _⟩
  | unary fn operand ih =>
    cases fn with
    | neg => exact ih hGenuine
    | log => exact ⟨ih hGenuine, hComputes.log _, fun x => hComputes.div x _⟩
  | foreign => exact hGenuine.elim

end Arithmetic.Computes

namespace Expr

variable {num : Arithmetic K ε} {fns : Elementary K}

/-- In the arithmetic of a field the gradient of a genuine tree exists, and the entry of
every variable, zero if there is none, is the forward tangent. The values to which the
tangent refers are those of the subtrees: each of them is what its evaluation gives. -/
theorem gradient_eq_tangent (hComputes : num.Computes fns) {expr : Expr K}
    (hGenuine : expr.Genuine) :
    (∀ occurrence ∈ expr.occurrences,
      occurrence.node.evaluate num = .ok (occurrence.node.value fns)) ∧
      ∃ grads, expr.gradient num = .ok grads ∧
        ∀ id, (grads.get? id).getD 0 = expr.tangent fns id := by
  refine ⟨?_, ?_⟩
  · intro occurrence hMem
    exact evaluate_eq_value hComputes.toRingExact
      (hComputes.sound (hGenuine.of_mem_occurrences hMem))
  · obtain ⟨grads, hRun, hEntries⟩ := gradientFrom_tangent hComputes.toRingExact
      (hComputes.sound hGenuine) 1 IdMap.empty
    refine ⟨grads, ?_, ?_⟩
    · rw [gradient, hComputes.ofInt, Int.cast_one, Fault.lift_ok, ok_bind]
      exact hRun
    · intro id
      have hEntry := hEntries id
      rwa [IdMap.get?_empty, Option.getD_none, zero_add, one_mul] at hEntry

/-- The agreement over the rationals for `(x * y) ^ (x + x / (y - y)) - log x` at 2 and 3,
with `b * e + 1` for the power and `x - 5` for the logarithm: the variable `x` is in the base
and in the exponent of one power, and the exponent divides by zero. -/
theorem gradient_eq_tangent_power :
    ∃ (fns : Elementary ℚ) (expr : Expr ℚ),
      fns = ⟨fun b e => b * e + 1, fun x => x - 5⟩ ∧
      expr = sub (pow (mul (var "x" 2) (var "y" 3))
        (add (var "x" 2) (div (var "x" 2) (sub (var "y" 3) (var "y" 3))))) (log (var "x" 2)) ∧
      (fns.arithmetic Empty).Computes fns ∧ expr.Genuine ∧
      (∀ occurrence ∈ expr.occurrences,
        occurrence.node.evaluate (fns.arithmetic Empty) = .ok (occurrence.node.value fns)) ∧
      ∃ grads, expr.gradient (fns.arithmetic Empty) = .ok grads ∧
        (∀ id, (grads.get? id).getD 0 = expr.tangent fns id) ∧
        (grads.get? "x").getD 0 = 109 / 2 := by
  let fns : Elementary ℚ := ⟨fun b e => b * e + 1, fun x => x - 5⟩
  let expr : Expr ℚ := sub (pow (mul (var "x" 2) (var "y" 3))
    (add (var "x" 2) (div (var "x" 2) (sub (var "y" 3) (var "y" 3))))) (log (var "x" 2))
  have hComputes : (fns.arithmetic Empty).Computes fns := fns.arithmetic_computes
  have hGenuine : expr.Genuine := by simp [expr, Genuine]
  obtain ⟨hValues, grads, hGradient, hEntries⟩ := gradient_eq_tangent hComputes hGenuine
  refine ⟨fns, expr, rfl, rfl, hComputes, hGenuine, hValues, grads, hGradient, hEntries, ?_⟩
  have hOther : "y" ≠ "x" := by decide
  rw [hEntries]
  norm_num [expr, tangent, value, Elementary.apply, fns, hOther]

end Expr

end Autodiff
