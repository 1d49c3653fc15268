import Autodiff.Arithmetic

/-!
# Outcomes of computations

A computation in several steps succeeds exactly if every step does, and it fails with the
first step that fails. The lemmas of this module take such a computation apart into its
steps.

* `bind_eq_ok_iff` splits off the first step of a computation that succeeds, and
  `bind_eq_error_iff` that of one that fails;
* `exists_ok_iff_of_error_iff` compares two computations by what they fail with;
* `toOption_eq_some_iff` says what is left of a computation when its cause of failure is dropped;
* `SameOutcome` relates two computations that fail for the same cause or have related results,
  and `SameOutcome.bind` does so step by step;
* `Arithmetic.negate_eq_ok_iff` opens a negation, which is a subtraction from zero.
-/

namespace Autodiff

@[simp] theorem ok_bind {ε β γ : Type} (value : β) (next : β → Except ε γ) :
    (Except.ok value : Except ε β) >>= next = next value := rfl

@[simp] theorem error_bind {ε β γ : Type} (cause : ε) (next : β → Except ε γ) :
    (Except.error cause : Except ε β) >>= next = .error cause := rfl

/-- A computation succeeds exactly if its first step does and what follows it does. -/
theorem bind_eq_ok_iff {ε β γ : Type} {first : Except ε β} {next : β → Except ε γ} {result : γ} :
    first >>= next = .ok result ↔ ∃ value, first = .ok value ∧ next value = .ok result := by
  cases first with
  | error cause => simp
  | ok value => simp

/-- A computation fails exactly if its first step does or if what follows it does. -/
theorem bind_eq_error_iff {ε β γ : Type} {first : Except ε β} {next : β → Except ε γ}
    {cause : ε} :
    first >>= next = .error cause ↔
      first = .error cause ∨ ∃ value, first = .ok value ∧ next value = .error cause := by
  cases first with
  | error found => simp
  | ok value => simp

theorem map_eq_ok_iff {ε β γ : Type} {f : β → γ} {outcome : Except ε β} {result : γ} :
    outcome.map f = .ok result ↔ ∃ value, outcome = .ok value ∧ f value = result := by
  cases outcome <;> simp [Except.map]

/-- Two computations that fail together succeed together. -/
theorem exists_ok_iff_of_error_iff {ε ε' β γ : Type} {outcome : Except ε β}
    {other : Except ε' γ} {f : ε' → ε}
    (hError : ∀ cause, outcome = .error cause ↔ ∃ found, other = .error found ∧ f found = cause) :
    (∃ result, outcome = .ok result) ↔ ∃ result, other = .ok result := by
  cases outcome with
  | error cause =>
    obtain ⟨found, rfl, -⟩ := (hError cause).1 rfl
    simp
  | ok result =>
    cases other with
    | error found => cases (hError (f found)).2 ⟨found, rfl, rfl⟩
    | ok result => simp

theorem toOption_eq_some_iff {ε β : Type} {outcome : Except ε β} {result : β} :
    outcome.toOption = some result ↔ outcome = .ok result := by
  cases outcome <;> simp [Except.toOption]

/-- Two computations fail for the same cause, or both succeed with related results. -/
inductive SameOutcome {ε β γ : Type} (R : β → γ → Prop) : Except ε β → Except ε γ → Prop
  | ok {result : β} {result' : γ} (hResults : R result result') :
      SameOutcome R (.ok result) (.ok result')
  | error (cause : ε) : SameOutcome R (.error cause) (.error cause)

namespace SameOutcome

variable {ε β γ β' γ' : Type} {R : β → γ → Prop} {S : β' → γ' → Prop}

theorem bind {first : Except ε β} {second : Except ε γ} (hSame : SameOutcome R first second)
    {next : β → Except ε β'} {next' : γ → Except ε γ'}
    (hNext : ∀ result result', R result result' → SameOutcome S (next result) (next' result')) :
    SameOutcome S (first >>= next) (second >>= next') := by
  cases hSame with
  | ok hResults => exact hNext _ _ hResults
  | error cause => exact .error cause

theorem imp {first : Except ε β} {second : Except ε γ} (hSame : SameOutcome R first second)
    {S : β → γ → Prop} (hImp : ∀ result result', R result result' → S result result') :
    SameOutcome S first second := by
  cases hSame with
  | ok hResults => exact .ok (hImp _ _ hResults)
  | error cause => exact .error cause

end SameOutcome

theorem Arithmetic.negate_eq_ok_iff {α ε : Type} {num : Arithmetic α ε} {value result : α} :
    num.negate value = .ok result ↔
      ∃ zero, num.ofInt 0 = .ok zero ∧ num.sub zero value = .ok result := by
  rw [Arithmetic.negate, bind_eq_ok_iff]

end Autodiff
