import Autodiff.Capability.Ieee
import Autodiff.Gradient.Trace
import Autodiff.Proofs.Gradient.Leaves
import Autodiff.Proofs.Gradient.Results

/-!
# Arithmetic that fails on data only

The operations of an interchange width have a result for all numbers: infinities and values that
are not numbers go on like any others. What fails is the conversion of an operand. Every result of
an operation is a number of the width already, so an operand that cannot be converted is a datum
of the tree; and every datum is an operand of some operation, unless the tree is that datum.

* `Scalar.Converts` says that a value has a number of a width; `Ieee.converts_of_apply` and its
  like say that the operands and the result of an operation do, and `Ieee.refused_of_apply` and
  its like that an operation fails as a conversion does;
* `Expr.scalars` are the data of a tree, its integer constants included, and `Expr.FailsOnDatum`
  says of a fault that the conversion of one of them has it;
* `Expr.failsOnDatum_of_evaluate` and `Expr.failsOnDatum_of_gradient` trace a fault back to a datum,
  and `Expr.converts_of_evaluate` says that a value overlooks no datum;
* `Expr.widths_fail_on_data` puts this together.
-/

namespace Autodiff

/-- The value has a number of the width. -/
def Scalar.Converts (width : Width) (x : Scalar) : Prop := ∃ number, x.toWidth width = .ok number

theorem Scalar.Converts.not_refused {width : Width} {x : Scalar} (hConverts : x.Converts width)
    {cause : ScalarError} : x.toWidth width ≠ .error cause := by
  obtain ⟨number, hNumber⟩ := hConverts
  simp [hNumber]

/-! ## Single operations -/

namespace Ieee

variable {library : Library} {width : Width} {x y result : Scalar} {cause : ScalarError}

theorem converts_ieee (width : Width) {other : Width} (number : Binary other.format) :
    (Scalar.ieee other number).Converts width := ⟨_, rfl⟩

theorem converts_of_apply {op : Op}
    (hResult : (arithmetic library width).apply op x y = .ok result) :
    x.Converts width ∧ y.Converts width ∧ result.Converts width := by
  rw [apply_arithmetic, combine, bind_eq_ok_iff] at hResult
  obtain ⟨a, hX, hRest⟩ := hResult
  obtain ⟨b, hY, hPure⟩ := bind_eq_ok_iff.1 hRest
  cases hPure
  exact ⟨⟨a, hX⟩, ⟨b, hY⟩, converts_ieee width _⟩

theorem converts_of_log (hResult : (arithmetic library width).log x = .ok result) :
    x.Converts width ∧ result.Converts width := by
  obtain ⟨a, hX, hPure⟩ := bind_eq_ok_iff.1 hResult
  cases hPure
  exact ⟨⟨a, hX⟩, converts_ieee width _⟩

theorem converts_of_ofInt {n : Int} (hResult : (arithmetic library width).ofInt n = .ok result) :
    (Scalar.int n).Converts width ∧ result.Converts width := by
  obtain ⟨a, hInt, hPure⟩ := bind_eq_ok_iff.1 hResult
  cases hPure
  exact ⟨⟨a, hInt⟩, converts_ieee width _⟩

theorem yields_converts : (arithmetic library width).Yields (Scalar.Converts width) where
  apply := fun _ _ _ _ hResult => (converts_of_apply hResult).2.2
  log := fun hResult => (converts_of_log hResult).2
  ofInt := fun hResult => (converts_of_ofInt hResult).2

theorem converts_zero (width : Width) : (Scalar.int 0).Converts width := by
  cases width <;> exact ⟨_, rfl⟩

theorem converts_one (width : Width) : (Scalar.int 1).Converts width := by
  cases width <;> exact ⟨_, rfl⟩

/-- An operation fails as the conversion of one of its operands does. -/
theorem refused_of_apply {op : Op}
    (hCause : (arithmetic library width).apply op x y = .error cause) :
    x.toWidth width = .error cause ∨ y.toWidth width = .error cause := by
  rw [apply_arithmetic, combine, bind_eq_error_iff] at hCause
  rcases hCause with hX | ⟨a, -, hRest⟩
  · exact .inl hX
  · rcases bind_eq_error_iff.1 hRest with hY | ⟨b, -, hPure⟩
    · exact .inr hY
    · cases hPure

theorem refused_of_log (hCause : (arithmetic library width).log x = .error cause) :
    x.toWidth width = .error cause := by
  rcases bind_eq_error_iff.1 hCause with hX | ⟨a, -, hPure⟩
  · exact hX
  · cases hPure

theorem refused_of_ofInt {n : Int} (hCause : (arithmetic library width).ofInt n = .error cause) :
    (Scalar.int n).toWidth width = .error cause := by
  rcases bind_eq_error_iff.1 hCause with hInt | ⟨a, -, hPure⟩
  · exact hInt
  · cases hPure

theorem exists_ofInt_zero (library : Library) (width : Width) :
    ∃ zero, (arithmetic library width).ofInt 0 = .ok zero := by
  cases width <;> exact ⟨_, rfl⟩

end Ieee

/-! ## The data of a tree -/

namespace Expr

/-- What the arithmetic gets from the leaves of a tree: the data of variables and literals and the
integers of constants. -/
def scalars : Expr Scalar → List Scalar
  | var _ data => [data]
  | lit data => [data]
  | const n => [.int n]
  | binary _ left right => left.scalars ++ right.scalars
  | unary _ operand => operand.scalars
  | foreign _ => []

theorem mem_scalars_iff_leaves {expr : Expr Scalar} {x : Scalar} :
    x ∈ expr.scalars ↔ ∃ leaf ∈ expr.leaves, x ∈ leaf.scalars := by
  induction expr with
  | var | lit | const | foreign => simp [leaves]
  | binary op left right ihLeft ihRight =>
    simp only [scalars, leaves, List.mem_append, ihLeft, ihRight, or_and_right, exists_or]
  | unary fn operand ih => rw [scalars, leaves, ih]

/-- The conversion of some datum of the tree to a width fails with this fault. -/
def FailsOnDatum (width : Width) (expr : Expr Scalar) (fault : Fault Scalar ScalarError) : Prop :=
  ∃ x ∈ expr.scalars, ∃ cause, x.toWidth width = .error cause ∧ fault = .arithmetic cause

variable {library : Library} {width : Width} {expr : Expr Scalar}

theorem FailsOnDatum.mono {term : Expr Scalar} {fault : Fault Scalar ScalarError}
    (hFails : FailsOnDatum width term fault) (hScalars : term.scalars ⊆ expr.scalars) :
    FailsOnDatum width expr fault := by
  obtain ⟨x, hMem, hCause⟩ := hFails
  exact ⟨x, hScalars hMem, hCause⟩

/-- The leaves that a derivative adds do not fail, for 0 and 1 have a number of any width. -/
theorem FailsOnDatum.of_leavesFrom {term : Expr Scalar} {fault : Fault Scalar ScalarError}
    (hFails : FailsOnDatum width term fault) (hLeaves : LeavesFrom expr term) :
    FailsOnDatum width expr fault := by
  obtain ⟨x, hMem, cause, hCause, hFault⟩ := hFails
  obtain ⟨leaf, hLeaf, hX⟩ := mem_scalars_iff_leaves.1 hMem
  rcases hLeaves leaf hLeaf with hSource | rfl | rfl
  · exact ⟨x, mem_scalars_iff_leaves.2 ⟨leaf, hSource, hX⟩, cause, hCause, hFault⟩
  · cases List.mem_singleton.1 hX
    exact absurd hCause (Ieee.converts_zero width).not_refused
  · cases List.mem_singleton.1 hX
    exact absurd hCause (Ieee.converts_one width).not_refused

/-! ## Values -/

/-- A value that cannot be converted is a datum, for results of operations can be. -/
theorem failsOnDatum_of_refused {value : Scalar} {cause : ScalarError}
    (hValue : expr.evaluate (Ieee.arithmetic library width) = .ok value)
    (hCause : value.toWidth width = .error cause) :
    FailsOnDatum width expr (.arithmetic cause) := by
  by_cases hDatum : expr.IsDatum
  · cases expr with
    | var | lit =>
      cases hValue
      exact ⟨value, List.mem_singleton.2 rfl, cause, hCause, rfl⟩
    | const | binary | unary | foreign => exact hDatum.elim
  · have hConverts := property_of_evaluate Ieee.yields_converts hDatum hValue
    exact absurd hCause hConverts.not_refused

theorem failsOnDatum_of_const {n : Int} {fault : Fault Scalar ScalarError}
    (hFault : (const n).evaluate (Ieee.arithmetic library width) = .error fault) :
    FailsOnDatum width (const n) fault := by
  obtain ⟨cause, hCause, rfl⟩ := Fault.lift_eq_error_iff.1 hFault
  exact ⟨.int n, List.mem_singleton.2 rfl, cause, Ieee.refused_of_ofInt hCause, rfl⟩

/-- At an operator an operand fails, or the conversion of a value, which is a datum then. -/
theorem failsOnDatum_of_binary {op : Op} {left right : Expr Scalar}
    (hLeft : ∀ {fault}, left.evaluate (Ieee.arithmetic library width) = .error fault →
      FailsOnDatum width left fault)
    (hRight : ∀ {fault}, right.evaluate (Ieee.arithmetic library width) = .error fault →
      FailsOnDatum width right fault)
    {fault : Fault Scalar ScalarError}
    (hFault : (binary op left right).evaluate (Ieee.arithmetic library width) = .error fault) :
    FailsOnDatum width (binary op left right) fault := by
  rw [evaluate, bind_eq_error_iff] at hFault
  rcases hFault with hFault | ⟨x, hX, hRest⟩
  · exact (hLeft hFault).mono (List.subset_append_left _ _)
  rcases bind_eq_error_iff.1 hRest with hFault | ⟨y, hY, hApply⟩
  · exact (hRight hFault).mono (List.subset_append_right _ _)
  obtain ⟨cause, hCause, rfl⟩ := Fault.lift_eq_error_iff.1 hApply
  rcases Ieee.refused_of_apply hCause with hRefused | hRefused
  · exact (failsOnDatum_of_refused hX hRefused).mono (List.subset_append_left _ _)
  · exact (failsOnDatum_of_refused hY hRefused).mono (List.subset_append_right _ _)

theorem leavesFrom_negated (operand : Expr Scalar) :
    LeavesFrom (neg operand) (sub (const 0) operand) := by
  intro leaf hMem
  rcases List.mem_cons.1 hMem with rfl | hOperand
  · exact .inr (.inl rfl)
  · exact .inl hOperand

/-- A tree that has no value fails on one of its data. -/
theorem failsOnDatum_of_evaluate (hGenuine : expr.Genuine) {fault : Fault Scalar ScalarError}
    (hFault : expr.evaluate (Ieee.arithmetic library width) = .error fault) :
    FailsOnDatum width expr fault := by
  induction expr generalizing fault with
  | var | lit => cases hFault
  | const n => exact failsOnDatum_of_const hFault
  | binary op left right ihLeft ihRight =>
    exact failsOnDatum_of_binary (ihLeft hGenuine.1) (ihRight hGenuine.2) hFault
  | unary fn operand ih =>
    cases fn with
    | neg =>
      rw [evaluate_neg] at hFault
      have hFails := failsOnDatum_of_binary failsOnDatum_of_const (ih hGenuine) hFault
      exact hFails.of_leavesFrom (leavesFrom_negated operand)
    | log =>
      rw [evaluate, bind_eq_error_iff] at hFault
      rcases hFault with hFault | ⟨x, hX, hLog⟩
      · exact ih hGenuine hFault
      · obtain ⟨cause, hCause, rfl⟩ := Fault.lift_eq_error_iff.1 hLog
        have hOperand := failsOnDatum_of_refused hX (Ieee.refused_of_log hCause)
        exact hOperand.mono (List.Subset.refl _)
  | foreign => exact hGenuine.elim

/-- If the value of a tree can be converted, then all of its data can. -/
theorem converts_of_evaluate {value : Scalar}
    (hValue : expr.evaluate (Ieee.arithmetic library width) = .ok value)
    (hConverts : value.Converts width) : ∀ x ∈ expr.scalars, x.Converts width := by
  induction expr generalizing value with
  | var | lit =>
    intro x hMem
    cases hValue
    cases List.mem_singleton.1 hMem
    exact hConverts
  | const n =>
    intro x hMem
    rw [evaluate, Fault.lift_eq_ok_iff] at hValue
    cases List.mem_singleton.1 hMem
    exact (Ieee.converts_of_ofInt hValue).1
  | binary op left right ihLeft ihRight =>
    simp only [evaluate, bind_eq_ok_iff, Fault.lift_eq_ok_iff] at hValue
    obtain ⟨x, hX, y, hY, hApply⟩ := hValue
    obtain ⟨hLeft, hRight, -⟩ := Ieee.converts_of_apply hApply
    exact List.forall_mem_append.2 ⟨ihLeft hX hLeft, ihRight hY hRight⟩
  | unary fn operand ih =>
    cases fn with
    | neg =>
      simp only [evaluate, bind_eq_ok_iff, Fault.lift_eq_ok_iff] at hValue
      obtain ⟨zero, -, x, hX, hSub⟩ := hValue
      have hApply : (Ieee.arithmetic library width).apply .sub zero x = .ok value := hSub
      exact ih hX (Ieee.converts_of_apply hApply).2.1
    | log =>
      simp only [evaluate, bind_eq_ok_iff, Fault.lift_eq_ok_iff] at hValue
      obtain ⟨x, hX, hLog⟩ := hValue
      exact ih hX (Ieee.converts_of_log hLog).1
  | foreign => cases hValue

/-! ## Gradients and traces -/

/-- A tree that has no gradient fails on one of its data. -/
theorem failsOnDatum_of_gradient (hGenuine : expr.Genuine) {fault : Fault Scalar ScalarError}
    (hFault : expr.gradient (Ieee.arithmetic library width) = .error fault) :
    FailsOnDatum width expr fault := by
  obtain ⟨zero, hZero⟩ := Ieee.exists_ofInt_zero library width
  have hSymbolic : expr.symbolicGradient = .ok _ :=
    symbolicGradientFrom_eq_ok_iff.2 ⟨hGenuine, rfl⟩
  rcases fault_of_gradient hZero hGenuine hFault with
    ⟨term, hMem, hTerm⟩ | ⟨id, term, hEntry, hTerm⟩
  · have hLeaves := leavesFrom_of_mem_adjoints hMem
    exact (failsOnDatum_of_evaluate (hLeaves.genuine hGenuine) hTerm).of_leavesFrom hLeaves
  · have hLeaves := leavesFrom_of_symbolicGradient hSymbolic hEntry
    exact (failsOnDatum_of_evaluate (hLeaves.genuine hGenuine) hTerm).of_leavesFrom hLeaves

theorem failsOnDatum_of_trace (hGenuine : expr.Genuine) {fault : Fault Scalar ScalarError}
    (hFault : expr.trace (Ieee.arithmetic library width) .empty = .error fault) :
    FailsOnDatum width expr fault := by
  rw [trace_empty, bind_eq_error_iff] at hFault
  rcases hFault with hValue | ⟨value, -, hRest⟩
  · exact failsOnDatum_of_evaluate hGenuine hValue
  rcases bind_eq_error_iff.1 hRest with hGradient | ⟨grads, -, hPure⟩
  · exact failsOnDatum_of_gradient hGenuine hGradient
  · cases hPure

/-- What fails on data only succeeds if all data can be converted. -/
theorem exists_ok_of_failsOnDatum {β : Type} {outcome : Except (Fault Scalar ScalarError) β}
    (hFails : ∀ {fault}, outcome = .error fault → FailsOnDatum width expr fault)
    (hConverts : ∀ x ∈ expr.scalars, x.Converts width) : ∃ result, outcome = .ok result := by
  cases hOutcome : outcome with
  | ok result => exact ⟨result, rfl⟩
  | error fault =>
    obtain ⟨x, hMem, cause, hCause, -⟩ := hFails hOutcome
    exact absurd hCause (hConverts x hMem).not_refused

/-- In the arithmetic of an interchange width, whatever the library for powers and logarithms is,
a tree whose data and constants all have a number of the width has a value, a gradient and a
trace. If some of them has none, then a tree that is more than a datum has no value, and its error
is that of the conversion of one of them. No gradient or trace has another error either. -/
theorem widths_fail_on_data (library : Library) (width : Width) {expr : Expr Scalar}
    (hGenuine : expr.Genuine) :
    ((∀ x ∈ expr.scalars, x.Converts width) →
      (∃ value, expr.evaluate (Ieee.arithmetic library width) = .ok value) ∧
        (∃ grads, expr.gradient (Ieee.arithmetic library width) = .ok grads) ∧
        ∃ traced, expr.trace (Ieee.arithmetic library width) .empty = .ok traced) ∧
      (¬ expr.IsDatum → (∃ x ∈ expr.scalars, ¬ x.Converts width) →
        ∃ x ∈ expr.scalars, ∃ cause, x.toWidth width = .error cause ∧
          expr.evaluate (Ieee.arithmetic library width) = .error (.arithmetic cause)) ∧
      ∀ fault, (expr.gradient (Ieee.arithmetic library width) = .error fault ∨
          expr.trace (Ieee.arithmetic library width) .empty = .error fault) →
        ∃ x ∈ expr.scalars, ∃ cause, x.toWidth width = .error cause ∧
          fault = .arithmetic cause := by
  refine ⟨fun hConverts => ⟨?value, ?gradient, ?trace⟩, ?refused, ?faults⟩
  case value => exact exists_ok_of_failsOnDatum (failsOnDatum_of_evaluate hGenuine) hConverts
  case gradient => exact exists_ok_of_failsOnDatum (failsOnDatum_of_gradient hGenuine) hConverts
  case trace => exact exists_ok_of_failsOnDatum (failsOnDatum_of_trace hGenuine) hConverts
  case refused =>
    rintro hDatum ⟨data, hData, hRefused⟩
    cases hOutcome : expr.evaluate (Ieee.arithmetic library width) with
    | ok value =>
      have hValue := property_of_evaluate Ieee.yields_converts hDatum hOutcome
      exact absurd (converts_of_evaluate hOutcome hValue data hData) hRefused
    | error fault =>
      obtain ⟨x, hMem, cause, hCause, rfl⟩ := failsOnDatum_of_evaluate hGenuine hOutcome
      exact ⟨x, hMem, cause, hCause, rfl⟩
  case faults =>
    rintro fault (hGradient | hTrace)
    · exact failsOnDatum_of_gradient hGenuine hGradient
    · exact failsOnDatum_of_trace hGenuine hTrace

/-- The logarithm of `(-1) ^ 0.5 / 0` in half precision exists, and so does its gradient. Times the
text `two` there is no value, for that text is no number. -/
theorem widths_fail_on_data_undefined :
    ∃ expr other : Expr Scalar,
      expr = log (div (pow (var "x" (.int (-1))) (lit (.text "0.5"))) (const 0)) ∧
      other = mul expr (var "y" (.text "two")) ∧ expr.Genuine ∧ other.Genuine ∧
      (∃ value, expr.evaluate (Ieee.arithmetic .machine .half) = .ok value) ∧
      (∃ grads, expr.gradient (Ieee.arithmetic .machine .half) = .ok grads) ∧
      other.evaluate (Ieee.arithmetic .machine .half) =
        .error (.arithmetic (.unreadable "two")) := by
  let expr : Expr Scalar := log (div (pow (var "x" (.int (-1))) (lit (.text "0.5"))) (const 0))
  let other : Expr Scalar := mul expr (var "y" (.text "two"))
  have hGenuine : expr.Genuine := by simp [expr, Genuine]
  have hOther : other.Genuine := by simp [other, expr, Genuine]
  have hConverts : ∀ x ∈ expr.scalars, x.Converts .half := by
    simp only [expr, scalars, List.forall_mem_append, List.forall_mem_singleton]
    exact ⟨⟨⟨_, rfl⟩, ⟨_, rfl⟩⟩, ⟨_, rfl⟩⟩
  have hText : (Scalar.text "two").toWidth .half = .error (.unreadable "two") := rfl
  have hMem : .text "two" ∈ other.scalars := List.mem_append_right _ (List.mem_singleton.2 rfl)
  have hRefused : ¬ (Scalar.text "two").Converts .half := fun h => h.not_refused hText
  obtain ⟨hSucceeds, -, -⟩ := widths_fail_on_data .machine .half hGenuine
  obtain ⟨hValue, hGradient, -⟩ := hSucceeds hConverts
  obtain ⟨-, hFails, -⟩ := widths_fail_on_data .machine .half hOther
  obtain ⟨x, hX, cause, hCause, hOutcome⟩ := hFails (by simp [other, IsDatum]) ⟨_, hMem, hRefused⟩
  refine ⟨expr, other, rfl, rfl, hGenuine, hOther, hValue, hGradient, ?_⟩
  -- the datum that fails is the text, for the others have numbers
  rcases List.mem_append.1 hX with hConverted | hLast
  · exact absurd hCause (hConverts x hConverted).not_refused
  · cases List.mem_singleton.1 hLast
    cases hText.symm.trans hCause
    exact hOutcome

end Expr

end Autodiff
