import Autodiff.Proofs.Gradient.Agreement
import Autodiff.Proofs.Gradient.Contribution

/-!
# When the numerical gradient fails

The numerical walk computes the adjoint of every place of a tree, also of those that no
variable is below, and never the value of the tree itself. It fails exactly if one of these
adjoints, or one of the sums in its map, cannot be computed. As expressions these are the
adjoints that the symbolic walk hands down and the entries that it leaves.

* `adjoints` lists the adjoints that arrive at the places of a tree;
* `gradientFrom_binary_cases` says what the walk does at an operator: its steps are those of
  the two adjoints, taken in turn, unless an operand has no value;
* `fault_of_gradientFrom` traces the fault of a walk to an adjoint or to an entry;
* `gradient_succeeds_iff` is the condition for the walk from the root.
-/

namespace Autodiff.Expr

variable {α ε : Type} {num : Arithmetic α ε}

/-! ## The adjoints of all places -/

/-- The adjoints that arrive at the places of a tree, leaves without a gradient included. -/
def adjoints (expr atRoot : Expr α) : List (Expr α) :=
  expr.occurrences.map fun occurrence => occurrence.adjoint atRoot

theorem map_adjoint_under (step : Step α) (below atRoot : Expr α) :
    (below.occurrences.map (Occurrence.under step)).map
        (fun occurrence => occurrence.adjoint atRoot) =
      below.adjoints (step.adjoint below atRoot) := by
  rw [List.map_map, adjoints]
  apply List.map_congr_left
  intro occurrence hMem
  rw [Function.comp_apply, Occurrence.adjoint_under, root_of_mem_occurrences hMem]

theorem adjoints_binary (op : Op) (left right atRoot : Expr α) :
    (binary op left right).adjoints atRoot =
      atRoot :: (left.adjoints (leftTerm op left right atRoot) ++
        right.adjoints (rightTerm op left right atRoot)) := by
  rw [adjoints, occurrences, List.map_cons, List.map_append, map_adjoint_under, map_adjoint_under]
  rfl

theorem adjoints_unary (fn : Fn) (operand atRoot : Expr α) :
    (unary fn operand).adjoints atRoot =
      atRoot :: operand.adjoints (operandTerm fn operand atRoot) := by
  rw [adjoints, occurrences, List.map_cons, map_adjoint_under]
  rfl

theorem mem_adjoints_self (expr atRoot : Expr α) : atRoot ∈ expr.adjoints atRoot := by
  cases expr with
  | var | lit | const | foreign => exact List.mem_singleton.2 rfl
  | binary op left right =>
    rw [adjoints_binary]
    exact List.mem_cons_self
  | unary fn operand =>
    rw [adjoints_unary]
    exact List.mem_cons_self

/-! ## One node -/

variable {zero : α}

/-- At an operator the walk computes the left adjoint, goes left, computes the right adjoint
and goes right, or it stops before with a fault that one of the adjoints has too. -/
theorem gradientFrom_binary_cases (hZero : num.ofInt 0 = .ok zero) (op : Op)
    (left right : Expr α) (adjoint : α) (grads : IdMap α) :
    ((binary op left right).gradientFrom num adjoint grads = (do
      let leftAdjoint ← (leftTerm op left right (lit adjoint)).evaluate num
      let between ← left.gradientFrom num leftAdjoint grads
      let rightAdjoint ← (rightTerm op left right (lit adjoint)).evaluate num
      right.gradientFrom num rightAdjoint between)) ∨
    ∃ fault, (binary op left right).gradientFrom num adjoint grads = .error fault ∧
      ((leftTerm op left right (lit adjoint)).evaluate num = .error fault ∨
        (rightTerm op left right (lit adjoint)).evaluate num = .error fault) := by
  cases op with
  | add => exact Or.inl rfl
  | sub =>
    left
    simp [gradientFrom, leftTerm, rightTerm, evaluate, Arithmetic.negate, hZero]
  | mul =>
    left
    simp [gradientFrom, leftTerm, rightTerm, evaluate, Arithmetic.apply]
  | div | pow =>
    -- both operands are computed before the walk goes left: a fault of the left one is a
    -- fault of the right adjoint, and then a fault of the right one is one of the left adjoint
    cases hLeft : left.evaluate num with
    | error fault =>
      exact Or.inr ⟨fault, by simp [gradientFrom, hLeft],
        Or.inr (by simp [rightTerm, evaluate, hZero, hLeft])⟩
    | ok x =>
      cases hRight : right.evaluate num with
      | error fault =>
        exact Or.inr ⟨fault, by simp [gradientFrom, hLeft, hRight],
          Or.inl (by simp [leftTerm, evaluate, hRight])⟩
      | ok y =>
        left
        simp [gradientFrom, leftTerm, rightTerm, evaluate, Arithmetic.apply, Arithmetic.negate,
          hZero, hLeft, hRight]

theorem gradientFrom_unary (hZero : num.ofInt 0 = .ok zero) (fn : Fn) (operand : Expr α)
    (adjoint : α) (grads : IdMap α) :
    (unary fn operand).gradientFrom num adjoint grads = (do
      let operandAdjoint ← (operandTerm fn operand (lit adjoint)).evaluate num
      operand.gradientFrom num operandAdjoint grads) := by
  cases fn <;>
    simp [gradientFrom, operandTerm, evaluate, Arithmetic.apply, Arithmetic.negate, hZero]

/-! ## Entries that fail -/

/-- Some entry of a map cannot be computed, for the given reason. -/
def EntryFails (num : Arithmetic α ε) (terms : IdMap (Expr α)) (fault : Fault α ε) : Prop :=
  ∃ id term, terms.get? id = some term ∧ term.evaluate num = .error fault

namespace EntryFails

/-- A sum is computed from the left, so an entry that fails does so with terms added too. -/
theorem accumulateTerm {terms : IdMap (Expr α)} {fault : Fault α ε}
    (h : EntryFails num terms fault) (id : String) (term : Expr α) :
    EntryFails num (Expr.accumulateTerm terms id term) fault := by
  obtain ⟨other, found, hFound, hFault⟩ := h
  by_cases hOther : other = id
  · subst hOther
    exact ⟨other, _, IdMap.get?_insert_self _ _ _, by simp [evaluate, hFound, hFault]⟩
  · exact ⟨other, found, (IdMap.get?_insert_of_ne _ hOther _).trans hFound, hFault⟩

theorem addTerms {terms : IdMap (Expr α)} {fault : Fault α ε} (h : EntryFails num terms fault)
    (added : List (String × Expr α)) : EntryFails num (Expr.addTerms terms added) fault := by
  induction added generalizing terms with
  | nil => exact h
  | cons pair added ih => exact ih (h.accumulateTerm pair.1 pair.2)

end EntryFails

/-- An addition to a map fails only as the sum that it writes does. -/
theorem Mirrors.entryFails {terms : IdMap (Expr α)} {grads : IdMap α}
    (h : Mirrors num terms grads) (hZero : num.ofInt 0 = .ok zero) {adjoint : Expr α} {amount : α}
    (hAdjoint : adjoint.evaluate num = .ok amount) {id : String} {fault : Fault α ε}
    (hRun : Fault.lift (Expr.accumulate num grads id amount) = .error fault) :
    EntryFails num (accumulateTerm terms id adjoint) fault := by
  refine ⟨id, _, IdMap.get?_insert_self _ _ _, ?_⟩
  rw [evaluate, h.evaluate_getD id hZero, hAdjoint, ok_bind, ok_bind]
  rw [Expr.accumulate, hZero, ok_bind] at hRun
  change Fault.lift (num.add _ _) = .error fault
  cases hTotal : num.add ((grads.get? id).getD zero) amount with
  | error cause => simpa [hTotal] using hRun
  | ok total => simp [hTotal, pure, Except.pure] at hRun

/-! ## The walks -/

/-- Of a tree whose gradient can be computed every adjoint can be computed. -/
theorem evaluate_adjoints {expr adjoint : Expr α} {amount : α} {grads result : IdMap α}
    (hAdjoint : adjoint.evaluate num = .ok amount)
    (hRun : expr.gradientFrom num amount grads = .ok result) :
    ∀ term ∈ expr.adjoints adjoint, ∃ value, term.evaluate num = .ok value := by
  induction expr generalizing adjoint amount grads result with
  | var | lit | const =>
    intro term hMem
    cases List.mem_singleton.1 hMem
    exact ⟨amount, hAdjoint⟩
  | binary op left right ihLeft ihRight =>
    obtain ⟨leftAmount, between, rightAmount, hLeftAmount, hLeft, hRightAmount, hRight⟩ :=
      gradientFrom_binary_steps hAdjoint hRun
    intro term hMem
    rw [adjoints_binary, List.mem_cons, List.mem_append] at hMem
    rcases hMem with rfl | hMemLeft | hMemRight
    · exact ⟨amount, hAdjoint⟩
    · exact ihLeft hLeftAmount hLeft term hMemLeft
    · exact ihRight hRightAmount hRight term hMemRight
  | unary fn operand ih =>
    obtain ⟨operandAmount, hOperandAmount, hOperand⟩ := gradientFrom_unary_steps hAdjoint hRun
    intro term hMem
    rw [adjoints_unary, List.mem_cons] at hMem
    rcases hMem with rfl | hMemOperand
    · exact ⟨amount, hAdjoint⟩
    · exact ih hOperandAmount hOperand term hMemOperand
  | foreign value => cases hRun

/-- Where a numerical walk fails, an adjoint of the symbolic walk or an entry that it leaves
fails for the same reason. -/
theorem fault_of_gradientFrom (hZero : num.ofInt 0 = .ok zero) {expr adjoint : Expr α}
    (hGenuine : expr.Genuine) {amount : α} {terms : IdMap (Expr α)} {grads : IdMap α}
    (h : Mirrors num terms grads) (hAdjoint : adjoint.evaluate num = .ok amount)
    {fault : Fault α ε} (hRun : expr.gradientFrom num amount grads = .error fault) :
    (∃ term ∈ expr.adjoints adjoint, term.evaluate num = .error fault) ∨
      EntryFails num (addTerms terms (expr.contributions adjoint)) fault := by
  -- the entry that fails may get more terms before the walk is over, and after the walk to
  -- the left the maps have to mirror each other again
  induction expr generalizing adjoint amount terms grads with
  | var id data => exact Or.inr (h.entryFails hZero hAdjoint hRun)
  | lit | const => cases hRun
  | binary op left right ihLeft ihRight =>
    have hAdjoints := adjoints_binary op left right adjoint
    have hLeftMem : leftTerm op left right adjoint ∈ (binary op left right).adjoints adjoint := by
      simp [hAdjoints, mem_adjoints_self]
    have hRightMem : rightTerm op left right adjoint ∈ (binary op left right).adjoints adjoint := by
      simp [hAdjoints, mem_adjoints_self]
    have hLeftTerm := evaluate_leftTerm num op left right hAdjoint
    have hRightTerm := evaluate_rightTerm num op left right hAdjoint
    rcases gradientFrom_binary_cases hZero op left right amount grads with
      hSteps | ⟨found, hFound, hTerm⟩
    · rw [hSteps, ← hLeftTerm, ← hRightTerm, bind_eq_error_iff] at hRun
      rw [contributions_binary, addTerms, List.foldl_append]
      rcases hRun with hLeftFault | ⟨leftAmount, hLeftAmount, hRun⟩
      · exact Or.inl ⟨_, hLeftMem, hLeftFault⟩
      rcases bind_eq_error_iff.1 hRun with hWalkFault | ⟨between, hWalk, hRun⟩
      · rcases ihLeft hGenuine.1 h hLeftAmount hWalkFault with ⟨term, hMem, hFault⟩ | hEntry
        · exact Or.inl ⟨term, by simp [hAdjoints, hMem], hFault⟩
        · exact Or.inr (hEntry.addTerms _)
      rcases bind_eq_error_iff.1 hRun with hRightFault | ⟨rightAmount, hRightAmount, hRun⟩
      · exact Or.inl ⟨_, hRightMem, hRightFault⟩
      obtain ⟨_, hTerms, hBetween⟩ := h.gradientFrom hLeftAmount hWalk
      obtain ⟨-, rfl⟩ := symbolicGradientFrom_eq_ok_iff.1 hTerms
      rcases ihRight hGenuine.2 hBetween hRightAmount hRun with ⟨term, hMem, hFault⟩ | hEntry
      · exact Or.inl ⟨term, by simp [hAdjoints, hMem], hFault⟩
      · exact Or.inr hEntry
    · cases hFound.symm.trans hRun
      rw [← hLeftTerm, ← hRightTerm] at hTerm
      rcases hTerm with hLeftFault | hRightFault
      · exact Or.inl ⟨_, hLeftMem, hLeftFault⟩
      · exact Or.inl ⟨_, hRightMem, hRightFault⟩
  | unary fn operand ih =>
    have hAdjoints := adjoints_unary fn operand adjoint
    rw [gradientFrom_unary hZero, ← evaluate_operandTerm num fn operand hAdjoint,
      bind_eq_error_iff] at hRun
    rw [contributions_unary]
    rcases hRun with hFault | ⟨operandAmount, hOperandAmount, hRun⟩
    · exact Or.inl ⟨_, by simp [hAdjoints, mem_adjoints_self], hFault⟩
    · rcases ih hGenuine h hOperandAmount hRun with ⟨term, hMem, hFault⟩ | hEntry
      · exact Or.inl ⟨term, by simp [hAdjoints, hMem], hFault⟩
      · exact Or.inr hEntry
  | foreign => exact hGenuine.elim

/-- Where the gradient of a tree fails, so does an adjoint or an entry of the symbolic
gradient. -/
theorem fault_of_gradient (hZero : num.ofInt 0 = .ok zero) {expr : Expr α}
    (hGenuine : expr.Genuine) {fault : Fault α ε} (hRun : expr.gradient num = .error fault) :
    (∃ term ∈ expr.adjoints (const 1), term.evaluate num = .error fault) ∨
      EntryFails num (addTerms IdMap.empty (expr.contributions (const 1))) fault := by
  rw [gradient, bind_eq_error_iff] at hRun
  rcases hRun with hOneFault | ⟨one, hOne, hWalkFault⟩
  · exact Or.inl ⟨const 1, mem_adjoints_self expr (const 1), hOneFault⟩
  · have hRoot : (const 1 : Expr α).evaluate num = .ok one := hOne
    exact fault_of_gradientFrom hZero hGenuine .empty hRoot hWalkFault

/-- The numerical gradient of a genuine tree exists exactly if the adjoint that the symbolic
walk hands to every node can be computed, and every entry of the symbolic gradient too. If it
does not exist, then the computation of one of these expressions fails in the same way. -/
theorem gradient_succeeds_iff (hZero : ∃ zero, num.ofInt 0 = .ok zero) {expr : Expr α}
    (hGenuine : expr.Genuine) :
    ∃ terms, expr.symbolicGradient = .ok terms ∧
      ((∃ grads, expr.gradient num = .ok grads) ↔
        (∀ term ∈ expr.adjoints (const 1), ∃ value, term.evaluate num = .ok value) ∧
        ∀ id term, terms.get? id = some term → ∃ value, term.evaluate num = .ok value) ∧
      ∀ fault, expr.gradient num = .error fault →
        (∃ term ∈ expr.adjoints (const 1), term.evaluate num = .error fault) ∨
        ∃ id term, terms.get? id = some term ∧ term.evaluate num = .error fault := by
  obtain ⟨zero, hZero⟩ := hZero
  refine ⟨_, symbolicGradientFrom_eq_ok_iff.2 ⟨hGenuine, rfl⟩, ⟨?succeeds, ?computable⟩,
    fun fault hRun => fault_of_gradient hZero hGenuine hRun⟩
  case succeeds =>
    rintro ⟨grads, hGradient⟩
    obtain ⟨one, hOne, hRun⟩ := (gradient_eq_ok_iff num expr grads).1 hGradient
    refine ⟨evaluate_adjoints hOne hRun, ?_⟩
    intro id term hTerm
    obtain ⟨_, hSymbolic, hMirrors⟩ := exists_mirrors hGradient
    obtain ⟨-, rfl⟩ := symbolicGradientFrom_eq_ok_iff.1 hSymbolic
    obtain ⟨value, -, hValue⟩ := hMirrors.evaluate_eq id term hTerm
    exact ⟨value, hValue⟩
  case computable =>
    rintro ⟨hAdjoints, hEntries⟩
    cases hGradient : expr.gradient num with
    | ok grads => exact ⟨grads, rfl⟩
    | error fault =>
      rcases fault_of_gradient hZero hGenuine hGradient with
        ⟨term, hMem, hFault⟩ | ⟨id, term, hTerm, hFault⟩
      · obtain ⟨value, hValue⟩ := hAdjoints term hMem
        cases hValue.symm.trans hFault
      · obtain ⟨value, hValue⟩ := hEntries id term hTerm
        cases hValue.symm.trans hFault

/-- In decimal arithmetic `x ^ 2` has a value at -1 and no gradient: the adjoint of the
constant exponent has no value, for it needs the logarithm of the base. -/
theorem gradient_succeeds_iff_square :
    ∃ (expr : Expr Scalar) (fault : Fault Scalar ScalarError) (terms : IdMap (Expr Scalar)),
      expr = pow (var "x" (.int (-1))) (const 2) ∧
      (∃ zero, Decimal.arithmetic.ofInt 0 = .ok zero) ∧ expr.Genuine ∧
      expr.evaluate Decimal.arithmetic = .ok (.decimal (.finite false 1 0)) ∧
      expr.gradient Decimal.arithmetic = .error fault ∧
      expr.symbolicGradient = .ok terms ∧
      ¬((∀ term ∈ expr.adjoints (const 1),
          ∃ value, term.evaluate Decimal.arithmetic = .ok value) ∧
        ∀ id term, terms.get? id = some term →
          ∃ value, term.evaluate Decimal.arithmetic = .ok value) ∧
      ((∃ term ∈ expr.adjoints (const 1), term.evaluate Decimal.arithmetic = .error fault) ∨
        ∃ id term, terms.get? id = some term ∧
          term.evaluate Decimal.arithmetic = .error fault) := by
  let expr : Expr Scalar := pow (var "x" (.int (-1))) (const 2)
  let fault : Fault Scalar ScalarError := .arithmetic (.decimal .invalidOperation)
  have hZero : ∃ zero, Decimal.arithmetic.ofInt 0 = .ok zero := ⟨_, rfl⟩
  have hGenuine : expr.Genuine := by simp [expr, Genuine]
  have hGradient : expr.gradient Decimal.arithmetic = .error fault := by rfl
  obtain ⟨terms, hTerms, hIff, hFault⟩ := gradient_succeeds_iff hZero hGenuine
  refine ⟨expr, fault, terms, rfl, hZero, hGenuine, by rfl, hGradient, hTerms, ?_,
    hFault fault hGradient⟩
  intro hComputable
  obtain ⟨grads, hGrads⟩ := hIff.2 hComputable
  cases hGrads.symm.trans hGradient

end Autodiff.Expr
