import Autodiff.Proofs.Gradient.Leaves

/-!
# Two arithmetics over one tree

A tree can be computed with two arithmetics, perhaps of different scalar types. If the second
has a result wherever the first has one, and the results stay in a relation, then whole runs
do too. Nothing is said where the first arithmetic fails, so an arithmetic that fails more
often gives a weaker condition; `Arithmetic.restrict` makes such arithmetics.

* `Arithmetic.SimulatedBy` is the condition on single operations;
* `Expr.Related` are two trees of one shape with related data, `IdMap.Related` two maps with
  the same ids and related values;
* `Expr.Related.evaluate` and `Expr.Related.gradient` carry the condition over to values and
  gradients; `Expr.Related.gradientFrom` is the invariant of the walk;
* `Arithmetic.restrict` refuses operands and results outside given classes, and
  `Expr.evaluate_of_restrict` and `Expr.gradient_of_restrict` say that what is computed under
  a restriction is computed without it as well.
-/

namespace Autodiff

variable {α β ε δ : Type}

/-! ## Related trees and maps -/

/-- Where an operation of the first arithmetic has a result, that of the second has one too on
related operands, and the results are related. -/
structure Arithmetic.SimulatedBy (num : Arithmetic α ε) (other : Arithmetic β δ)
    (R : α → β → Prop) : Prop where
  apply : ∀ (op : Op) {x y z : α} {x' y' : β}, num.apply op x y = .ok z → R x x' → R y y' →
    ∃ z', other.apply op x' y' = .ok z' ∧ R z z'
  log : ∀ {x z : α} {x' : β}, num.log x = .ok z → R x x' → ∃ z', other.log x' = .ok z' ∧ R z z'
  ofInt : ∀ {n : Int} {z : α}, num.ofInt n = .ok z → ∃ z', other.ofInt n = .ok z' ∧ R z z'

/-- The same ids in the same order, with related values. -/
structure IdMap.Related (R : α → β → Prop) (first : IdMap α) (second : IdMap β) : Prop where
  ids_eq : second.ids = first.ids
  get?_eq : ∀ id value, first.get? id = some value →
    ∃ value', second.get? id = some value' ∧ R value value'

namespace IdMap.Related

variable {R : α → β → Prop} {first : IdMap α} {second : IdMap β}

theorem empty : Related R IdMap.empty IdMap.empty where
  ids_eq := rfl
  get?_eq := by
    intro id value hValue
    cases hValue

theorem insert (h : Related R first second) (id : String) {value : α} {value' : β}
    (hValue : R value value') : Related R (first.insert id value) (second.insert id value') where
  ids_eq := by rw [ids_insert, ids_insert, h.ids_eq]
  get?_eq := by
    intro key found hFound
    rw [get?_insert] at hFound ⊢
    by_cases hKey : key = id
    · rw [if_pos hKey] at hFound ⊢
      cases hFound
      exact ⟨value', rfl, hValue⟩
    · rw [if_neg hKey] at hFound ⊢
      exact h.get?_eq key found hFound

theorem getD (h : Related R first second) (id : String) {absent : α} {absent' : β}
    (hAbsent : R absent absent') :
    R ((first.get? id).getD absent) ((second.get? id).getD absent') := by
  cases hFirst : first.get? id with
  | none =>
    have hMem : id ∉ second.ids := h.ids_eq ▸ (get?_eq_none_iff first id).1 hFirst
    rwa [(get?_eq_none_iff second id).2 hMem]
  | some value =>
    obtain ⟨value', hValue', hR⟩ := h.get?_eq id value hFirst
    rwa [hValue']

theorem eq_of_lookup {entries : List (String × α)} (hNodup : (entries.map Prod.fst).Nodup)
    {other : List (String × α)} (hKeys : other.map Prod.fst = entries.map Prod.fst)
    (hLookup : ∀ id value, entries.lookup id = some value → other.lookup id = some value) :
    other = entries := by
  induction entries generalizing other with
  | nil => exact List.map_eq_nil_iff.1 hKeys
  | cons entry rest ih =>
    obtain ⟨key, value⟩ := entry
    obtain ⟨entry', rest', rfl, hKey, hRest⟩ := List.map_eq_cons_iff.1 hKeys
    obtain ⟨key', value'⟩ := entry'
    obtain rfl : key' = key := hKey
    rw [List.map_cons, List.nodup_cons] at hNodup
    have hValue := hLookup key' value List.lookup_cons_self
    rw [List.lookup_cons_self, Option.some.injEq] at hValue
    rw [hValue, ih hNodup.2 hRest]
    intro id found hFound
    -- the first key does not occur again, so the other keys are looked up in the rest
    have hNe : id ≠ key' := by
      rintro rfl
      have hAbsent := (get?_eq_none_iff ⟨rest, hNodup.2⟩ id).2 hNodup.1
      exact absurd (hAbsent.symm.trans hFound) (by simp)
    have hBeq : (id == key') = false := beq_eq_false_iff_ne.2 hNe
    have hOther := hLookup id found (by rw [List.lookup_cons, hBeq]; exact hFound)
    rwa [List.lookup_cons, hBeq] at hOther

/-- A map is determined by its ids and its values. -/
theorem eq {first second : IdMap α} (h : Related Eq first second) : second = first := by
  obtain ⟨entries, hNodup⟩ := first
  obtain ⟨other, hNodup'⟩ := second
  have hEntries : other = entries := by
    refine eq_of_lookup hNodup h.ids_eq fun id value hValue => ?_
    obtain ⟨value', hValue', rfl⟩ := h.get?_eq id value hValue
    exact hValue'
  subst hEntries
  rfl

end IdMap.Related

namespace Expr

/-- Trees of one shape with the same ids and constants, the data of which are related. -/
inductive Related (R : α → β → Prop) : Expr α → Expr β → Prop
  | var (id : String) {x : α} {x' : β} (hData : R x x') : Related R (var id x) (var id x')
  | lit {x : α} {x' : β} (hData : R x x') : Related R (lit x) (lit x')
  | const (n : Int) : Related R (const n) (const n)
  | binary (op : Op) {left right : Expr α} {left' right' : Expr β} (hLeft : Related R left left')
      (hRight : Related R right right') :
      Related R (binary op left right) (binary op left' right')
  | unary (fn : Fn) {operand : Expr α} {operand' : Expr β} (hOperand : Related R operand operand') :
      Related R (unary fn operand) (unary fn operand')
  | foreign {x : α} {x' : β} (hData : R x x') : Related R (foreign x) (foreign x')

theorem related_map {R : α → β → Prop} {f : α → β} (hData : ∀ x, R x (f x)) (expr : Expr α) :
    Related R expr (expr.map f) := by
  induction expr with
  | var id x => exact .var id (hData x)
  | lit x => exact .lit (hData x)
  | const n => exact .const n
  | binary op left right ihLeft ihRight => exact .binary op ihLeft ihRight
  | unary fn operand ih => exact .unary fn ih
  | foreign x => exact .foreign (hData x)

theorem related_eq (expr : Expr α) : Related Eq expr expr := by
  induction expr with
  | var id x => exact .var id rfl
  | lit x => exact .lit rfl
  | const n => exact .const n
  | binary op left right ihLeft ihRight => exact .binary op ihLeft ihRight
  | unary fn operand ih => exact .unary fn ih
  | foreign x => exact .foreign rfl

/-- A tree is related to itself if each of its leaves is. -/
theorem related_self {R : α → α → Prop} {P : Expr α → Prop}
    (hLeaf : ∀ leaf, P leaf → Related R leaf leaf) {expr : Expr α} (hExpr : expr.EveryLeaf P) :
    Related R expr expr := by
  induction expr with
  | var | lit | const | foreign => exact hLeaf _ hExpr
  | binary op left right ihLeft ihRight => exact .binary op (ihLeft hExpr.1) (ihRight hExpr.2)
  | unary fn operand ih => exact .unary fn (ih hExpr)

namespace Related

variable {num : Arithmetic α ε} {other : Arithmetic β δ} {R : α → β → Prop}
  {expr : Expr α} {expr' : Expr β}

/-! ## Values -/

/-- If a tree has a value, a related tree has a related value. -/
theorem evaluate (hSimulated : num.SimulatedBy other R) (hRelated : Related R expr expr')
    {value : α} (hValue : expr.evaluate num = .ok value) :
    ∃ value', expr'.evaluate other = .ok value' ∧ R value value' := by
  induction hRelated generalizing value with
  | var id hData | lit hData =>
    cases hValue
    exact ⟨_, rfl, hData⟩
  | const n =>
    rw [Expr.evaluate, Fault.lift_eq_ok_iff] at hValue
    obtain ⟨value', hValue', hR⟩ := hSimulated.ofInt hValue
    exact ⟨value', by simp [Expr.evaluate, hValue'], hR⟩
  | binary op _ _ ihLeft ihRight =>
    simp only [Expr.evaluate, bind_eq_ok_iff, Fault.lift_eq_ok_iff] at hValue
    obtain ⟨x, hX, y, hY, hApply⟩ := hValue
    obtain ⟨x', hX', hLeft⟩ := ihLeft hX
    obtain ⟨y', hY', hRight⟩ := ihRight hY
    obtain ⟨value', hValue', hR⟩ := hSimulated.apply op hApply hLeft hRight
    exact ⟨value', by simp [Expr.evaluate, hX', hY', hValue'], hR⟩
  | unary fn _ ih =>
    cases fn with
    | neg =>
      simp only [Expr.evaluate, bind_eq_ok_iff, Fault.lift_eq_ok_iff] at hValue
      obtain ⟨zero, hZero, x, hX, hSub⟩ := hValue
      obtain ⟨zero', hZero', hZeroR⟩ := hSimulated.ofInt hZero
      obtain ⟨x', hX', hOperand⟩ := ih hX
      obtain ⟨value', hValue', hR⟩ := hSimulated.apply .sub hSub hZeroR hOperand
      refine ⟨value', ?_, hR⟩
      simp only [Expr.evaluate, hZero', hX', Fault.lift_ok, ok_bind]
      exact Fault.lift_eq_ok_iff.2 hValue'
    | log =>
      simp only [Expr.evaluate, bind_eq_ok_iff, Fault.lift_eq_ok_iff] at hValue
      obtain ⟨x, hX, hLog⟩ := hValue
      obtain ⟨x', hX', hOperand⟩ := ih hX
      obtain ⟨value', hValue', hR⟩ := hSimulated.log hLog hOperand
      exact ⟨value', by simp [Expr.evaluate, hX', hValue'], hR⟩
  | foreign => cases hValue

/-! ## Gradients -/

theorem leftTerm (op : Op) {left right adjoint : Expr α} {left' right' adjoint' : Expr β}
    (hLeft : Related R left left') (hRight : Related R right right')
    (hAdjoint : Related R adjoint adjoint') :
    Related R (leftTerm op left right adjoint) (Expr.leftTerm op left' right' adjoint') := by
  cases op with
  | add | sub => exact hAdjoint
  | mul => exact .binary .mul hAdjoint hRight
  | div => exact .binary .div hAdjoint hRight
  | pow =>
    have hLowered := Related.binary .sub hRight (.const 1)
    exact .binary .mul hAdjoint (.binary .mul hRight (.binary .pow hLeft hLowered))

theorem rightTerm (op : Op) {left right adjoint : Expr α} {left' right' adjoint' : Expr β}
    (hLeft : Related R left left') (hRight : Related R right right')
    (hAdjoint : Related R adjoint adjoint') :
    Related R (rightTerm op left right adjoint) (Expr.rightTerm op left' right' adjoint') := by
  cases op with
  | add => exact hAdjoint
  | sub => exact .unary .neg hAdjoint
  | mul => exact .binary .mul hAdjoint hLeft
  | div =>
    have hSquare := Related.binary .mul hRight hRight
    exact .unary .neg (.binary .div (.binary .mul hAdjoint hLeft) hSquare)
  | pow =>
    have hPower := Related.binary .pow hLeft hRight
    exact .binary .mul hAdjoint (.binary .mul hPower (.unary .log hLeft))

theorem operandTerm (fn : Fn) {operand adjoint : Expr α} {operand' adjoint' : Expr β}
    (hOperand : Related R operand operand') (hAdjoint : Related R adjoint adjoint') :
    Related R (operandTerm fn operand adjoint) (Expr.operandTerm fn operand' adjoint') := by
  cases fn with
  | neg => exact .unary .neg hAdjoint
  | log => exact .binary .div hAdjoint hOperand

theorem accumulate (hSimulated : num.SimulatedBy other R) {grads result : IdMap α}
    {grads' : IdMap β} (hGrads : IdMap.Related R grads grads') {id : String} {amount : α}
    {amount' : β} (hAmount : R amount amount')
    (hRun : Expr.accumulate num grads id amount = .ok result) :
    ∃ result', Expr.accumulate other grads' id amount' = .ok result' ∧
      IdMap.Related R result result' := by
  simp only [Expr.accumulate, bind_eq_ok_iff] at hRun
  obtain ⟨zero, hZero, total, hTotal, hInsert⟩ := hRun
  cases hInsert
  obtain ⟨zero', hZero', hZeroR⟩ := hSimulated.ofInt hZero
  obtain ⟨total', hTotal', hTotalR⟩ :=
    hSimulated.apply .add hTotal (hGrads.getD id hZeroR) hAmount
  refine ⟨grads'.insert id total', ?_, hGrads.insert id hTotalR⟩
  simp only [Expr.accumulate, hZero', ok_bind]
  exact bind_eq_ok_iff.2 ⟨total', hTotal', rfl⟩

/-- A walk over a related tree, from a related adjoint and map, leaves a related map behind. -/
theorem gradientFrom (hSimulated : num.SimulatedBy other R) (hRelated : Related R expr expr')
    {adjoint : α} {adjoint' : β} (hAdjoint : R adjoint adjoint') {grads result : IdMap α}
    {grads' : IdMap β} (hGrads : IdMap.Related R grads grads')
    (hRun : expr.gradientFrom num adjoint grads = .ok result) :
    ∃ result', expr'.gradientFrom other adjoint' grads' = .ok result' ∧
      IdMap.Related R result result' := by
  induction hRelated generalizing adjoint adjoint' grads grads' result with
  | var id hData =>
    rw [Expr.gradientFrom, Fault.lift_eq_ok_iff] at hRun
    obtain ⟨result', hResult', hMaps⟩ := accumulate hSimulated hGrads hAdjoint hRun
    exact ⟨result', by rw [Expr.gradientFrom, Fault.lift_eq_ok_iff]; exact hResult', hMaps⟩
  | lit | const =>
    cases hRun
    exact ⟨grads', rfl, hGrads⟩
  | binary op hLeft hRight ihLeft ihRight =>
    obtain ⟨leftAdjoint, between, rightAdjoint, hLeftAdjoint, hByLeft, hRightAdjoint, hByRight⟩ :=
      (gradientFrom_binary_eq_ok_iff num op _ _ adjoint grads result).1 hRun
    have hLit : Related R (Expr.lit adjoint) (Expr.lit adjoint') := .lit hAdjoint
    obtain ⟨leftAdjoint', hLeftAdjoint', hLeftR⟩ :=
      (hLeft.leftTerm op hRight hLit).evaluate hSimulated hLeftAdjoint
    obtain ⟨rightAdjoint', hRightAdjoint', hRightR⟩ :=
      (hLeft.rightTerm op hRight hLit).evaluate hSimulated hRightAdjoint
    obtain ⟨between', hByLeft', hBetween⟩ := ihLeft hLeftR hGrads hByLeft
    obtain ⟨result', hByRight', hMaps⟩ := ihRight hRightR hBetween hByRight
    refine ⟨result', ?_, hMaps⟩
    exact (gradientFrom_binary_eq_ok_iff other op _ _ adjoint' grads' result').2
      ⟨leftAdjoint', between', rightAdjoint', hLeftAdjoint', hByLeft', hRightAdjoint', hByRight'⟩
  | unary fn hOperand ih =>
    obtain ⟨operandAdjoint, hOperandAdjoint, hBelow⟩ :=
      (gradientFrom_unary_eq_ok_iff num fn _ adjoint grads result).1 hRun
    obtain ⟨operandAdjoint', hOperandAdjoint', hR⟩ :=
      (hOperand.operandTerm fn (.lit hAdjoint)).evaluate hSimulated hOperandAdjoint
    obtain ⟨result', hBelow', hMaps⟩ := ih hR hGrads hBelow
    refine ⟨result', ?_, hMaps⟩
    exact (gradientFrom_unary_eq_ok_iff other fn _ adjoint' grads' result').2
      ⟨operandAdjoint', hOperandAdjoint', hBelow'⟩
  | foreign => cases hRun

/-- If a tree has a gradient, a related tree has a related gradient. -/
theorem gradient (hSimulated : num.SimulatedBy other R) (hRelated : Related R expr expr')
    {grads : IdMap α} (hGradient : expr.gradient num = .ok grads) :
    ∃ grads', expr'.gradient other = .ok grads' ∧ IdMap.Related R grads grads' := by
  obtain ⟨one, hOne, hRun⟩ := (gradient_eq_ok_iff num expr grads).1 hGradient
  obtain ⟨one', hOne', hR⟩ := (Related.const 1).evaluate hSimulated hOne
  obtain ⟨grads', hRun', hMaps⟩ := hRelated.gradientFrom hSimulated hR .empty hRun
  exact ⟨grads', (gradient_eq_ok_iff other expr' grads').2 ⟨one', hOne', hRun'⟩, hMaps⟩

end Related

end Expr

/-! ## Restricted arithmetic -/

namespace Arithmetic

/-- A result, if it is in a class; a refusal has no cause. -/
def checked (accepts : α → Bool) : Except ε α → Except (Option ε) α
  | .ok value => if accepts value then .ok value else .error none
  | .error cause => .error (some cause)

theorem checked_eq_ok_iff {accepts : α → Bool} {outcome : Except ε α} {value : α} :
    checked accepts outcome = .ok value ↔ outcome = .ok value ∧ accepts value = true := by
  cases outcome with
  | error => simp [checked]
  | ok found =>
    simp only [checked, Except.ok.injEq]
    split
    · next hFound =>
      rw [Except.ok.injEq, iff_self_and]
      rintro rfl
      exact hFound
    · next hFound =>
      simp only [reduceCtorEq, false_iff, not_and]
      rintro rfl
      exact hFound

/-- The arithmetic that refuses operands outside one class and results outside another. -/
def restrict (num : Arithmetic α ε) (operand result : α → Bool) : Arithmetic α (Option ε) where
  add x y := if operand x && operand y then checked result (num.add x y) else .error none
  sub x y := if operand x && operand y then checked result (num.sub x y) else .error none
  mul x y := if operand x && operand y then checked result (num.mul x y) else .error none
  div x y := if operand x && operand y then checked result (num.div x y) else .error none
  pow x y := if operand x && operand y then checked result (num.pow x y) else .error none
  log x := if operand x then checked result (num.log x) else .error none
  ofInt n := checked result (num.ofInt n)

variable {num : Arithmetic α ε} {operand result : α → Bool}

theorem restrict_apply_eq_ok_iff {op : Op} {x y z : α} :
    (num.restrict operand result).apply op x y = .ok z ↔
      operand x = true ∧ operand y = true ∧ num.apply op x y = .ok z ∧ result z = true := by
  have hOp : (num.restrict operand result).apply op x y =
      if operand x && operand y then checked result (num.apply op x y) else .error none := by
    cases op <;> rfl
  rw [hOp]
  split
  · next hOperands =>
    rw [Bool.and_eq_true] at hOperands
    simp [checked_eq_ok_iff, hOperands]
  · next hOperands =>
    rw [Bool.and_eq_true, not_and] at hOperands
    simp only [reduceCtorEq, false_iff]
    exact fun h => hOperands h.1 h.2.1

theorem restrict_log_eq_ok_iff {x z : α} :
    (num.restrict operand result).log x = .ok z ↔
      operand x = true ∧ num.log x = .ok z ∧ result z = true := by
  simp only [restrict]
  split
  · next hOperand => simp [checked_eq_ok_iff, hOperand]
  · next hOperand => simp [hOperand]

theorem restrict_ofInt_eq_ok_iff {n : Int} {z : α} :
    (num.restrict operand result).ofInt n = .ok z ↔ num.ofInt n = .ok z ∧ result z = true :=
  checked_eq_ok_iff

/-- What is computed under a restriction is computed without it. -/
theorem restrict_simulatedBy (num : Arithmetic α ε) (operand result : α → Bool) :
    (num.restrict operand result).SimulatedBy num Eq where
  apply := by
    rintro op x y z _ _ hApply rfl rfl
    exact ⟨z, (restrict_apply_eq_ok_iff.1 hApply).2.2.1, rfl⟩
  log := by
    rintro x z _ hLog rfl
    exact ⟨z, (restrict_log_eq_ok_iff.1 hLog).2.1, rfl⟩
  ofInt := by
    intro n z hInt
    exact ⟨z, (restrict_ofInt_eq_ok_iff.1 hInt).1, rfl⟩

end Arithmetic

namespace Expr

variable {num : Arithmetic α ε} {operand result : α → Bool} {expr : Expr α}

theorem evaluate_of_restrict {value : α}
    (hValue : expr.evaluate (num.restrict operand result) = .ok value) :
    expr.evaluate num = .ok value := by
  obtain ⟨_, hPlain, rfl⟩ :=
    (related_eq expr).evaluate (Arithmetic.restrict_simulatedBy num operand result) hValue
  exact hPlain

theorem gradient_of_restrict {grads : IdMap α}
    (hGradient : expr.gradient (num.restrict operand result) = .ok grads) :
    expr.gradient num = .ok grads := by
  obtain ⟨grads', hPlain, hMaps⟩ :=
    (related_eq expr).gradient (Arithmetic.restrict_simulatedBy num operand result) hGradient
  rwa [hMaps.eq] at hPlain

end Expr

end Autodiff
