import Mathlib.Data.List.Basic
import Mathlib.Data.List.Induction
import Autodiff.Capability.Decimal
import Autodiff.Proofs.Expr.Occurrence
import Autodiff.Proofs.Gradient.Adjoint

/-!
# What the leaves contribute

Every variable leaf of a tree contributes one adjoint to the entry of its id. The adjoint
that arrives at a place is a matter of the path to it alone; a walk over the tree only adds
these adjoints to its map, from left to right. Since an addition of scalars need not be
associative, the order matters, and the statements keep it.

* `Occurrence.adjoint` is the adjoint that arrives at a place, as an expression, and
  `contributions` lists the adjoints of the variable leaves with their ids;
* `symbolicGradientFrom_eq_ok_iff` says that the symbolic walk adds the contributions to its
  map, and `addAmounts_of_gradientFrom` that the numerical walk adds their values;
* `get?_addTerms` and `entrySum_of_addAmounts` say what that does to the entry of an id, and
  `variableIds_of_symbolicGradient` that the ids are the variables of the tree in order;
* `walks_add_contributions` puts all this together.
-/

namespace Autodiff

variable {α ε : Type}

/-! ## The adjoint at a place -/

/-- The adjoint that a step hands to the operand below, from the adjoint of the node. -/
def Step.adjoint : Step α → Expr α → Expr α → Expr α
  | left op beside, below, adjoint => Expr.leftTerm op below beside adjoint
  | right op beside, below, adjoint => Expr.rightTerm op beside below adjoint
  | operand fn, below, adjoint => Expr.operandTerm fn below adjoint

namespace Occurrence

/-- The adjoint at the end of a path, from the adjoint at its start. -/
def adjointAlong (node : Expr α) : List (Step α) → Expr α → Expr α
  | [], adjoint => adjoint
  | step :: path, adjoint => adjointAlong node path (step.adjoint (root ⟨path, node⟩) adjoint)

/-- The adjoint that arrives at a place, from the adjoint of the root. -/
def adjoint (occurrence : Occurrence α) (atRoot : Expr α) : Expr α :=
  adjointAlong occurrence.node occurrence.path atRoot

theorem adjoint_under (step : Step α) (occurrence : Occurrence α) (atRoot : Expr α) :
    (occurrence.under step).adjoint atRoot =
      occurrence.adjoint (step.adjoint occurrence.root atRoot) := rfl

/-- The id of a variable leaf and the adjoint that arrives there. -/
def contribution? (atRoot : Expr α) (occurrence : Occurrence α) : Option (String × Expr α) :=
  occurrence.node.id?.map fun id => (id, occurrence.adjoint atRoot)

end Occurrence

namespace Expr

/-- The ids of the variable leaves with the adjoints that arrive there, left to right. -/
def contributions (expr atRoot : Expr α) : List (String × Expr α) :=
  expr.occurrences.filterMap (Occurrence.contribution? atRoot)

/-- There is one contribution for each variable leaf, in the order of the leaves. -/
theorem map_fst_contributions (expr atRoot : Expr α) :
    (expr.contributions atRoot).map Prod.fst =
      (expr.occurrences.map Occurrence.node).filterMap id? := by
  rw [contributions, List.map_filterMap, List.filterMap_map]
  apply List.filterMap_congr
  intro occurrence _
  simp [Occurrence.contribution?, Function.comp_def]

/-- A subtree contributes what it does as a tree with the adjoint that it is handed. -/
theorem filterMap_contribution?_under (step : Step α) (below atRoot : Expr α) :
    (below.occurrences.map (Occurrence.under step)).filterMap (Occurrence.contribution? atRoot) =
      below.contributions (step.adjoint below atRoot) := by
  rw [List.filterMap_map, contributions]
  apply List.filterMap_congr
  intro occurrence hMem
  simp [Occurrence.contribution?, Occurrence.adjoint_under, root_of_mem_occurrences hMem]

theorem contributions_binary (op : Op) (left right atRoot : Expr α) :
    (binary op left right).contributions atRoot =
      left.contributions (leftTerm op left right atRoot) ++
        right.contributions (rightTerm op left right atRoot) := by
  rw [contributions, occurrences, List.filterMap_cons_none (by rfl), List.filterMap_append,
    filterMap_contribution?_under, filterMap_contribution?_under]
  rfl

theorem contributions_unary (fn : Fn) (operand atRoot : Expr α) :
    (unary fn operand).contributions atRoot =
      operand.contributions (operandTerm fn operand atRoot) := by
  rw [contributions, occurrences, List.filterMap_cons_none (by rfl), filterMap_contribution?_under]
  rfl

/-! ## Adding to a map -/

/-- The values that a list of pairs holds for an id, in order. -/
def valuesOf {β : Type} (id : String) (pairs : List (String × β)) : List β :=
  pairs.filterMap fun pair => if pair.1 = id then some pair.2 else none

theorem valuesOf_cons_self {β : Type} (id : String) (value : β) (pairs : List (String × β)) :
    valuesOf id ((id, value) :: pairs) = value :: valuesOf id pairs := by
  simp [valuesOf]

theorem valuesOf_cons_of_ne {β : Type} {id key : String} (hNe : key ≠ id) (value : β)
    (pairs : List (String × β)) : valuesOf id ((key, value) :: pairs) = valuesOf id pairs := by
  simp [valuesOf, hNe]

/-- Add terms to the entries of their ids, one after the other. -/
def addTerms (grads : IdMap (Expr α)) (terms : List (String × Expr α)) : IdMap (Expr α) :=
  terms.foldl (fun current term => accumulateTerm current term.1 term.2) grads

/-- The entry of an id after terms were added to it one after the other. An absent entry
counts as the constant 0, and without terms the entry stays as it is. -/
def entrySum (before : Option (Expr α)) : List (Expr α) → Option (Expr α)
  | [] => before
  | term :: terms => some ((term :: terms).foldl add (before.getD (const 0)))

theorem entrySum_cons (before : Option (Expr α)) (term : Expr α) (terms : List (Expr α)) :
    entrySum before (term :: terms) =
      entrySum (some (add (before.getD (const 0)) term)) terms := by
  cases terms <;> rfl

theorem get?_addTerms (grads : IdMap (Expr α)) (terms : List (String × Expr α)) (id : String) :
    (addTerms grads terms).get? id = entrySum (grads.get? id) (valuesOf id terms) := by
  induction terms generalizing grads with
  | nil => rfl
  | cons pair terms ih =>
    obtain ⟨key, term⟩ := pair
    have hStep : addTerms grads ((key, term) :: terms) =
      addTerms (accumulateTerm grads key term) terms := rfl
    rw [hStep, ih]
    by_cases hKey : key = id
    · subst hKey
      rw [valuesOf_cons_self, entrySum_cons, accumulateTerm, IdMap.get?_insert_self]
    · rw [valuesOf_cons_of_ne hKey, accumulateTerm, IdMap.get?_insert_of_ne _ (Ne.symm hKey)]

/-- The ids of a map after terms were added are those it had, and then the new ones in the
order in which they are first written. -/
theorem ids_addTerms {grads : IdMap (Expr α)} {seen : IdMap Unit} (hIds : grads.ids = seen.ids)
    (terms : List (String × Expr α)) :
    (addTerms grads terms).ids =
      ((terms.map Prod.fst).foldl (fun seen id => seen.insert id ()) seen).ids := by
  induction terms generalizing grads seen with
  | nil => exact hIds
  | cons pair terms ih =>
    refine ih ?_
    simp only [accumulateTerm, IdMap.ids_insert, hIds]

/-- Add amounts to the entries of their ids, one after the other. -/
def addAmounts (num : Arithmetic α ε) (grads : IdMap α) (amounts : List (String × α)) :
    Except ε (IdMap α) :=
  amounts.foldlM (fun current amount => accumulate num current amount.1 amount.2) grads

/-- The entry of an id after amounts were added to it one after the other. An absent entry
counts as zero, and without amounts the entry stays as it is. -/
def EntrySum (num : Arithmetic α ε) (before : Option α) : List α → Option α → Prop
  | [], after => after = before
  | amount :: amounts, after =>
    ∃ zero total, num.ofInt 0 = .ok zero ∧
      (amount :: amounts).foldlM num.add (before.getD zero) = .ok total ∧ after = some total

theorem EntrySum.cons {num : Arithmetic α ε} {before after : Option α} {zero amount total : α}
    {amounts : List α} (hZero : num.ofInt 0 = .ok zero)
    (hTotal : num.add (before.getD zero) amount = .ok total)
    (hRest : EntrySum num (some total) amounts after) :
    EntrySum num before (amount :: amounts) after := by
  refine ⟨zero, ?_⟩
  rw [List.foldlM_cons, hTotal, ok_bind]
  cases amounts with
  | nil => exact ⟨total, hZero, rfl, hRest⟩
  | cons next amounts =>
    obtain ⟨_, final, _, hFold, hAfter⟩ := hRest
    exact ⟨final, hZero, hFold, hAfter⟩

theorem accumulate_eq_ok_iff {num : Arithmetic α ε} {grads result : IdMap α} {id : String}
    {amount : α} :
    accumulate num grads id amount = .ok result ↔
      ∃ zero, num.ofInt 0 = .ok zero ∧ ∃ total,
        num.add ((grads.get? id).getD zero) amount = .ok total ∧ grads.insert id total = result := by
  simp only [accumulate, bind_eq_ok_iff, pure, Except.pure, Except.ok.injEq]

theorem entrySum_of_addAmounts {num : Arithmetic α ε} {grads result : IdMap α}
    {amounts : List (String × α)} (hRun : addAmounts num grads amounts = .ok result) (id : String) :
    EntrySum num (grads.get? id) (valuesOf id amounts) (result.get? id) := by
  induction amounts generalizing grads with
  | nil =>
    cases hRun
    rfl
  | cons pair amounts ih =>
    obtain ⟨key, amount⟩ := pair
    rw [addAmounts, List.foldlM_cons, bind_eq_ok_iff] at hRun
    obtain ⟨between, hFirst, hRest⟩ := hRun
    obtain ⟨zero, hZero, total, hTotal, rfl⟩ := accumulate_eq_ok_iff.1 hFirst
    have hSum := ih hRest
    by_cases hKey : key = id
    · subst hKey
      rw [IdMap.get?_insert_self] at hSum
      rw [valuesOf_cons_self]
      exact .cons hZero hTotal hSum
    · rw [IdMap.get?_insert_of_ne _ (Ne.symm hKey)] at hSum
      rwa [valuesOf_cons_of_ne hKey]

/-! ## The walks -/

/-- The symbolic walk succeeds on the genuine trees, and it adds the contributions. -/
theorem symbolicGradientFrom_eq_ok_iff {expr adjoint : Expr α} {grads result : IdMap (Expr α)} :
    expr.symbolicGradientFrom adjoint grads = .ok result ↔
      expr.Genuine ∧ result = addTerms grads (expr.contributions adjoint) := by
  induction expr generalizing adjoint grads result with
  | var id data =>
    simp only [symbolicGradientFrom, Except.ok.injEq, Genuine, true_and]
    exact eq_comm
  | lit | const =>
    simp only [symbolicGradientFrom, Except.ok.injEq, Genuine, true_and]
    exact eq_comm
  | binary op left right ihLeft ihRight =>
    rw [symbolicGradientFrom_binary, bind_eq_ok_iff, contributions_binary, addTerms,
      List.foldl_append]
    constructor
    · rintro ⟨between, hLeft, hRight⟩
      obtain ⟨hGenuineLeft, rfl⟩ := ihLeft.1 hLeft
      obtain ⟨hGenuineRight, rfl⟩ := ihRight.1 hRight
      exact ⟨⟨hGenuineLeft, hGenuineRight⟩, rfl⟩
    · rintro ⟨⟨hGenuineLeft, hGenuineRight⟩, rfl⟩
      exact ⟨_, ihLeft.2 ⟨hGenuineLeft, rfl⟩, ihRight.2 ⟨hGenuineRight, rfl⟩⟩
  | unary fn operand ih =>
    rw [symbolicGradientFrom_unary, contributions_unary]
    exact ih
  | foreign value => simp [symbolicGradientFrom, Genuine]

/-- The ids of a symbolic gradient are the variables of its tree, in order. -/
theorem variableIds_of_symbolicGradient {expr : Expr α} {terms : IdMap (Expr α)}
    (hRun : expr.symbolicGradient = .ok terms) : expr.variableIds = .ok terms.ids := by
  obtain ⟨hGenuine, rfl⟩ := symbolicGradientFrom_eq_ok_iff.1 hRun
  have hEmpty : (IdMap.empty : IdMap (Expr α)).ids = (IdMap.empty : IdMap Unit).ids := rfl
  have hIds := ids_addTerms hEmpty (expr.contributions (const 1))
  rw [map_fst_contributions] at hIds
  rw [variableIds, preorder_eq_occurrences hGenuine, ok_bind, hIds]
  rfl

/-- The contributions with their values in the place of the expressions. -/
def evaluateAll (num : Arithmetic α ε) (terms : List (String × Expr α)) :
    Except (Fault α ε) (List (String × α)) :=
  terms.mapM fun term => do
    let value ← term.2.evaluate num
    return (term.1, value)

theorem evaluateAll_append {num : Arithmetic α ε} {front back : List (String × Expr α)}
    {frontAmounts backAmounts : List (String × α)}
    (hFront : evaluateAll num front = .ok frontAmounts)
    (hBack : evaluateAll num back = .ok backAmounts) :
    evaluateAll num (front ++ back) = .ok (frontAmounts ++ backAmounts) := by
  rw [evaluateAll] at hFront hBack ⊢
  rw [List.mapM_append, hFront, hBack]
  rfl

theorem addAmounts_append {num : Arithmetic α ε} {grads between result : IdMap α}
    {front back : List (String × α)} (hFront : addAmounts num grads front = .ok between)
    (hBack : addAmounts num between back = .ok result) :
    addAmounts num grads (front ++ back) = .ok result := by
  rw [addAmounts] at hFront hBack ⊢
  rw [List.foldlM_append, hFront]
  exact hBack

/-- A numerical walk that succeeds adds the values of the contributions. The adjoint may be
any expression that has the given value. -/
theorem addAmounts_of_gradientFrom {num : Arithmetic α ε} {expr adjoint : Expr α} {amount : α}
    {grads result : IdMap α} (hAdjoint : adjoint.evaluate num = .ok amount)
    (hRun : expr.gradientFrom num amount grads = .ok result) :
    ∃ amounts, evaluateAll num (expr.contributions adjoint) = .ok amounts ∧
      addAmounts num grads amounts = .ok result := by
  -- an operand is handed the value of an expression in the adjoint of its node, so the
  -- induction is over all expressions that have the value of the adjoint
  induction expr generalizing adjoint amount grads result with
  | var id data =>
    rw [gradientFrom, Fault.lift_eq_ok_iff] at hRun
    refine ⟨[(id, amount)], ?_, ?_⟩
    · have hTerms : (var id data).contributions adjoint = [(id, adjoint)] := rfl
      simp [hTerms, evaluateAll, hAdjoint]
    · simp [addAmounts, hRun]
  | lit | const =>
    cases hRun
    exact ⟨[], rfl, rfl⟩
  | binary op left right ihLeft ihRight =>
    obtain ⟨leftAmount, between, rightAmount, hLeftAmount, hLeft, hRightAmount, hRight⟩ :=
      gradientFrom_binary_steps hAdjoint hRun
    obtain ⟨leftAmounts, hLeftValues, hLeftSum⟩ := ihLeft hLeftAmount hLeft
    obtain ⟨rightAmounts, hRightValues, hRightSum⟩ := ihRight hRightAmount hRight
    refine ⟨leftAmounts ++ rightAmounts, ?_, addAmounts_append hLeftSum hRightSum⟩
    rw [contributions_binary]
    exact evaluateAll_append hLeftValues hRightValues
  | unary fn operand ih =>
    obtain ⟨operandAmount, hOperandAmount, hOperand⟩ := gradientFrom_unary_steps hAdjoint hRun
    rw [contributions_unary]
    exact ih hOperandAmount hOperand
  | foreign value => cases hRun

/-- Only a genuine tree has a numerical gradient. -/
theorem genuine_of_gradientFrom {num : Arithmetic α ε} {expr : Expr α} {amount : α}
    {grads result : IdMap α} (hRun : expr.gradientFrom num amount grads = .ok result) :
    expr.Genuine := by
  induction expr generalizing amount grads result with
  | var | lit | const => trivial
  | binary op left right ihLeft ihRight =>
    obtain ⟨_, _, _, _, hLeft, _, hRight⟩ :=
      (gradientFrom_binary_eq_ok_iff num op left right amount grads result).1 hRun
    exact ⟨ihLeft hLeft, ihRight hRight⟩
  | unary fn operand ih =>
    obtain ⟨_, _, hOperand⟩ :=
      (gradientFrom_unary_eq_ok_iff num fn operand amount grads result).1 hRun
    exact ih hOperand
  | foreign value => cases hRun

/-! ## Spines -/

/-- A sum of the given number of terms to the constant 0, each added on the right. -/
def IsSpine : Nat → Expr α → Prop
  | 0, expr => expr = const 0
  | n + 1, expr => ∃ rest term, expr = add rest term ∧ rest.IsSpine n

theorem isSpine_foldl (terms : List (Expr α)) :
    (terms.foldl add (const 0)).IsSpine terms.length := by
  -- the outermost sum is the last one written
  induction terms using List.reverseRecOn with
  | nil => rfl
  | append_singleton terms term ih =>
    rw [List.foldl_append, List.length_append]
    exact ⟨_, term, rfl, ih⟩

/-- An entry of the symbolic gradient is the sum of the adjoints at the leaves of its variable,
each added on the right. -/
theorem exists_foldl_of_symbolicGradient {expr : Expr α} {terms : IdMap (Expr α)}
    (hRun : expr.symbolicGradient = .ok terms) {id : String} {term : Expr α}
    (hTerm : terms.get? id = some term) :
    ∃ first rest, valuesOf id (expr.contributions (const 1)) = first :: rest ∧
      (first :: rest).foldl add (const 0) = term := by
  obtain ⟨-, rfl⟩ := symbolicGradientFrom_eq_ok_iff.1 hRun
  rw [get?_addTerms] at hTerm
  cases hValues : valuesOf id (expr.contributions (const 1)) with
  | nil =>
    rw [hValues] at hTerm
    cases hTerm
  | cons first rest =>
    rw [hValues] at hTerm
    exact ⟨first, rest, rfl, Option.some.inj hTerm⟩

theorem exists_eq_add_of_symbolicGradient {expr : Expr α} {terms : IdMap (Expr α)}
    (hRun : expr.symbolicGradient = .ok terms) {id : String} {term : Expr α}
    (hTerm : terms.get? id = some term) : ∃ sum last, term = add sum last := by
  obtain ⟨first, rest, -, rfl⟩ := exists_foldl_of_symbolicGradient hRun hTerm
  obtain ⟨sum, last, hSum, -⟩ := isSpine_foldl (first :: rest)
  exact ⟨sum, last, hSum⟩

end Expr

end Autodiff
