import Autodiff.Proofs.Expr.Leaves
import Autodiff.Proofs.Gradient.Faults

/-!
# The leaves of a symbolic gradient

The symbolic walk copies operands of its tree into the adjoints that it hands down and
invents only the constants 0 and 1. So whatever holds of every leaf of a tree and of these
two constants holds of every leaf of its symbolic gradient.

* `EveryLeaf` is such a property of a tree; being genuine is one, by `everyLeaf_genuine_iff`;
* `everyLeaf_adjoints` carries it over to the adjoints of all places, and
  `everyLeaf_contributions` to those at the variable leaves;
* `everyLeaf_of_symbolicGradient` carries it over to the entries of the gradient;
* `LeavesFrom` says the same of the leaves themselves, and `LeavesFrom.trans` that it may be said
  of derivatives of derivatives.
-/

namespace Autodiff.Expr

variable {α : Type} {P : Expr α → Prop}

/-- Every leaf of a tree has a property; foreign values are leaves here. -/
def EveryLeaf (P : Expr α → Prop) : Expr α → Prop
  | var id data => P (var id data)
  | lit data => P (lit data)
  | const n => P (const n)
  | binary _ left right => left.EveryLeaf P ∧ right.EveryLeaf P
  | unary _ operand => operand.EveryLeaf P
  | foreign value => P (foreign value)

/-- A property of the leaves that have another one, in a tree all leaves of which have the
latter. -/
theorem everyLeaf_mp {Q : Expr α → Prop} {expr : Expr α}
    (hImp : expr.EveryLeaf fun leaf => P leaf → Q leaf) (hExpr : expr.EveryLeaf P) :
    expr.EveryLeaf Q := by
  induction expr with
  | var | lit | const | foreign => exact hImp hExpr
  | binary op left right ihLeft ihRight => exact ⟨ihLeft hImp.1 hExpr.1, ihRight hImp.2 hExpr.2⟩
  | unary fn operand ih => exact ih hImp hExpr

theorem everyLeaf_iff {expr : Expr α} : expr.EveryLeaf P ↔ ∀ leaf ∈ expr.leaves, P leaf := by
  induction expr with
  | var | lit | const | foreign => simp [EveryLeaf, leaves]
  | binary op left right ihLeft ihRight =>
    rw [EveryLeaf, leaves, List.forall_mem_append, ihLeft, ihRight]
  | unary fn operand ih => rw [EveryLeaf, leaves, ih]

theorem everyLeaf_genuine_iff {expr : Expr α} : expr.EveryLeaf Genuine ↔ expr.Genuine := by
  rw [everyLeaf_iff, genuine_iff_leaves]

theorem everyLeaf_leftTerm (hOne : P (const 1)) (op : Op) {left right adjoint : Expr α}
    (hLeft : left.EveryLeaf P) (hRight : right.EveryLeaf P) (hAdjoint : adjoint.EveryLeaf P) :
    (leftTerm op left right adjoint).EveryLeaf P := by
  cases op <;> simp [leftTerm, EveryLeaf, hOne, hLeft, hRight, hAdjoint]

theorem everyLeaf_rightTerm (op : Op) {left right adjoint : Expr α}
    (hLeft : left.EveryLeaf P) (hRight : right.EveryLeaf P) (hAdjoint : adjoint.EveryLeaf P) :
    (rightTerm op left right adjoint).EveryLeaf P := by
  cases op <;> simp [rightTerm, EveryLeaf, hLeft, hRight, hAdjoint]

theorem everyLeaf_operandTerm (fn : Fn) {operand adjoint : Expr α}
    (hOperand : operand.EveryLeaf P) (hAdjoint : adjoint.EveryLeaf P) :
    (operandTerm fn operand adjoint).EveryLeaf P := by
  cases fn <;> simp [operandTerm, EveryLeaf, hOperand, hAdjoint]

theorem everyLeaf_adjoints (hOne : P (const 1)) {expr adjoint : Expr α}
    (hExpr : expr.EveryLeaf P) (hAdjoint : adjoint.EveryLeaf P) :
    ∀ term ∈ expr.adjoints adjoint, term.EveryLeaf P := by
  induction expr generalizing adjoint with
  | var | lit | const | foreign =>
    intro term hMem
    cases List.mem_singleton.1 hMem
    exact hAdjoint
  | binary op left right ihLeft ihRight =>
    intro term hMem
    rw [adjoints_binary, List.mem_cons, List.mem_append] at hMem
    rcases hMem with rfl | hMemLeft | hMemRight
    · exact hAdjoint
    · exact ihLeft hExpr.1 (everyLeaf_leftTerm hOne op hExpr.1 hExpr.2 hAdjoint) term hMemLeft
    · exact ihRight hExpr.2 (everyLeaf_rightTerm op hExpr.1 hExpr.2 hAdjoint) term hMemRight
  | unary fn operand ih =>
    intro term hMem
    have hBelow : (operandTerm fn operand adjoint).EveryLeaf P :=
      everyLeaf_operandTerm fn hExpr hAdjoint
    rw [adjoints_unary, List.mem_cons] at hMem
    rcases hMem with rfl | hMemOperand
    · exact hAdjoint
    · exact ih hExpr hBelow term hMemOperand

/-- What arrives at a variable leaf is the adjoint of a place. -/
theorem mem_adjoints_of_mem_contributions {expr adjoint : Expr α} {term : String × Expr α}
    (hMem : term ∈ expr.contributions adjoint) : term.2 ∈ expr.adjoints adjoint := by
  obtain ⟨occurrence, hOccurrence, hTerm⟩ := List.mem_filterMap.1 hMem
  obtain ⟨id, -, rfl⟩ := Option.map_eq_some_iff.1 hTerm
  exact List.mem_map.2 ⟨occurrence, hOccurrence, rfl⟩

theorem everyLeaf_contributions (hOne : P (const 1)) {expr adjoint : Expr α}
    (hExpr : expr.EveryLeaf P) (hAdjoint : adjoint.EveryLeaf P) :
    ∀ term ∈ expr.contributions adjoint, term.2.EveryLeaf P := fun _ hMem =>
  everyLeaf_adjoints hOne hExpr hAdjoint _ (mem_adjoints_of_mem_contributions hMem)

theorem everyLeaf_foldl {first : Expr α} (hFirst : first.EveryLeaf P) {terms : List (Expr α)}
    (hTerms : ∀ term ∈ terms, term.EveryLeaf P) : (terms.foldl add first).EveryLeaf P := by
  induction terms generalizing first with
  | nil => exact hFirst
  | cons term terms ih =>
    exact ih ⟨hFirst, hTerms term List.mem_cons_self⟩
      fun next hMem => hTerms next (List.mem_cons_of_mem term hMem)

/-- The entries of a symbolic gradient have only leaves like those of the tree, 0 and 1. -/
theorem everyLeaf_of_symbolicGradient (hZero : P (const 0)) (hOne : P (const 1)) {expr : Expr α}
    (hExpr : expr.EveryLeaf P) {terms : IdMap (Expr α)} (hRun : expr.symbolicGradient = .ok terms)
    {id : String} {term : Expr α} (hTerm : terms.get? id = some term) : term.EveryLeaf P := by
  obtain ⟨first, rest, hValues, rfl⟩ := exists_foldl_of_symbolicGradient hRun hTerm
  have hStart : (const 0 : Expr α).EveryLeaf P := hZero
  have hRoot : (const 1 : Expr α).EveryLeaf P := hOne
  refine everyLeaf_foldl hStart fun adjoint hMem => ?_
  rw [← hValues] at hMem
  obtain ⟨pair, hPair, hKey⟩ := List.mem_filterMap.1 hMem
  split at hKey
  · cases hKey
    exact everyLeaf_contributions hOne hExpr hRoot pair hPair
  · cases hKey

/-! ## Where the leaves come from -/

/-- The leaves of a tree are leaves of its source or the constants 0 and 1. -/
def LeavesFrom (source expr : Expr α) : Prop :=
  ∀ leaf ∈ expr.leaves, leaf ∈ source.leaves ∨ leaf = const 0 ∨ leaf = const 1

theorem everyLeaf_leavesFrom (expr : Expr α) :
    expr.EveryLeaf fun leaf => leaf ∈ expr.leaves ∨ leaf = const 0 ∨ leaf = const 1 :=
  everyLeaf_iff.2 fun _ hMem => .inl hMem

theorem leavesFrom_of_symbolicGradient {expr : Expr α} {terms : IdMap (Expr α)}
    (hRun : expr.symbolicGradient = .ok terms) {id : String} {term : Expr α}
    (hTerm : terms.get? id = some term) : LeavesFrom expr term :=
  everyLeaf_iff.1 (everyLeaf_of_symbolicGradient (.inr (.inl rfl)) (.inr (.inr rfl))
    (everyLeaf_leavesFrom expr) hRun hTerm)

theorem leavesFrom_of_mem_adjoints {expr term : Expr α}
    (hMem : term ∈ expr.adjoints (const 1)) : LeavesFrom expr term := by
  have hRoot : EveryLeaf (fun leaf => leaf ∈ expr.leaves ∨ leaf = const 0 ∨ leaf = const 1)
      (const 1) := .inr (.inr rfl)
  exact everyLeaf_iff.1
    (everyLeaf_adjoints (.inr (.inr rfl)) (everyLeaf_leavesFrom expr) hRoot term hMem)

namespace LeavesFrom

theorem refl (expr : Expr α) : LeavesFrom expr expr := fun _ hMem => .inl hMem

theorem trans {source between expr : Expr α} (hBetween : LeavesFrom source between)
    (hExpr : LeavesFrom between expr) : LeavesFrom source expr := by
  intro leaf hMem
  rcases hExpr leaf hMem with hLeaf | hConstant
  · exact hBetween leaf hLeaf
  · exact .inr hConstant

theorem genuine {source expr : Expr α} (hLeaves : LeavesFrom source expr)
    (hSource : source.Genuine) : expr.Genuine := by
  refine genuine_iff_leaves.2 fun leaf hMem => ?_
  rcases hLeaves leaf hMem with hLeaf | rfl | rfl
  · exact genuine_iff_leaves.1 hSource leaf hLeaf
  · trivial
  · trivial

/-- The variables of a tree are variables of its source, with their data. -/
theorem mem_of_var {source expr : Expr α} (hLeaves : LeavesFrom source expr) {id : String} {data : α}
    (hVar : var id data ∈ expr.leaves) : var id data ∈ source.leaves := by
  rcases hLeaves _ hVar with hLeaf | hZero | hOne
  · exact hLeaf
  · cases hZero
  · cases hOne

theorem leafIds_subset {source expr : Expr α} (hLeaves : LeavesFrom source expr) :
    expr.leafIds ⊆ source.leafIds := by
  intro id hMem
  obtain ⟨data, hVar⟩ := mem_leafIds_iff_leaves.1 hMem
  exact mem_leafIds_iff_leaves.2 ⟨data, hLeaves.mem_of_var hVar⟩

end LeavesFrom

end Autodiff.Expr
