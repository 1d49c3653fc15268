import Autodiff.Expr.Equality
import Autodiff.Proofs.Expr.Substitution
import Autodiff.Proofs.Gradient.Simulation
import Autodiff.Proofs.Scalar.Equality

/-!
# Equality of trees is a congruence

Equal trees may hold data of different kinds, so equality is coarser than identity. It is the
relation of trees of one shape the data of which are equal. Hence it is an equivalence wherever
equality of data is one, and whoever walks over two equal trees sees equal things.

* `EquivalenceOn` is an equivalence on a class of values; `Scalar.equivalenceOn_meaning` is the
  one of the scalars that have a meaning, and `Expr.Related.equivalenceOn` carries an equivalence
  of data over to trees;
* `Expr.foundEqual_equal_iff` says that trees are equal if they are related by their data;
* `SameEnd` relates two walks that stop at related foreign values or have related results;
  `Expr.Related.substitute`, `Expr.Related.preorder`, `Expr.Related.postorder`,
  `Expr.Related.variableIds` and `Expr.Related.symbolicGradient` are the walks over related trees;
* `Expr.equal_is_congruence` puts these together for equality of trees.
-/

namespace Autodiff

variable {α β γ δ ε : Type} {R : α → β → Prop}

/-! ## Equality that may fail -/

/-- The comparison of two values succeeds and finds them equal. -/
def FoundEqual (same : α → α → Except ε Bool) (x y : α) : Prop := same x y = .ok true

/-- A relation is an equivalence on a class of values. -/
structure EquivalenceOn (R : α → α → Prop) (D : α → Prop) : Prop where
  refl : ∀ {x}, D x → R x x
  symm : ∀ {x y}, D x → D y → R x y → R y x
  trans : ∀ {x y z}, D x → D y → D z → R x y → R y z → R x z

namespace Scalar

/-- No not-a-number, and no number of a narrow width. -/
def HasMeaning (x : Scalar) : Prop := ∃ a, x.meaning? = some a

/-- Scalars that have a meaning can be compared. -/
theorem exists_equal {x y : Scalar} (hX : x.HasMeaning) (hY : y.HasMeaning) :
    ∃ found, x.equal y = .ok found := by
  obtain ⟨a, hX⟩ := hX
  obtain ⟨b, hY⟩ := hY
  exact ⟨_, equal_of_meaning hX hY⟩

theorem foundEqual_iff {x y : Scalar} {a b : Meaning} (hX : x.meaning? = some a)
    (hY : y.meaning? = some b) : FoundEqual equal x y ↔ a = b := by
  rw [FoundEqual, equal_of_meaning hX hY, Except.ok.injEq, decide_eq_true_iff]

theorem equivalenceOn_meaning : EquivalenceOn (FoundEqual equal) HasMeaning where
  refl := by
    rintro x ⟨a, hX⟩
    exact (foundEqual_iff hX hX).2 rfl
  symm := by
    rintro x y ⟨a, hX⟩ ⟨b, hY⟩ hEqual
    exact (foundEqual_iff hY hX).2 ((foundEqual_iff hX hY).1 hEqual).symm
  trans := by
    rintro x y z ⟨a, hX⟩ ⟨b, hY⟩ ⟨c, hZ⟩ hFirst hSecond
    exact (foundEqual_iff hX hZ).2
      (((foundEqual_iff hX hY).1 hFirst).trans ((foundEqual_iff hY hZ).1 hSecond))

end Scalar

/-! ## Walks that end alike -/

/-- Two walks stop at related foreign values, or they have related results. -/
inductive SameEnd (R : α → β → Prop) (S : γ → δ → Prop) :
    Except (NotNode α) γ → Except (NotNode β) δ → Prop
  | ok {result : γ} {result' : δ} (hResults : S result result') :
      SameEnd R S (.ok result) (.ok result')
  | stopped {x : α} {x' : β} (hValues : R x x') : SameEnd R S (.error ⟨x⟩) (.error ⟨x'⟩)

theorem SameEnd.bind {γ' δ' : Type} {S : γ → δ → Prop} {S' : γ' → δ' → Prop}
    {first : Except (NotNode α) γ} {second : Except (NotNode β) δ} (hSame : SameEnd R S first second)
    {next : γ → Except (NotNode α) γ'} {next' : δ → Except (NotNode β) δ'}
    (hNext : ∀ result result', first = .ok result → S result result' →
      SameEnd R S' (next result) (next' result')) :
    SameEnd R S' (first >>= next) (second >>= next') := by
  cases hSame with
  | ok hResults => exact hNext _ _ rfl hResults
  | stopped hValues => exact .stopped hValues

namespace Expr

/-! ## Related trees -/

/-- A leaf the datum of which is in a class; an integer constant has no datum. -/
def LeafIn (D : α → Prop) : Expr α → Prop
  | var _ data | lit data | foreign data => D data
  | const _ => True
  | binary _ _ _ | unary _ _ => False

/-- All data of a tree are in a class. -/
def DataIn (D : α → Prop) (expr : Expr α) : Prop := expr.EveryLeaf (LeafIn D)

/-- The data of related trees are related as soon as they are in a class. -/
theorem Related.mp {D : α → Prop} {D' : β → Prop} {S : α → β → Prop}
    {expr : Expr α} {expr' : Expr β} (hRelated : Related R expr expr') (hExpr : expr.DataIn D)
    (hExpr' : expr'.DataIn D') (hImp : ∀ x x', D x → D' x' → R x x' → S x x') :
    Related S expr expr' := by
  induction hRelated with
  | var id hData => exact .var id (hImp _ _ hExpr hExpr' hData)
  | lit hData => exact .lit (hImp _ _ hExpr hExpr' hData)
  | const n => exact .const n
  | binary op _ _ ihLeft ihRight =>
    exact .binary op (ihLeft hExpr.1 hExpr'.1) (ihRight hExpr.2 hExpr'.2)
  | unary fn _ ih => exact .unary fn (ih hExpr hExpr')
  | foreign hData => exact .foreign (hImp _ _ hExpr hExpr' hData)

theorem Related.flip {expr : Expr α} {expr' : Expr β} (hRelated : Related R expr expr') :
    Related (fun x' x => R x x') expr' expr := by
  induction hRelated with
  | var id hData => exact .var id hData
  | lit hData => exact .lit hData
  | const n => exact .const n
  | binary op _ _ ihLeft ihRight => exact .binary op ihLeft ihRight
  | unary fn _ ih => exact .unary fn ih
  | foreign hData => exact .foreign hData

/-- An equivalence of data is one of trees. -/
theorem Related.equivalenceOn {R : α → α → Prop} {D : α → Prop} (hR : EquivalenceOn R D) :
    EquivalenceOn (Related R) (DataIn D) where
  refl := by
    intro expr hExpr
    refine related_self (fun leaf hLeaf => ?_) hExpr
    cases leaf with
    | var id => exact .var id (hR.refl hLeaf)
    | lit => exact .lit (hR.refl hLeaf)
    | const n => exact .const n
    | foreign => exact .foreign (hR.refl hLeaf)
    | binary | unary => exact hLeaf.elim
  symm := by
    intro expr other hExpr hOther hRelated
    exact hRelated.flip.mp hOther hExpr fun _ _ hX hY hData => hR.symm hY hX hData
  trans := by
    intro expr between other hExpr hBetween hOther hFirst hSecond
    induction hFirst generalizing other with
    | var id hData =>
      cases hSecond with
      | var _ hData' => exact .var id (hR.trans hExpr hBetween hOther hData hData')
    | lit hData =>
      cases hSecond with
      | lit hData' => exact .lit (hR.trans hExpr hBetween hOther hData hData')
    | const n => exact hSecond
    | binary op _ _ ihLeft ihRight =>
      cases hSecond with
      | binary _ hLeft hRight =>
        exact .binary op (ihLeft hExpr.1 hBetween.1 hOther.1 hLeft)
          (ihRight hExpr.2 hBetween.2 hOther.2 hRight)
    | unary fn _ ih =>
      cases hSecond with
      | unary _ hOperand => exact .unary fn (ih hExpr hBetween hOther hOperand)
    | foreign hData =>
      cases hSecond with
      | foreign hData' => exact .foreign (hR.trans hExpr hBetween hOther hData hData')

/-! ## Walks over related trees -/

namespace Related

variable {expr : Expr α} {expr' : Expr β}

theorem operands (hRelated : Related R expr expr') :
    SameEnd R (List.Forall₂ (Related R)) expr.operands expr'.operands := by
  cases hRelated with
  | var | lit | const => exact .ok .nil
  | binary op hLeft hRight => exact .ok (.cons hLeft (.cons hRight .nil))
  | unary fn hOperand => exact .ok (.cons hOperand .nil)
  | foreign hData => exact .stopped hData

theorem walk {stack : List (Expr α)} {stack' : List (Expr β)}
    (hStack : List.Forall₂ (Related R) stack stack') :
    SameEnd R (List.Forall₂ (Related R)) (Expr.walk stack) (Expr.walk stack') := by
  -- the stack that waits after a turn is smaller, though it may be longer
  induction hSize : totalSize stack using Nat.strong_induction_on generalizing stack stack' with
  | _ size ih =>
    cases hStack with
    | nil =>
      rw [Expr.walk, Expr.walk]
      exact .ok .nil
    | @cons node node' waiting waiting' hNode hWaiting =>
      rw [walk_cons, walk_cons]
      refine hNode.operands.bind fun children children' hOperands hChildren => ?_
      have hSmaller : totalSize (children ++ waiting) < size := by
        rw [← hSize, totalSize_append, totalSize, size_operands hOperands]
        omega
      exact (ih _ hSmaller (List.rel_append hChildren hWaiting) rfl).bind fun _ _ _ hLater =>
        .ok (.cons hNode hLater)

theorem preorder (hRelated : Related R expr expr') :
    SameEnd R (List.Forall₂ (Related R)) expr.preorder expr'.preorder :=
  walk (.cons hRelated .nil)

theorem postorder (hRelated : Related R expr expr') :
    SameEnd R (List.Forall₂ (Related R)) expr.postorder expr'.postorder := by
  induction hRelated with
  | var id hData => exact .ok (.cons (.var id hData) .nil)
  | lit hData => exact .ok (.cons (.lit hData) .nil)
  | const n => exact .ok (.cons (.const n) .nil)
  | binary op hLeft hRight ihLeft ihRight =>
    refine ihLeft.bind fun _ _ _ hBefore => ihRight.bind fun _ _ _ hBetween => .ok ?_
    exact List.rel_append (List.rel_append hBefore hBetween) (.cons (.binary op hLeft hRight) .nil)
  | unary fn hOperand ih =>
    exact ih.bind fun _ _ _ hBefore => .ok (List.rel_append hBefore (.cons (.unary fn hOperand) .nil))
  | foreign hData => exact .stopped hData

theorem id?_eq (hRelated : Related R expr expr') : expr.id? = expr'.id? := by
  cases hRelated <;> rfl

theorem variableIds (hRelated : Related R expr expr') :
    SameEnd R Eq expr.variableIds expr'.variableIds := by
  refine hRelated.preorder.bind fun nodes nodes' _ hNodes => .ok (congrArg distinct ?_)
  clear * - hNodes
  induction hNodes with
  | nil => rfl
  | cons hNode _ ih => rw [List.filterMap_cons, List.filterMap_cons, hNode.id?_eq, ih]

/-- New values are related if they replace related values. -/
theorem substitute {bindings : IdMap α} {bindings' : IdMap β} (hRelated : Related R expr expr')
    (hBindings : ∀ id ∈ expr.leafIds, ∀ {x x'}, R x x' →
      R ((bindings.get? id).getD x) ((bindings'.get? id).getD x')) :
    SameEnd R (Related R) (expr.substitute bindings) (expr'.substitute bindings') := by
  induction hRelated with
  | var id hData => exact .ok (.var id (hBindings id (List.mem_singleton.2 rfl) hData))
  | lit hData => exact .ok (.lit hData)
  | const n => exact .ok (.const n)
  | binary op _ _ ihLeft ihRight =>
    refine (ihLeft fun id hMem => hBindings id (List.mem_append_left _ hMem)).bind
      fun _ _ _ hLeft => ?_
    refine (ihRight fun id hMem => hBindings id (List.mem_append_right _ hMem)).bind
      fun _ _ _ hRight => ?_
    exact .ok (.binary op hLeft hRight)
  | unary fn _ ih => exact (ih hBindings).bind fun _ _ _ hOperand => .ok (.unary fn hOperand)
  | foreign hData => exact .stopped hData

/-- From related adjoints and related maps the symbolic walks leave related maps behind. -/
theorem symbolicGradientFrom (hRelated : Related R expr expr') {adjoint : Expr α}
    {adjoint' : Expr β} (hAdjoint : Related R adjoint adjoint') {terms : IdMap (Expr α)}
    {terms' : IdMap (Expr β)} (hTerms : IdMap.Related (Related R) terms terms') :
    SameEnd R (IdMap.Related (Related R)) (expr.symbolicGradientFrom adjoint terms)
      (expr'.symbolicGradientFrom adjoint' terms') := by
  induction hRelated generalizing adjoint adjoint' terms terms' with
  | var id hData =>
    exact .ok (hTerms.insert id (.binary .add (hTerms.getD id (.const 0)) hAdjoint))
  | lit | const => exact .ok hTerms
  | binary op hLeft hRight ihLeft ihRight =>
    rw [symbolicGradientFrom_binary, symbolicGradientFrom_binary]
    exact (ihLeft (hLeft.leftTerm op hRight hAdjoint) hTerms).bind fun _ _ _ hBetween =>
      ihRight (hLeft.rightTerm op hRight hAdjoint) hBetween
  | unary fn hOperand ih =>
    rw [symbolicGradientFrom_unary, symbolicGradientFrom_unary]
    exact ih (hOperand.operandTerm fn hAdjoint) hTerms
  | foreign hData => exact .stopped hData

theorem symbolicGradient (hRelated : Related R expr expr') :
    SameEnd R (IdMap.Related (Related R)) expr.symbolicGradient expr'.symbolicGradient :=
  hRelated.symbolicGradientFrom (.const 1) .empty

theorem genuine_iff (hRelated : Related R expr expr') : expr.Genuine ↔ expr'.Genuine := by
  induction hRelated with
  | var | lit | const | foreign => rfl
  | binary op _ _ ihLeft ihRight => rw [Genuine, Genuine, ihLeft, ihRight]
  | unary fn _ ih => exact ih

theorem className_eq (hRelated : Related R expr expr') (name : String) :
    expr.className (fun _ => name) = expr'.className (fun _ => name) := by
  cases hRelated <;> rfl

end Related

/-! ## Equal trees -/

variable {same : α → α → Except ε Bool}

/-- Trees are equal if they have one shape, the same ids and constants, and equal data. -/
theorem foundEqual_equal_iff {expr other : Expr α} :
    FoundEqual (equal same) expr other ↔ Related (FoundEqual same) expr other := by
  constructor
  · intro hEqual
    induction expr generalizing other with
    | var id data =>
      cases other with
      | var id' data' =>
        rw [FoundEqual, equal] at hEqual
        split at hEqual
        · next hId =>
          subst hId
          exact .var id hEqual
        · cases hEqual
      | _ => cases hEqual
    | lit data =>
      cases other with
      | lit => exact .lit hEqual
      | _ => cases hEqual
    | const n =>
      cases other with
      | const n' =>
        rw [FoundEqual, equal, Except.ok.injEq, beq_iff_eq] at hEqual
        subst hEqual
        exact .const n
      | _ => cases hEqual
    | binary op left right ihLeft ihRight =>
      cases other with
      | binary op' left' right' =>
        rw [FoundEqual, equal] at hEqual
        split at hEqual
        · next hOp =>
          subst hOp
          obtain ⟨sameLeft, hLeft, hRest⟩ := bind_eq_ok_iff.1 hEqual
          cases sameLeft with
          | true => exact .binary op (ihLeft hLeft) (ihRight hRest)
          | false => cases hRest
        · cases hEqual
      | _ => cases hEqual
    | unary fn operand ih =>
      cases other with
      | unary fn' operand' =>
        rw [FoundEqual, equal] at hEqual
        split at hEqual
        · next hFn =>
          subst hFn
          exact .unary fn (ih hEqual)
        · cases hEqual
      | _ => cases hEqual
    | foreign value =>
      cases other with
      | foreign => exact .foreign hEqual
      | _ => cases hEqual
  · intro hRelated
    induction hRelated with
    | var id hData => exact (if_pos rfl).trans hData
    | lit hData | foreign hData => exact hData
    | const n => simp [FoundEqual, equal]
    | binary op _ _ ihLeft ihRight =>
      rw [FoundEqual, equal, if_pos rfl, ihLeft]
      exact ihRight
    | unary fn _ ih =>
      rw [FoundEqual, equal, if_pos rfl]
      exact ih

theorem related_foundEqual : Related (FoundEqual same) = FoundEqual (equal same) := by
  funext expr other
  exact propext foundEqual_equal_iff.symm

/-- If all data can be compared, all trees of such data can. -/
theorem exists_equal {D : α → Prop} (hData : ∀ x y, D x → D y → ∃ found, same x y = .ok found)
    {expr other : Expr α} (hExpr : expr.DataIn D) (hOther : other.DataIn D) :
    ∃ found, expr.equal same other = .ok found := by
  induction expr generalizing other with
  | var id data =>
    cases other with
    | var id' data' =>
      rw [equal]
      split
      · exact hData _ _ hExpr hOther
      · exact ⟨_, rfl⟩
    | _ => exact ⟨_, rfl⟩
  | lit data =>
    cases other with
    | lit => exact hData _ _ hExpr hOther
    | _ => exact ⟨_, rfl⟩
  | const n => cases other <;> exact ⟨_, rfl⟩
  | binary op left right ihLeft ihRight =>
    cases other with
    | binary op' left' right' =>
      rw [equal]
      split
      · obtain ⟨sameLeft, hLeft⟩ := ihLeft hExpr.1 hOther.1
        rw [hLeft, ok_bind]
        cases sameLeft with
        | true => exact ihRight hExpr.2 hOther.2
        | false => exact ⟨_, rfl⟩
      · exact ⟨_, rfl⟩
    | _ => exact ⟨_, rfl⟩
  | unary fn operand ih =>
    cases other with
    | unary fn' operand' =>
      rw [equal]
      split
      · exact ih hExpr hOther
      · exact ⟨_, rfl⟩
    | _ => exact ⟨_, rfl⟩
  | foreign value =>
    cases other with
    | foreign => exact hData _ _ hExpr hOther
    | _ => exact ⟨_, rfl⟩

/-- Nobody who walks over two trees can tell them apart by more than the kinds of their data. The
class is that of the new values. -/
structure Interchangeable (same : α → α → Except ε Bool) (D : α → Prop) (expr other : Expr α) :
    Prop where
  /-- The nodes are of one class; foreign values count as one more class. -/
  className : ∀ name, expr.className (fun _ => name) = other.className fun _ => name
  genuine : expr.Genuine ↔ other.Genuine
  substitute : ∀ bindings : IdMap α,
    (∀ id ∈ expr.leafIds, ∀ value, bindings.get? id = some value → D value) →
    SameEnd (FoundEqual same) (FoundEqual (equal same)) (expr.substitute bindings)
      (other.substitute bindings)
  variableIds : SameEnd (FoundEqual same) Eq expr.variableIds other.variableIds
  preorder : SameEnd (FoundEqual same) (List.Forall₂ (FoundEqual (equal same))) expr.preorder
    other.preorder
  postorder : SameEnd (FoundEqual same) (List.Forall₂ (FoundEqual (equal same))) expr.postorder
    other.postorder
  symbolicGradient : SameEnd (FoundEqual same) (IdMap.Related (FoundEqual (equal same)))
    expr.symbolicGradient other.symbolicGradient

/-- Let equality of data be an equivalence on a class. Then equality of trees is an equivalence on
the trees of such data, and if all the data can be compared, all the trees can. Equal trees are
interchangeable, whatever their data are: their root is of one class, and so is every pair of nodes
that the orders list at one place; substitution of values from the class gives equal trees; the
ids are the same; and the symbolic gradients have the same ids with equal entries. -/
theorem equal_is_congruence {same : α → α → Except ε Bool} {D : α → Prop}
    (hSame : EquivalenceOn (FoundEqual same) D) :
    EquivalenceOn (FoundEqual (equal same)) (DataIn D) ∧
    ((∀ x y, D x → D y → ∃ found, same x y = .ok found) → ∀ expr other : Expr α,
      expr.DataIn D → other.DataIn D → ∃ found, expr.equal same other = .ok found) ∧
    ∀ expr other : Expr α, FoundEqual (equal same) expr other →
      Interchangeable same D expr other := by
  refine ⟨?equivalence, fun hData _ _ => exists_equal hData, fun expr other hEqual => ?congruence⟩
  case equivalence =>
    rw [← related_foundEqual]
    exact Related.equivalenceOn hSame
  case congruence =>
    have hRelated := foundEqual_equal_iff.1 hEqual
    refine
      { className := hRelated.className_eq
        genuine := hRelated.genuine_iff
        substitute := fun bindings hBindings => ?_
        variableIds := hRelated.variableIds
        preorder := related_foundEqual ▸ hRelated.preorder
        postorder := related_foundEqual ▸ hRelated.postorder
        symbolicGradient := related_foundEqual ▸ hRelated.symbolicGradient }
    rw [← related_foundEqual]
    refine hRelated.substitute fun id hMem x x' hData => ?_
    cases hBound : bindings.get? id with
    | none => exact hData
    | some value => exact hSame.refl (hBindings id hMem value hBound)

/-- Two trees for `x * 1 + y` at the values 1 and 1 are equal, though the ones are an integer, a
truth value, a double and a decimal number. A new value for `x` leaves them equal. -/
theorem equal_is_congruence_ones :
    ∃ (expr other there otherThere : Expr Scalar) (bindings : IdMap Scalar),
      expr = add (mul (var "x" (.int 1)) (lit (.bool true))) (var "y" (.float (.ofInt .double 1))) ∧
      other = add (mul (var "x" (.bool true)) (lit (.decimal (.finite false 10 (-1)))))
        (var "y" (.int 1)) ∧
      bindings = .ofList [("x", .decimal (.finite false 5 (-1)))] ∧
      EquivalenceOn (FoundEqual Scalar.equal) Scalar.HasMeaning ∧
      EquivalenceOn (FoundEqual (equal Scalar.equal)) (DataIn Scalar.HasMeaning) ∧
      expr.DataIn Scalar.HasMeaning ∧ other.DataIn Scalar.HasMeaning ∧
      (∃ found, expr.equal Scalar.equal other = .ok found) ∧
      expr.equal Scalar.equal other = .ok true ∧
      Interchangeable Scalar.equal Scalar.HasMeaning expr other ∧
      expr.substitute bindings = .ok there ∧ other.substitute bindings = .ok otherThere ∧
      there.equal Scalar.equal otherThere = .ok true := by
  let expr : Expr Scalar :=
    add (mul (var "x" (.int 1)) (lit (.bool true))) (var "y" (.float (.ofInt .double 1)))
  let other : Expr Scalar :=
    add (mul (var "x" (.bool true)) (lit (.decimal (.finite false 10 (-1))))) (var "y" (.int 1))
  obtain ⟨hEquivalence, hComparable, hCongruence⟩ :=
    equal_is_congruence Scalar.equivalenceOn_meaning
  let bindings : IdMap Scalar := .ofList [("x", .decimal (.finite false 5 (-1)))]
  have hExpr : expr.DataIn Scalar.HasMeaning := ⟨⟨⟨_, rfl⟩, ⟨_, rfl⟩⟩, ⟨_, rfl⟩⟩
  have hOther : other.DataIn Scalar.HasMeaning := ⟨⟨⟨_, rfl⟩, ⟨_, rfl⟩⟩, ⟨_, rfl⟩⟩
  have hEqual : expr.equal Scalar.equal other = .ok true := by decide +kernel
  have hThere : (expr.rebound bindings).equal Scalar.equal (other.rebound bindings) = .ok true := by
    decide +kernel
  exact ⟨expr, other, expr.rebound bindings, other.rebound bindings, bindings, rfl, rfl, rfl,
    Scalar.equivalenceOn_meaning, hEquivalence, hExpr, hOther,
    hComparable (fun _ _ => Scalar.exists_equal) expr other hExpr hOther, hEqual,
    hCongruence expr other hEqual, substitute_eq_rebound bindings (by simp [expr, Genuine]),
    substitute_eq_rebound bindings (by simp [other, Genuine]), hThere⟩

end Expr

end Autodiff
