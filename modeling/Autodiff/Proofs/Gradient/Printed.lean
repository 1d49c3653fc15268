import Autodiff.Proofs.Capability.Coercion
import Autodiff.Proofs.Capability.Doubles
import Autodiff.Proofs.Gradient.Agreement
import Autodiff.Proofs.Scalar.Literals
import Autodiff.Proofs.Syntax.ParsedLeaves

/-!
# Printed gradients read back

The symbolic gradient of a parsed tree can be printed, parsed again and computed, and the values
are those of the numerical gradient. What comes back differs from what was printed in one point:
the constants 0 and 1 of a gradient come back as literals. In the arithmetic of doubles that makes
no difference, because a literal is converted there to what the constant stands for.

* `Expr.PlainLeaf` says which leaves a parsed tree and its gradient have, if no number of the text
  is too large; `everyLeaf_plain_of_parse` and `everyLeaf_plain_of_symbolicGradient` prove it;
* `Expr.readable_of_everyLeaf_plain` says that a tree with such leaves can be read back, and
  `Expr.alike_reread` that what comes back has the same view in the arithmetic of doubles;
* `Expr.printed_gradient` is the agreement of the printed gradient with the numerical one.
-/

namespace Autodiff.Expr

open Syntax Text
open LiteralFormat (read_float_eq_ok_iff read_float_text)

variable {values : IdMap Scalar}

/-- A variable of the scope, a finite number without a minus sign, or one of the constants that
a gradient is made of. -/
def PlainLeaf (values : IdMap Scalar) : Expr Scalar → Prop
  | var id data => IsName id ∧ values.get? id = some data
  | lit data => ∃ m q h, data = .float (.finite false m q h)
  | const n => n = 0 ∨ n = 1
  | _ => False

/-! ## Leaves -/

/-- A number of a text is read as a plain literal or as infinity. -/
theorem plainLeaf_of_read {numeral : String} {value : Scalar}
    (hFormed : (Token.number numeral).WellFormed)
    (hRead : LiteralFormat.float.read numeral = .ok value)
    (hFinite : lit value ≠ lit (.float (.infinite false))) : PlainLeaf values (lit value) := by
  obtain ⟨c, rest, hText, hFirst, hBlank⟩ := hFormed
  obtain ⟨x, hParse, rfl⟩ := read_float_eq_ok_iff.1 hRead
  have hUnsigned := Binary.unsigned_of_parse? hText hFirst hBlank hParse
  cases x with
  | nan => exact hUnsigned.elim
  | infinite negative =>
    obtain rfl : negative = false := hUnsigned
    exact absurd rfl hFinite
  | finite negative m q h =>
    obtain rfl : negative = false := hUnsigned
    exact ⟨m, q, h, rfl⟩

theorem everyLeaf_plain_of_parse {source : String} {expr : Expr Scalar}
    (hParse : parse ⟨values, LiteralFormat.float.read⟩ source = .ok expr)
    (hFinite : expr.EveryLeaf (· ≠ lit (.float (.infinite false)))) :
    expr.EveryLeaf (PlainLeaf values) := by
  refine everyLeaf_mp (everyLeaf_of_parse ?name ?number hParse) hFinite
  case name => exact fun word value hName hValue _ => ⟨hName, hValue⟩
  case number => exact fun numeral value hFormed hRead => plainLeaf_of_read hFormed hRead

theorem everyLeaf_plain_of_symbolicGradient {expr : Expr Scalar}
    (hExpr : expr.EveryLeaf (PlainLeaf values)) {terms : IdMap (Expr Scalar)}
    (hRun : expr.symbolicGradient = .ok terms) {id : String} {term : Expr Scalar}
    (hTerm : terms.get? id = some term) : term.EveryLeaf (PlainLeaf values) :=
  everyLeaf_of_symbolicGradient (.inl rfl) (.inr rfl) hExpr hRun hTerm

/-! ## Reading back -/

theorem rendered_float_text {m : Nat} {q : Int} (h : Format.double.Canonical m q)
    (values : IdMap Scalar) :
    Rendered ⟨values, LiteralFormat.float.read⟩ (Binary.finite false m q h).text
      (lit (.float (.finite false m q h))) := by
  refine .lit (Binary.isNumeral_text h) ?_
  dsimp only
  exact read_float_text h

/-- The literal for one of the constants of a gradient is converted to what the arithmetic takes
for the constant. -/
theorem exists_read_const {n : Int} (hPlain : n = 0 ∨ n = 1) :
    ∃ value x, LiteralFormat.float.read (natText n.natAbs) = .ok value ∧
      (Capability.ieee .double).arithmetic.ofInt n = .ok x ∧
      (Capability.ieee .double).coerce x = (Capability.ieee .double).coerce value := by
  refine ⟨.float (.ofInt .double n), .ieee .double (.ofInt .double n), ?read, ?value, ?view⟩
  case read => rcases hPlain with rfl | rfl <;> decide +kernel
  case value => rcases hPlain with rfl | rfl <;> decide +kernel
  case view =>
    simp only [Capability.coerce]
    rw [Scalar.toWidth_of_double? rfl, Scalar.toWidth_of_double? rfl]

theorem readable_of_everyLeaf_plain {expr : Expr Scalar}
    (hExpr : expr.EveryLeaf (PlainLeaf values)) :
    expr.Readable Scalar.write ⟨values, LiteralFormat.float.read⟩ := by
  induction expr with
  | var id data => exact hExpr
  | lit data =>
    obtain ⟨m, q, h, rfl⟩ := hExpr
    refine ⟨_, Binary.isNumeral_text h, .inl rfl, .float (.finite false m q h), ?_⟩
    dsimp only
    exact read_float_text h
  | const n =>
    obtain ⟨value, -, hRead, -⟩ := exists_read_const hExpr
    refine ⟨value, ?_⟩
    dsimp only
    exact hRead
  | binary op left right ihLeft ihRight => exact ⟨ihLeft hExpr.1, ihRight hExpr.2⟩
  | unary fn operand ih => exact ih hExpr
  | foreign => exact hExpr

/-- What a tree with plain leaves comes back as looks the same to the arithmetic of doubles. -/
theorem alike_reread {expr again : Expr Scalar} (hExpr : expr.EveryLeaf (PlainLeaf values))
    (hAgain : expr.reread Scalar.write LiteralFormat.float.read = .ok again) :
    Alike (Capability.ieee .double).arithmetic (Capability.ieee .double).coerce expr again := by
  induction expr generalizing again with
  | var id data =>
    cases hAgain
    exact .var id rfl
  | lit data =>
    obtain ⟨m, q, h, rfl⟩ := hExpr
    have hText : Scalar.write (.float (.finite false m q h)) = (Binary.finite false m q h).text :=
      rfl
    rw [reread_lit hText (Binary.isNumeral_text h) (read_float_text h)] at hAgain
    cases hAgain
    exact .lit rfl
  | const n =>
    obtain ⟨value, x, hRead, hInt, hView⟩ := exists_read_const hExpr
    have hNonneg : ¬ n < 0 := by
      rcases hExpr with rfl | rfl <;> decide
    rw [reread_const hNonneg hRead] at hAgain
    cases hAgain
    exact .numeral hInt hView
  | binary op left right ihLeft ihRight =>
    simp only [reread, bind_eq_ok_iff, pure, Except.pure, Except.ok.injEq] at hAgain
    obtain ⟨left', hLeft, right', hRight, rfl⟩ := hAgain
    exact .binary op (ihLeft hExpr.1 hLeft) (ihRight hExpr.2 hRight)
  | unary fn operand ih =>
    simp only [reread, bind_eq_ok_iff, pure, Except.pure, Except.ok.injEq] at hAgain
    obtain ⟨operand', hOperand, rfl⟩ := hAgain
    exact .unary fn (ih hExpr hOperand)
  | foreign => exact hExpr.elim

/-! ## Printed gradients -/

theorem exists_double_of_gradient {expr : Expr Scalar} {grads : IdMap Scalar}
    (hGradient : expr.gradient (Capability.ieee .double).arithmetic = .ok grads) {id : String}
    {value : Scalar} (hEntry : grads.get? id = some value) :
    ∃ derivative : Binary .double, value = .ieee .double derivative := by
  have hYields := Capability.yields_kind (Capability.ieee_ne_builtin .double)
  have hKind : value.kind = .ieee .double := property_of_gradient hYields hGradient id value hEntry
  cases value with
  | ieee width derivative =>
    cases hKind
    exact ⟨derivative, rfl⟩
  | int | float | decimal | text | bool | nothing => cases hKind

/-- A sum and a tree that looks like it have the same value. -/
theorem Alike.evaluate_add {sum last other : Expr Scalar}
    (hAlike : Alike (Capability.ieee .double).arithmetic (Capability.ieee .double).coerce
      (add sum last) other) :
    (add sum last).evaluate (Capability.ieee .double).arithmetic =
      other.evaluate (Capability.ieee .double).arithmetic := by
  have hSees := Capability.seesOnly_coerce (Capability.ieee_ne_builtin .double)
  cases hAlike with
  | binary _ hLeft hRight =>
    exact evaluate_binary hSees .add (hLeft.map_evaluate hSees) (hRight.map_evaluate hSees)

/-- The printed symbolic gradient of a parsed tree means its numerical gradient.

A text is parsed with numbers as builtin numbers, none of which is too large, and its numerical
gradient in the arithmetic of doubles can be computed. Then for every variable of the tree the
entry of the symbolic gradient is printed as a text that can be parsed with the same variables,
and the value of what is parsed is the entry of the numerical gradient: the same double, with the
same sign if it is zero. -/
theorem printed_gradient {source : String} {expr : Expr Scalar}
    (hParse : parse ⟨values, LiteralFormat.float.read⟩ source = .ok expr)
    (hFinite : expr.EveryLeaf (· ≠ lit (.float (.infinite false)))) {grads : IdMap Scalar}
    (hGradient : expr.gradient (Capability.ieee .double).arithmetic = .ok grads) :
    ∃ terms ids, expr.symbolicGradient = .ok terms ∧ expr.variableIds = .ok ids ∧
      ∀ id ∈ ids, ∃ term printed again, ∃ derivative : Binary .double,
        terms.get? id = some term ∧ term.infixText Scalar.write = .ok printed ∧
        parse ⟨values, LiteralFormat.float.read⟩ printed = .ok again ∧
        again.evaluate (Capability.ieee .double).arithmetic = .ok (.ieee .double derivative) ∧
        grads.get? id = some (.ieee .double derivative) := by
  obtain ⟨terms, hTerms, hMirrors⟩ := exists_mirrors hGradient
  refine ⟨terms, terms.ids, hTerms, variableIds_of_symbolicGradient hTerms, ?_⟩
  intro id hId
  cases hTerm : terms.get? id with
  | none => exact absurd hId ((IdMap.get?_eq_none_iff terms id).1 hTerm)
  | some term =>
    obtain ⟨value, hEntry, hValue⟩ := hMirrors.evaluate_eq id term hTerm
    obtain ⟨derivative, rfl⟩ := exists_double_of_gradient hGradient hEntry
    have hPlain : term.EveryLeaf (PlainLeaf values) :=
      everyLeaf_plain_of_symbolicGradient (everyLeaf_plain_of_parse hParse hFinite) hTerms hTerm
    obtain ⟨printed, again, hPrinted, hAgain, hRendered⟩ :=
      (readable_of_everyLeaf_plain hPlain).rendered
    have hAlike := alike_reread hPlain hAgain
    obtain ⟨sum, last, rfl⟩ := exists_eq_add_of_symbolicGradient hTerms hTerm
    exact ⟨_, printed, again, derivative, rfl, hPrinted, hRendered.parse_eq,
      hAlike.evaluate_add.symm.trans hValue, hEntry⟩

/-- The gradient of `x * 0.1 - x` at 3. The one entry is printed as `((0 + (1 * 0.1)) + (-1))`,
and both the value of what is read back and the numerical derivative are the double nearest to
minus nine tenths. -/
theorem printed_gradient_tenth :
    ∃ (scope : Scope Scalar ScalarError) (expr : Expr Scalar) (grads : IdMap Scalar)
      (derivative : Binary .double) (again : Expr Scalar),
      scope = ⟨.ofList [("x", .int 3)], LiteralFormat.float.read⟩ ∧
      derivative = .finite true 0x1ccccccccccccd (-53) (by decide) ∧
      parse scope "((x * 0.1) - x)" = .ok expr ∧
      expr.EveryLeaf (· ≠ lit (.float (.infinite false))) ∧
      expr.gradient (Capability.ieee .double).arithmetic = .ok grads ∧
      grads.entries = [("x", .ieee .double derivative)] ∧
      parse scope "((0 + (1 * 0.1)) + (-1))" = .ok again ∧
      again.evaluate (Capability.ieee .double).arithmetic = .ok (.ieee .double derivative) := by
  let values : IdMap Scalar := .ofList [("x", .int 3)]
  let x : Expr Scalar := var "x" (.int 3)
  let tenth : Expr Scalar := lit (.float (.finite false 0x1999999999999a (-56) (by decide)))
  have hX : Rendered ⟨values, LiteralFormat.float.read⟩ "x" x :=
    .var ⟨'x', [], rfl, rfl, by simp⟩ rfl
  have hTenth : Rendered ⟨values, LiteralFormat.float.read⟩ "0.1" tenth := by
    have hText : (Binary.finite false 0x1999999999999a (-56)
        (by decide : Format.double.Canonical _ _)).text = "0.1" := by decide +kernel
    exact hText ▸ rendered_float_text _ values
  have hParse : parse ⟨values, LiteralFormat.float.read⟩ "((x * 0.1) - x)" =
      .ok (sub (mul x tenth) x) :=
    ((hX.binary .mul hTenth).binary .sub hX).parse_eq
  have hFinite : (sub (mul x tenth) x).EveryLeaf (· ≠ lit (.float (.infinite false))) := by
    simp [EveryLeaf, x, tenth]
  have hEntries : ((sub (mul (var "x" (.int 3))
      (lit (.float (.finite false 0x1999999999999a (-56) (by decide)))))
      (var "x" (.int 3))).gradient (Capability.ieee .double).arithmetic).map IdMap.entries =
        .ok [("x", .ieee .double (.finite true 0x1ccccccccccccd (-53) (by decide)))] := by
    decide +kernel
  obtain ⟨grads, hGradient, hGrads⟩ := map_eq_ok_iff.1 hEntries
  obtain ⟨terms, ids, hTerms, hIds, hPrinted⟩ := printed_gradient hParse hFinite hGradient
  cases hIds.symm.trans (variableIds_of_symbolicGradient hTerms)
  cases hTerms
  obtain ⟨term, printed, again, derivative, hTerm, hText, hAgain, hValue, hEntry⟩ :=
    hPrinted "x" List.mem_cons_self
  have hWritten : (add (add (const 0) (mul (const 1) (lit (.float
      (.finite false 0x1999999999999a (-56) (by decide)))))) (neg (const 1))).infixText
        Scalar.write = .ok "((0 + (1 * 0.1)) + (-1))" := by decide +kernel
  cases hTerm
  cases hText.symm.trans hWritten
  have hDerivative : grads.get? "x" = some (.ieee .double
      (.finite true 0x1ccccccccccccd (-53) (by decide))) := by
    rw [IdMap.get?, hGrads]
    rfl
  cases hEntry.symm.trans hDerivative
  exact ⟨_, _, grads, _, again, rfl, rfl, hParse, hFinite, hGradient, hGrads, hAgain, hValue⟩

end Autodiff.Expr
