import Autodiff.Capability.Decimal
import Autodiff.Proofs.Gradient.Rebinding
import Autodiff.Proofs.Syntax.ParsedLeaves

/-!
# Parsing with new values

The values of the names enter a parsed tree at its variable leaves and nowhere else. So a text
that was parsed can be given new values by rebinding its tree: parsing it again, with the new
values written over the old ones, gives the same tree.

* `Scope.override` is the scope with newer values;
* `Expr.parse_eq_rebound` says that a text is parsed there to the rebound tree;
* `Expr.parse_override` states it for `Expr.substitute` and for the trace.
-/

namespace Autodiff.Syntax.Scope

variable {α ε : Type}

/-- The scope with newer values written over its own. -/
def override (scope : Scope α ε) (newer : IdMap α) : Scope α ε :=
  ⟨scope.values.override newer, scope.convert⟩

/-- A name that has a value has one with newer values too. -/
theorem get?_override_of_some {scope : Scope α ε} {word : String} {value : α}
    (hValue : scope.values.get? word = some value) (newer : IdMap α) :
    (scope.override newer).values.get? word = some ((newer.get? word).getD value) := by
  rw [override, IdMap.get?_override, hValue]
  cases newer.get? word <;> rfl

end Autodiff.Syntax.Scope

namespace Autodiff.Expr

open Syntax

variable {α δ ε : Type} {scope : Scope α ε} {source : String} {tree : Expr α}

theorem genuine_of_parse (hParse : parse scope source = .ok tree) : tree.Genuine := by
  have hLeaves : tree.EveryLeaf Genuine :=
    everyLeaf_of_parse (fun _ _ _ _ => trivial) (fun _ _ _ _ => trivial) hParse
  exact everyLeaf_genuine_iff.1 hLeaves

/-- With newer values a text is parsed to the rebound tree. -/
theorem parse_eq_rebound (newer : IdMap α) (hParse : parse scope source = .ok tree) :
    parse (scope.override newer) source = .ok (tree.rebound newer) := by
  have hNodes : IsCongruence fun tree there : Expr α => there = tree.rebound newer :=
    ⟨fun _ _ _ _ _ hLeft hRight => by rw [rebound, hLeft, hRight],
      fun _ _ _ hOperand => by rw [rebound, hOperand]⟩
  have hNumber : ∀ numeral value, (Token.number numeral).Lexical →
      scope.convert numeral = .ok value →
      ∃ there, (scope.override newer).convert numeral = .ok there ∧
        lit there = (lit value).rebound newer :=
    fun numeral value _ hValue => ⟨value, hValue, rfl⟩
  obtain ⟨there, hThere, rfl⟩ := exists_parse_related hNodes
    (fun word value _ hValue => ⟨_, Scope.get?_override_of_some hValue newer, rfl⟩) hNumber hParse
  exact hThere

/-- A text that is parsed is also parsed with newer values written over the old ones, and the tree
is the old one with the newer values substituted. So it makes no difference to the value and the
gradient, or to the error, whether the tree is rebound or the text is parsed again. -/
theorem parse_override (num : Arithmetic α δ) (newer : IdMap α)
    (hParse : parse scope source = .ok tree) :
    ∃ there, parse (scope.override newer) source = .ok there ∧
      tree.substitute newer = .ok there ∧
      tree.trace num newer = there.trace num IdMap.empty := by
  have hGenuine := genuine_of_parse hParse
  refine ⟨tree.rebound newer, parse_eq_rebound newer hParse,
    substitute_eq_rebound newer hGenuine, ?_⟩
  rw [trace_eq num hGenuine, trace_eq num (hGenuine.rebound newer), rebound_empty]

/-- A text in which the name of the logarithm is a variable and a call. The newer values are for
this variable and for a name that does not occur; the other name keeps its value. -/
theorem parse_override_logarithm :
    ∃ (scope : Scope Scalar String) (newer : IdMap Scalar) (tree there : Expr Scalar),
      scope.values = .ofList [("x", .int 3), ("log", .int 5)] ∧
      newer = .ofList [("log", .int 7), ("y", .int 9)] ∧
      tree = sub (mul (var "x" (.int 3)) (var "log" (.int 5)))
        (div (log (var "log" (.int 5))) (lit (.int 2))) ∧
      there = sub (mul (var "x" (.int 3)) (var "log" (.int 7)))
        (div (log (var "log" (.int 7))) (lit (.int 2))) ∧
      parse scope "x * log - log(log) / 2" = .ok tree ∧
      parse (scope.override newer) "x * log - log(log) / 2" = .ok there ∧
      tree.substitute newer = .ok there ∧
      tree.trace Decimal.arithmetic newer = there.trace Decimal.arithmetic IdMap.empty := by
  let scope : Scope Scalar String := ⟨.ofList [("x", .int 3), ("log", .int 5)], fun numeral =>
    if numeral = "2" then .ok (.int 2) else .error numeral⟩
  let newer : IdMap Scalar := .ofList [("log", .int 7), ("y", .int 9)]
  have hTokens : tokenize "x * log - log(log) / 2" = .ok [.name "x", .symbol .times, .name "log",
      .symbol .minus, .name "log", .symbol .opening, .name "log", .symbol .closing,
      .symbol .divide, .number "2"] := by cbv
  have hParse : parse scope "x * log - log(log) / 2" =
      .ok (sub (mul (var "x" (.int 3)) (var "log" (.int 5)))
        (div (log (var "log" (.int 5))) (lit (.int 2)))) := by
    simp only [parse, hTokens]
    rfl
  obtain ⟨there, hThere, hSubstitute, hTrace⟩ := parse_override Decimal.arithmetic newer hParse
  have hEq : there = sub (mul (var "x" (.int 3)) (var "log" (.int 7)))
      (div (log (var "log" (.int 7))) (lit (.int 2))) := (Except.ok.inj hSubstitute).symm
  exact ⟨scope, newer, _, there, rfl, rfl, rfl, hEq, hParse, hThere, hSubstitute, hTrace⟩

end Autodiff.Expr
