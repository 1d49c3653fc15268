import Autodiff.Proofs.Syntax.Recognition
import Autodiff.Proofs.Syntax.Spacing

/-!
# One derivation in two scopes

A derivation has a tree in every scope that grounds it. The trees in two scopes have the same
nodes and differ in their leaves only, so whatever relates the leaves and goes through the nodes
relates the trees.

* `IsCongruence` is what goes through the nodes;
* `Corresponds` extends a relation between trees to what any phrase stands for;
* `Derivation.exists_corresponds` carries it from the leaves over a derivation;
* `exists_parse_related` says so of the trees of a text.
-/

namespace Autodiff.Syntax

variable {α β ε δ : Type}

/-- A relation between trees that goes through the nodes. -/
structure IsCongruence (R : Expr α → Expr β → Prop) : Prop where
  binary : ∀ op {left right there thereRight}, R left there → R right thereRight →
    R (.binary op left right) (.binary op there thereRight)
  unary : ∀ fn {operand there}, R operand there → R (.unary fn operand) (.unary fn there)

/-- What a phrase stands for in two scopes is related; for a tail, if the trees before it are. -/
def Corresponds (R : Expr α → Expr β → Prop) :
    (category : Category) → Meaning α category → Meaning β category → Prop
  | .sum, tree, there | .product, tree, there | .power, tree, there | .unary, tree, there
  | .primary, tree, there => R tree there
  | .sumTail, fold, thereFold | .productTail, fold, thereFold | .powerTail, fold, thereFold =>
    ∀ left there, R left there → R (fold left) (thereFold there)

/-- A derivation that has a tree in one scope has a related one in the other, if every leaf has.
The leaves are those of a text that the derivation may be a part of. -/
theorem Derivation.exists_corresponds {R : Expr α → Expr β → Prop} (hR : IsCongruence R)
    {scope : Scope α ε} {other : Scope β δ} {tokens : List Token}
    (hName : ∀ word value, .name word ∈ tokens → scope.values.get? word = some value →
      ∃ there, other.values.get? word = some there ∧ R (.var word value) (.var word there))
    (hNumber : ∀ numeral value, .number numeral ∈ tokens → scope.convert numeral = .ok value →
      ∃ there, other.convert numeral = .ok there ∧ R (.lit value) (.lit there))
    {category : Category} (d : Derivation category) (hTokens : d.tokens ⊆ tokens)
    {meaning : Meaning α category} (hTree : d.tree? scope = some meaning) :
    ∃ there, d.tree? other = some there ∧ Corresponds R category meaning there := by
  induction d with
  | sum first tail ihFirst ihTail | product first tail ihFirst ihTail
  | power first tail ihFirst ihTail =>
    obtain ⟨hFirstTokens, hTailTokens⟩ := List.append_subset.1 hTokens
    simp only [tree?, Option.bind_eq_bind, Option.bind_eq_some_iff, Option.pure_def] at hTree
    obtain ⟨left, hLeft, fold, hFold, hMeaning⟩ := hTree
    cases hMeaning
    obtain ⟨thereLeft, hThereLeft, hLefts⟩ := ihFirst hFirstTokens hLeft
    obtain ⟨thereFold, hThereFold, hFolds⟩ := ihTail hTailTokens hFold
    refine ⟨thereFold thereLeft, ?_, hFolds left thereLeft hLefts⟩
    simp [tree?, hThereLeft, hThereFold]
  | sumEnd | productEnd | powerEnd =>
    cases hTree
    exact ⟨fun left => left, rfl, fun left there h => h⟩
  | sumMore sign operand tail ihOperand ihTail | productMore sign operand tail ihOperand ihTail =>
    obtain ⟨hOperandTokens, hTailTokens⟩ := List.append_subset.1 (List.cons_subset.1 hTokens).2
    simp only [tree?, Option.bind_eq_bind, Option.bind_eq_some_iff, Option.pure_def] at hTree
    obtain ⟨right, hRight, fold, hFold, hMeaning⟩ := hTree
    cases hMeaning
    obtain ⟨thereRight, hThereRight, hRights⟩ := ihOperand hOperandTokens hRight
    obtain ⟨thereFold, hThereFold, hFolds⟩ := ihTail hTailTokens hFold
    refine ⟨fun left => thereFold (.binary sign.op left thereRight), ?_, ?_⟩
    · simp [tree?, hThereRight, hThereFold]
    · exact fun left there h => hFolds _ _ (hR.binary sign.op h hRights)
  | raise exponent ih =>
    simp only [tree?, Option.bind_eq_bind, Option.bind_eq_some_iff, Option.pure_def] at hTree
    obtain ⟨right, hRight, hMeaning⟩ := hTree
    cases hMeaning
    obtain ⟨thereRight, hThereRight, hRights⟩ := ih (List.cons_subset.1 hTokens).2 hRight
    refine ⟨fun base => .pow base thereRight, ?_, fun base there h => hR.binary .pow h hRights⟩
    simp [tree?, hThereRight]
  | minus operand ih =>
    simp only [tree?, Option.bind_eq_bind, Option.bind_eq_some_iff, Option.pure_def] at hTree
    obtain ⟨inner, hInner, hMeaning⟩ := hTree
    cases hMeaning
    obtain ⟨there, hThere, hOperands⟩ := ih (List.cons_subset.1 hTokens).2 hInner
    refine ⟨.neg there, ?_, hR.unary .neg hOperands⟩
    simp [tree?, hThere]
  | primary operand ih => exact ih hTokens hTree
  | number numeral =>
    simp only [tree?, Option.bind_eq_bind, Option.bind_eq_some_iff, Option.pure_def,
      toOption_eq_some_iff] at hTree
    obtain ⟨value, hValue, hMeaning⟩ := hTree
    cases hMeaning
    obtain ⟨there, hThere, hLeaves⟩ := hNumber numeral value (hTokens List.mem_cons_self) hValue
    refine ⟨.lit there, ?_, hLeaves⟩
    simp [tree?, hThere, Except.toOption]
  | name word =>
    simp only [tree?, Option.bind_eq_bind, Option.bind_eq_some_iff, Option.pure_def] at hTree
    obtain ⟨value, hValue, hMeaning⟩ := hTree
    cases hMeaning
    obtain ⟨there, hThere, hLeaves⟩ := hName word value (hTokens List.mem_cons_self) hValue
    refine ⟨.var word there, ?_, hLeaves⟩
    simp [tree?, hThere]
  | logarithm inner ih =>
    obtain ⟨hInnerTokens, -⟩ :=
      List.append_subset.1 (List.cons_subset.1 (List.cons_subset.1 hTokens).2).2
    simp only [tree?, Option.bind_eq_bind, Option.bind_eq_some_iff, Option.pure_def] at hTree
    obtain ⟨operand, hOperand, hMeaning⟩ := hTree
    cases hMeaning
    obtain ⟨there, hThere, hOperands⟩ := ih hInnerTokens hOperand
    refine ⟨.log there, ?_, hR.unary .log hOperands⟩
    simp [tree?, hThere]
  | bracket inner ih =>
    exact ih (List.append_subset.1 (List.cons_subset.1 hTokens).2).1 hTree

/-- A text that is parsed in one scope is parsed to a related tree in the other, if the values of
its names and numbers are related. -/
theorem exists_parse_related {R : Expr α → Expr β → Prop} (hR : IsCongruence R)
    {scope : Scope α ε} {other : Scope β δ}
    (hName : ∀ word value, (Token.name word).Lexical → scope.values.get? word = some value →
      ∃ there, other.values.get? word = some there ∧ R (.var word value) (.var word there))
    (hNumber : ∀ numeral value, (Token.number numeral).Lexical →
      scope.convert numeral = .ok value →
      ∃ there, other.convert numeral = .ok there ∧ R (.lit value) (.lit there))
    {source : String} {tree : Expr α} (hParse : parse scope source = .ok tree) :
    ∃ there, parse other source = .ok there ∧ R tree there := by
  cases hTokens : tokenize source with
  | error cause => simp only [parse, hTokens, reduceCtorEq] at hParse
  | ok tokens =>
    have hLexical := lexical_of_tokenize hTokens
    simp only [parse, hTokens] at hParse ⊢
    obtain ⟨d, rfl, hTree⟩ := parseTokens_eq_ok_iff.1 hParse
    obtain ⟨there, hThere, hRelated⟩ := d.exists_corresponds hR
      (fun word value hMem => hName word value (hLexical _ hMem))
      (fun numeral value hMem => hNumber numeral value (hLexical _ hMem))
      (List.Subset.refl _) hTree
    exact ⟨there, parseTokens_eq_ok_iff.2 ⟨d, rfl, hThere⟩, hRelated⟩

end Autodiff.Syntax
