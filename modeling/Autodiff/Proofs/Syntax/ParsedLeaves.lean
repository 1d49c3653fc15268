import Autodiff.Proofs.Gradient.Leaves
import Autodiff.Proofs.Syntax.Correspondence

/-!
# The leaves of a parsed tree

The leaves of a parsed tree are the variables that its names stand for and what its numbers are
converted to. Names are written as names and numbers begin with a digit or a point, so what is
known of such texts holds of every leaf.

* `Token.WellFormed` says what the text of a token looks like, and `Token.Lexical.wellFormed` that
  the tokens of a text are so;
* `Expr.everyLeaf_of_parse` carries a property of what they stand for over to a parsed tree.
-/

namespace Autodiff.Syntax

open Text

/-! ## The text of tokens -/

/-- A number begins with a digit or a point, which is no white space, and a name is a name. -/
def Token.WellFormed : Token → Prop
  | number numeral =>
    ∃ c rest, numeral.toList = c :: rest ∧ (isDigit c = true ∨ c = '.') ∧ isBlank c = false
  | name word => IsName word
  | symbol _ => True

theorem Token.Lexical.wellFormed {token : Token} (h : token.Lexical) : token.WellFormed := by
  cases token with
  | number numeral =>
    obtain ⟨c, rest, hText, hFirst⟩ := Lexeme.begins_of_mem_number h.1
    have hWord : c :: rest ∈ lexeme := mem_lexeme.2 (.inl (hText ▸ h.1))
    exact ⟨c, rest, hText, hFirst, isBlank_of_mem_lexeme hWord⟩
  | name word => exact Lexeme.mem_name.1 h.1
  | symbol sign => trivial

end Autodiff.Syntax

namespace Autodiff.Expr

open Syntax Text

variable {α ε : Type} {scope : Scope α ε} {P : Expr α → Prop}

/-- A property of the variables that names stand for and of the literals that numbers are
converted to holds of every leaf of a parsed tree. -/
theorem everyLeaf_of_parse
    (hName : ∀ word value, IsName word → scope.values.get? word = some value → P (var word value))
    (hNumber : ∀ numeral value, (Token.number numeral).WellFormed →
      scope.convert numeral = .ok value → P (lit value))
    {source : String} {tree : Expr α} (hParse : parse scope source = .ok tree) :
    tree.EveryLeaf P := by
  have hNodes : IsCongruence fun (tree _ : Expr α) => tree.EveryLeaf P :=
    ⟨fun _ _ _ _ _ hLeft hRight => ⟨hLeft, hRight⟩, fun _ _ _ hOperand => hOperand⟩
  obtain ⟨-, -, hLeaves⟩ := exists_parse_related hNodes
    (fun word value hLexical hValue => ⟨value, hValue, hName word value hLexical.wellFormed hValue⟩)
    (fun numeral value hLexical hValue =>
      ⟨value, hValue, hNumber numeral value hLexical.wellFormed hValue⟩) hParse
  exact hLeaves

end Autodiff.Expr
