import Autodiff.Expr.Basic
import Autodiff.Text.Numeral

/-!
# Expressions as text

Two views of a tree: infix text with a pair of brackets around every operation
(`Expr.infixText`), and the nested form that names every node and its fields
(`Expr.constructorForm`). Both take the text of a scalar as an argument.

* `Expr.exists_infixText` says that a genuine tree has infix text.
-/

namespace Autodiff.Expr

variable {α : Type}

/-- Infix text in which every operation is bracketed. -/
def infixText (text : α → String) : Expr α → Except (NotNode α) String
  | var id _ => .ok id
  | lit data => .ok (text data)
  | const n => .ok (Text.intText n)
  | binary op left right => do
    let leftText ← left.infixText text
    let rightText ← right.infixText text
    return "(" ++ leftText ++ " " ++ op.symbol ++ " " ++ rightText ++ ")"
  | unary .neg operand => do
    let operandText ← operand.infixText text
    return "(-" ++ operandText ++ ")"
  | unary .log operand => do
    let operandText ← operand.infixText text
    return "log(" ++ operandText ++ ")"
  | foreign value => .error ⟨value⟩

/-- A genuine tree has infix text. -/
theorem exists_infixText (text : α → String) {expr : Expr α} (hGenuine : expr.Genuine) :
    ∃ written, expr.infixText text = .ok written := by
  induction expr with
  | var id data => exact ⟨id, rfl⟩
  | lit data => exact ⟨text data, rfl⟩
  | const n => exact ⟨Text.intText n, rfl⟩
  | foreign => exact hGenuine.elim
  | binary op left right ihLeft ihRight =>
    obtain ⟨leftText, hLeft⟩ := ihLeft hGenuine.1
    obtain ⟨rightText, hRight⟩ := ihRight hGenuine.2
    exact ⟨_, by simp only [infixText, hLeft, hRight]; rfl⟩
  | unary fn operand ih =>
    obtain ⟨operandText, hOperand⟩ := ih hGenuine
    cases fn <;> exact ⟨_, by simp only [infixText, hOperand]; rfl⟩

/-- The label of a single node: the id, the literal, the integer or the operator. A
foreign value is labelled like a literal. -/
def label (text : α → String) : Expr α → String
  | var id _ => id
  | lit data => text data
  | const n => Text.intText n
  | binary op _ _ => op.symbol
  | unary fn _ => fn.word
  | foreign value => text value

/-- The name of the node class; a foreign value is named by its type. -/
def className (typeName : α → String) : Expr α → String
  | var _ _ => "Var"
  | lit _ => "Lit"
  | const _ => "Const"
  | binary op _ _ => op.className
  | unary fn _ => fn.className
  | foreign value => typeName value

end Autodiff.Expr
