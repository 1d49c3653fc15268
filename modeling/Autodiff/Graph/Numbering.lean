import Autodiff.Expr.Basic

/-!
# Numbered nodes

The nodes of a tree get numbers from 0 on, the operands before the node that uses them.
A node is listed with the numbers of its operands.

* `Graph.numberFrom_length` says that there is one entry per node occurrence, so that the
  root has the last number.
-/

namespace Autodiff.Graph

variable {α : Type}

/-- A node with the numbers of its operands; its own number is its place in the list. -/
structure Entry (α : Type) where
  node : Expr α
  operands : List Nat

/-- The entries of a tree whose first node has the given number. -/
def numberFrom (first : Nat) : Expr α → Except (NotNode α) (List (Entry α))
  | .var id data => .ok [⟨.var id data, []⟩]
  | .lit data => .ok [⟨.lit data, []⟩]
  | .const n => .ok [⟨.const n, []⟩]
  | .binary op left right => do
    let before ← numberFrom first left
    let between ← numberFrom (first + before.length) right
    let leftNumber := first + before.length - 1
    return before ++ between ++
      [⟨.binary op left right, [leftNumber, leftNumber + between.length]⟩]
  | .unary fn operand => do
    let before ← numberFrom first operand
    return before ++ [⟨.unary fn operand, [first + before.length - 1]⟩]
  | .foreign value => .error ⟨value⟩

/-- The entries of a tree, in the order of their numbers. -/
def number (root : Expr α) : Except (NotNode α) (List (Entry α)) := numberFrom 0 root

/-- There is one entry per node occurrence. -/
theorem numberFrom_length {first : Nat} {root : Expr α} {entries : List (Entry α)}
    (hEntries : numberFrom first root = .ok entries) : entries.length = root.size := by
  induction root generalizing first entries with
  | var | lit | const => cases hEntries; rfl
  | foreign => cases hEntries
  | binary op left right ihLeft ihRight =>
    simp only [numberFrom, bind, Except.bind] at hEntries
    cases hLeft : numberFrom first left with
    | error => rw [hLeft] at hEntries; cases hEntries
    | ok before =>
      rw [hLeft] at hEntries
      cases hRight : numberFrom (first + before.length) right with
      | error => simp only [hRight] at hEntries; cases hEntries
      | ok between =>
        simp only [hRight] at hEntries
        cases hEntries
        simp [Expr.size, ihLeft hLeft, ihRight hRight, Nat.add_assoc]
  | unary fn operand ih =>
    simp only [numberFrom, bind, Except.bind] at hEntries
    cases hOperand : numberFrom first operand with
    | error => rw [hOperand] at hEntries; cases hEntries
    | ok before =>
      rw [hOperand] at hEntries
      cases hEntries
      simp [Expr.size, ih hOperand]

end Autodiff.Graph
