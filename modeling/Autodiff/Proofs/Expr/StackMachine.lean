import Autodiff.Capability.Decimal
import Autodiff.Expr.Eval
import Autodiff.Proofs.Expr.Order

/-!
# Computing a tree on a stack

A tree can be computed without nested calls: its nodes are taken operands first, and the values
that still wait for their operator lie on a stack. For a value this is the same computation as
the recursive one. For an error it is, too, as long as there is a zero: the recursion makes the
zero of a negation before it computes the operand, the machine afterwards.

* `step` performs one node, and `step_eq_underflow_iff` says that it takes one value for each
  operand;
* `evaluate_unary` says that this order does not matter where there is a zero;
* `run_postfixNodes` says that the nodes of a subtree push its value, whatever lies on the stack;
* `StopsWith` says that a run stops at the first node that has no value, with the error of that
  node, and `stopsWith_postfixNodes` that the nodes of a tree without a value do so;
* `run_postorder_eq_evaluate` states the agreement of the machine with `Expr.evaluate`.
-/

namespace Autodiff.StackMachine

variable {α ε : Type}

/-! ## The machine -/

/-- What stops the machine. -/
inductive Halt (α ε : Type) where
  /-- There are fewer values than operands. -/
  | underflow
  | fault (cause : Fault α ε)

/-- The operation of a node with one operand. -/
def operation (num : Arithmetic α ε) : Fn → α → Except ε α
  | .neg => num.negate
  | .log => num.log

/-- Push the outcome of a computation, or stop with its fault. -/
def push (stack : List α) : Except (Fault α ε) α → Except (Halt α ε) (List α)
  | .ok value => .ok (value :: stack)
  | .error cause => .error (.fault cause)

/-- Perform a node. A leaf pushes its value; an operator takes the values of its operands, the
last one from the top, and pushes its result. -/
def step (num : Arithmetic α ε) : List α → Expr α → Except (Halt α ε) (List α)
  | stack, .var _ data => push stack (.ok data)
  | stack, .lit data => push stack (.ok data)
  | stack, .const n => push stack (Fault.lift (num.ofInt n))
  | y :: x :: stack, .binary op _ _ => push stack (Fault.lift (num.apply op x y))
  | x :: stack, .unary fn _ => push stack (Fault.lift (operation num fn x))
  | stack, .foreign value => push stack (.error (.notNode ⟨value⟩))
  | _, _ => .error .underflow

/-- Perform nodes one after the other. -/
def run (num : Arithmetic α ε) (stack : List α) (nodes : List (Expr α)) :
    Except (Halt α ε) (List α) :=
  nodes.foldlM (step num) stack

variable {num : Arithmetic α ε}

theorem push_ne_underflow (stack : List α) (outcome : Except (Fault α ε) α) :
    push stack outcome ≠ .error .underflow := by
  cases outcome <;> simp [push]

/-- A node takes one value for each of its operands. -/
theorem step_eq_underflow_iff {node : Expr α} {children : List (Expr α)}
    (hOperands : node.operands = .ok children) (stack : List α) :
    step num stack node = .error .underflow ↔ stack.length < children.length := by
  cases node with
  | var | lit | const =>
    cases hOperands
    simp [step, push_ne_underflow]
  | binary op left right =>
    cases hOperands
    rcases stack with _ | ⟨y, _ | ⟨x, stack⟩⟩ <;> simp [step, push_ne_underflow]
  | unary fn operand =>
    cases hOperands
    cases stack <;> simp [step, push_ne_underflow]
  | foreign value => cases hOperands

theorem run_append (stack : List α) (front back : List (Expr α)) :
    run num stack (front ++ back) = (do
      let reached ← run num stack front
      run num reached back) :=
  List.foldlM_append

theorem run_singleton (stack : List α) (node : Expr α) :
    run num stack [node] = step num stack node := by
  rw [run, List.foldlM_cons]
  cases step num stack node <;> rfl

/-! ## Values -/

variable {zero : α}

/-- Where there is a zero, it may as well be made after the operand is computed. -/
theorem evaluate_unary (hZero : num.ofInt 0 = .ok zero) (fn : Fn) (operand : Expr α) :
    (Expr.unary fn operand).evaluate num = (do
      let x ← operand.evaluate num
      Fault.lift (operation num fn x)) := by
  cases fn with
  | neg =>
    rw [Expr.evaluate, hZero]
    simp only [Fault.lift_ok, ok_bind, operation, Arithmetic.negate, hZero]
  | log => rfl

/-- The nodes of a subtree push its value. -/
theorem run_postfixNodes (hZero : num.ofInt 0 = .ok zero) {expr : Expr α} {value : α}
    (hValue : expr.evaluate num = .ok value) (stack : List α) :
    run num stack expr.postfixNodes = .ok (value :: stack) := by
  induction expr generalizing value stack with
  | var | lit =>
    cases hValue
    rfl
  | const n =>
    rw [Expr.evaluate] at hValue
    rw [Expr.postfixNodes, run_singleton, step, hValue, push]
  | binary op left right ihLeft ihRight =>
    rw [Expr.evaluate, bind_eq_ok_iff] at hValue
    obtain ⟨x, hLeft, hRest⟩ := hValue
    obtain ⟨y, hRight, hApply⟩ := bind_eq_ok_iff.1 hRest
    rw [Expr.postfixNodes, run_append, run_append, ihLeft hLeft, ok_bind, ihRight hRight, ok_bind,
      run_singleton, step, hApply, push]
  | unary fn operand ih =>
    rw [evaluate_unary hZero, bind_eq_ok_iff] at hValue
    obtain ⟨x, hOperand, hOperation⟩ := hValue
    rw [Expr.postfixNodes, run_append, ih hOperand, ok_bind, run_singleton, step, hOperation, push]
  | foreign => cases hValue

/-- Every node of a tree with a value has a value. -/
theorem exists_value_of_mem_postfixNodes (hZero : num.ofInt 0 = .ok zero) {expr node : Expr α}
    {value : α} (hValue : expr.evaluate num = .ok value) (hMem : node ∈ expr.postfixNodes) :
    ∃ value, node.evaluate num = .ok value := by
  induction expr generalizing value with
  | var | lit | const | foreign => exact ⟨value, List.mem_singleton.1 hMem ▸ hValue⟩
  | binary op left right ihLeft ihRight =>
    rw [Expr.postfixNodes, List.mem_append, List.mem_append, List.mem_singleton] at hMem
    have hSteps := hValue
    rw [Expr.evaluate, bind_eq_ok_iff] at hSteps
    obtain ⟨x, hLeft, hRest⟩ := hSteps
    obtain ⟨y, hRight, -⟩ := bind_eq_ok_iff.1 hRest
    rcases hMem with (hMemLeft | hMemRight) | rfl
    · exact ihLeft hLeft hMemLeft
    · exact ihRight hRight hMemRight
    · exact ⟨value, hValue⟩
  | unary fn operand ih =>
    rw [Expr.postfixNodes, List.mem_append, List.mem_singleton] at hMem
    have hSteps := hValue
    rw [evaluate_unary hZero, bind_eq_ok_iff] at hSteps
    obtain ⟨x, hOperand, -⟩ := hSteps
    rcases hMem with hMemOperand | rfl
    · exact ih hOperand hMemOperand
    · exact ⟨value, hValue⟩

/-! ## Errors -/

/-- A run stops at a node that has no value, the error of the machine being that of the node, and
every node before it has a value. -/
def StopsWith (num : Arithmetic α ε) (stack : List α) (nodes : List (Expr α))
    (cause : Fault α ε) : Prop :=
  ∃ before node after reached, nodes = before ++ node :: after ∧
    (∀ earlier ∈ before, ∃ value, earlier.evaluate num = .ok value) ∧
    node.evaluate num = .error cause ∧
    run num stack before = .ok reached ∧ step num reached node = .error (.fault cause)

namespace StopsWith

variable {stack : List α} {cause : Fault α ε}

theorem single {node : Expr α} (hNode : node.evaluate num = .error cause)
    (hStep : step num stack node = .error (.fault cause)) : StopsWith num stack [node] cause :=
  ⟨[], node, [], stack, rfl, by simp, hNode, rfl, hStep⟩

/-- What follows the node is not performed. -/
theorem append {nodes : List (Expr α)} (h : StopsWith num stack nodes cause)
    (later : List (Expr α)) : StopsWith num stack (nodes ++ later) cause := by
  obtain ⟨before, node, after, reached, rfl, hBefore, hNode, hRun, hStep⟩ := h
  exact ⟨before, node, after ++ later, reached, by simp, hBefore, hNode, hRun, hStep⟩

/-- The nodes of a subtree with a value stand before the node. -/
theorem after (hZero : num.ofInt 0 = .ok zero) {expr : Expr α} {value : α}
    (hValue : expr.evaluate num = .ok value) {nodes : List (Expr α)}
    (h : StopsWith num (value :: stack) nodes cause) :
    StopsWith num stack (expr.postfixNodes ++ nodes) cause := by
  obtain ⟨before, node, after, reached, rfl, hBefore, hNode, hRun, hStep⟩ := h
  refine ⟨expr.postfixNodes ++ before, node, after, reached, by simp, ?_, hNode, ?_, hStep⟩
  · intro earlier hMem
    rcases List.mem_append.1 hMem with hExpr | hMem
    · exact exists_value_of_mem_postfixNodes hZero hValue hExpr
    · exact hBefore earlier hMem
  · rw [run_append, run_postfixNodes hZero hValue, ok_bind, hRun]

theorem run_eq {nodes : List (Expr α)} (h : StopsWith num stack nodes cause) :
    run num stack nodes = .error (.fault cause) := by
  obtain ⟨before, node, after, reached, rfl, -, -, hRun, hStep⟩ := h
  rw [run_append, hRun, ok_bind, run, List.foldlM_cons, hStep, error_bind]

end StopsWith

/-- The nodes of a tree without a value stop the machine with the error of the tree. -/
theorem stopsWith_postfixNodes (hZero : num.ofInt 0 = .ok zero) {expr : Expr α}
    {cause : Fault α ε} (hFault : expr.evaluate num = .error cause) (stack : List α) :
    StopsWith num stack expr.postfixNodes cause := by
  induction expr generalizing cause stack with
  | var | lit => cases hFault
  | const n =>
    refine .single hFault ?_
    rw [Expr.evaluate] at hFault
    rw [step, hFault, push]
  | binary op left right ihLeft ihRight =>
    have hSteps := hFault
    rw [Expr.evaluate, bind_eq_error_iff] at hSteps
    rw [Expr.postfixNodes]
    rcases hSteps with hLeft | ⟨x, hLeft, hRest⟩
    · exact ((ihLeft hLeft stack).append _).append _
    rcases bind_eq_error_iff.1 hRest with hRight | ⟨y, hRight, hApply⟩
    · exact ((ihRight hRight (x :: stack)).after hZero hLeft).append _
    · -- both operands have values, so the run stops at the operator
      rw [List.append_assoc]
      refine .after hZero hLeft (.after hZero hRight (.single hFault ?_))
      rw [step, hApply, push]
  | unary fn operand ih =>
    have hSteps := hFault
    rw [evaluate_unary hZero, bind_eq_error_iff] at hSteps
    rw [Expr.postfixNodes]
    rcases hSteps with hOperand | ⟨x, hOperand, hOperation⟩
    · exact (ih hOperand stack).append _
    · refine .after hZero hOperand (.single hFault ?_)
      rw [step, hOperation, push]
  | foreign value =>
    refine .single hFault ?_
    cases hFault
    rfl

/-! ## Agreement -/

/-- The stack machine on the nodes of a genuine tree, operands first, computes what the recursion
does, provided that there is a zero. It ends with the value of the tree as the only one on the
stack or with the error of the tree, which is that of the first node in this order that has no
value. At no point it takes more values than there are. -/
theorem run_postorder_eq_evaluate (num : Arithmetic α ε) {expr : Expr α} (hGenuine : expr.Genuine)
    (hZero : num.ofInt 0 = .ok zero) :
    ∃ nodes, expr.postorder = .ok nodes ∧ run num [] nodes = push [] (expr.evaluate num) ∧
      (∀ front, front <+: nodes → run num [] front ≠ .error .underflow) ∧
      ∀ cause, expr.evaluate num = .error cause → StopsWith num [] nodes cause := by
  have hRun : run num [] expr.postfixNodes = push [] (expr.evaluate num) := by
    cases hOutcome : expr.evaluate num with
    | ok value => exact run_postfixNodes hZero hOutcome []
    | error cause => exact (stopsWith_postfixNodes hZero hOutcome []).run_eq
  refine ⟨expr.postfixNodes, Expr.postorder_eq hGenuine, hRun, ?_, ?_⟩
  · rintro front ⟨back, hNodes⟩ hUnderflow
    rw [← hNodes, run_append, hUnderflow, error_bind] at hRun
    exact push_ne_underflow [] _ hRun.symm
  · intro cause hFault
    exact stopsWith_postfixNodes hZero hFault []

/-- The nodes of `(-(x / 0)) - log(-1)` at 1 in decimal arithmetic. Two of them have no value of
their own; the quotient comes first, so the logarithm is not reached. -/
theorem run_postorder_eq_evaluate_quotient :
    ∃ (expr : Expr Scalar) (cause : Fault Scalar ScalarError) (nodes : List (Expr Scalar)),
      expr = .sub (.neg (.div (.var "x" (.int 1)) (.lit (.int 0)))) (.log (.lit (.int (-1)))) ∧
      cause = .arithmetic (.decimal .divisionByZero) ∧
      expr.Genuine ∧ (∃ zero, Decimal.arithmetic.ofInt 0 = .ok zero) ∧
      expr.evaluate Decimal.arithmetic = .error cause ∧ expr.postorder = .ok nodes ∧
      run Decimal.arithmetic [] nodes = .error (.fault cause) ∧
      StopsWith Decimal.arithmetic [] nodes cause := by
  let expr : Expr Scalar :=
    .sub (.neg (.div (.var "x" (.int 1)) (.lit (.int 0)))) (.log (.lit (.int (-1))))
  have hGenuine : expr.Genuine := by simp [expr, Expr.Genuine]
  have hZero : Decimal.arithmetic.ofInt 0 = .ok (.decimal (.finite false 0 0)) := rfl
  have hFault : expr.evaluate Decimal.arithmetic =
      .error (.arithmetic (.decimal .divisionByZero)) := rfl
  obtain ⟨nodes, hNodes, hRun, -, hStops⟩ :=
    run_postorder_eq_evaluate Decimal.arithmetic hGenuine hZero
  rw [hFault] at hRun
  exact ⟨expr, _, nodes, rfl, rfl, hGenuine, ⟨_, hZero⟩, hFault, hNodes, hRun, hStops _ hFault⟩

end Autodiff.StackMachine
