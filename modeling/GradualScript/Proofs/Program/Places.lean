import GradualScript.Diagnostic.Basic
import GradualScript.Program.Tree

/-!
# Places in trees

A diagnostic points at a place that it has from the tree, and the tree has its places from the text.
`Placed` says that the nodes of a tree start at certain places only, and `Halt.Blames` that
something is found wrong at one of them.
-/

namespace GradualScript

/-- Whether something was found wrong in a phase, at one of certain places. -/
def Halt.Blames (halt : Halt) (phase : Phase) (places : Position → Prop) : Prop :=
  ∃ cause position,
    halt = .reported (.located cause position) ∧ cause.phase = phase ∧ places position

section

variable (places : Position → Prop)

mutual

/-- Whether all nodes of an expression start at certain places. -/
def Expr.Placed : Expr → Prop
  | .literal span .. | .access span .. => places span.start
  | .group span _ inner => places span.start ∧ inner.Placed
  | .binary span _ _ left right => places span.start ∧ left.Placed ∧ right.Placed
  | .element span _ _ _ offset => places span.start ∧ offset.Placed
  | .call span _ _ _ arguments => places span.start ∧ Expr.AllPlaced arguments
  | .list span _ elements => places span.start ∧ Expr.AllPlaced elements

/-- Whether this is so for all expressions of a list. -/
def Expr.AllPlaced : List Expr → Prop
  | [] => True
  | expr :: others => expr.Placed ∧ Expr.AllPlaced others

end

mutual

/-- Whether all nodes of a statement start at certain places. -/
def Stmt.Placed : Stmt → Prop
  | .expression span expr | .result span expr => places span.start ∧ expr.Placed places
  | .declaration span _ _ initializer _ =>
    places span.start ∧ ∀ expr ∈ initializer, expr.Placed places
  | .assignment span receiver value =>
    places span.start ∧ receiver.Placed places ∧ value.Placed places
  | .branch span condition thenBody elseBody =>
    places span.start ∧ condition.Placed places ∧ Stmt.AllPlaced thenBody ∧ Stmt.AllPlaced elseBody
  | .switch span subject cases => places span.start ∧ subject.Placed places ∧ cases.Placed
  | .loop span condition body =>
    places span.start ∧ condition.Placed places ∧ Stmt.AllPlaced body

/-- Whether all nodes of the arms of a switch start at certain places. -/
def Cases.Placed : Cases → Prop
  | .default span body => places span.start ∧ Stmt.AllPlaced body
  | .case span value body others =>
    places span.start ∧ value.Placed places ∧ Stmt.AllPlaced body ∧ others.Placed

/-- Whether this is so for all statements of a list. -/
def Stmt.AllPlaced : List Stmt → Prop
  | [] => True
  | statement :: others => statement.Placed ∧ Stmt.AllPlaced others

end

/-- Whether all nodes of a global start at certain places. -/
def Global.Placed (global : Global) : Prop :=
  places global.span.start ∧ ∀ expr ∈ global.initializer, expr.Placed places

/-- Whether all nodes of a function start at certain places. -/
def Function.Placed (function : Function) : Prop :=
  places function.span.start ∧ Stmt.AllPlaced places function.body

/-- Whether all nodes of a program start at certain places. -/
structure Program.Placed (program : Program) : Prop where
  onGlobals : ∀ global ∈ program.globals, global.Placed places
  onFunctions : ∀ function ∈ program.functions, function.Placed places

end

variable {places : Position → Prop}

theorem Expr.Placed.start {expr : Expr} (placed : expr.Placed places) : places expr.start := by
  cases expr with
  | literal | access => exact placed
  | group | binary | element | call | list => exact placed.1

theorem Expr.allPlaced_iff {exprs : List Expr} :
    Expr.AllPlaced places exprs ↔ ∀ expr ∈ exprs, expr.Placed places := by
  induction exprs with
  | nil => simp [AllPlaced]
  | cons expr others ih => simp [AllPlaced, ih]

mutual

/-- Where every place will do, all trees are placed. -/
theorem Expr.placed_anywhere (expr : Expr) : expr.Placed fun _ => True := by
  cases expr with
  | literal | access => trivial
  | group span ty inner => exact ⟨trivial, inner.placed_anywhere⟩
  | binary span ty operator left right =>
      exact ⟨trivial, left.placed_anywhere, right.placed_anywhere⟩
  | element span ty name binding offset => exact ⟨trivial, offset.placed_anywhere⟩
  | call span ty name binding arguments => exact ⟨trivial, Expr.allPlaced_anywhere arguments⟩
  | list span ty elements => exact ⟨trivial, Expr.allPlaced_anywhere elements⟩

theorem Expr.allPlaced_anywhere (exprs : List Expr) : Expr.AllPlaced (fun _ => True) exprs := by
  cases exprs with
  | nil => trivial
  | cons expr others => exact ⟨expr.placed_anywhere, Expr.allPlaced_anywhere others⟩

end

mutual

theorem Stmt.placed_anywhere (statement : Stmt) : statement.Placed fun _ => True := by
  cases statement with
  | expression span expr => exact ⟨trivial, expr.placed_anywhere⟩
  | declaration => exact ⟨trivial, fun expr _ => expr.placed_anywhere⟩
  | assignment span receiver value =>
      exact ⟨trivial, receiver.placed_anywhere, value.placed_anywhere⟩
  | branch span condition thenBody elseBody =>
      exact ⟨trivial, condition.placed_anywhere, Stmt.allPlaced_anywhere thenBody,
        Stmt.allPlaced_anywhere elseBody⟩
  | switch span subject cases =>
      exact ⟨trivial, subject.placed_anywhere, cases.placed_anywhere⟩
  | loop span condition body =>
      exact ⟨trivial, condition.placed_anywhere, Stmt.allPlaced_anywhere body⟩
  | result span expr => exact ⟨trivial, expr.placed_anywhere⟩

theorem Cases.placed_anywhere (cases : Cases) : cases.Placed fun _ => True := by
  cases cases with
  | default span body => exact ⟨trivial, Stmt.allPlaced_anywhere body⟩
  | case span value body others =>
      exact ⟨trivial, value.placed_anywhere, Stmt.allPlaced_anywhere body, others.placed_anywhere⟩

theorem Stmt.allPlaced_anywhere (statements : List Stmt) :
    Stmt.AllPlaced (fun _ => True) statements := by
  cases statements with
  | nil => trivial
  | cons statement others => exact ⟨statement.placed_anywhere, Stmt.allPlaced_anywhere others⟩

end

theorem Function.placed_anywhere (function : Function) : function.Placed fun _ => True :=
  ⟨trivial, Stmt.allPlaced_anywhere function.body⟩

end GradualScript
