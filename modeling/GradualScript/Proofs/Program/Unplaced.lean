import GradualScript.Diagnostic.Basic
import GradualScript.Program.Tree

/-!
# Programs without places

What is left of a program, or of a diagnostic, when it is not said where in a text it stands. What
checking found out stays.
-/

namespace GradualScript

/-- The span of things that stand nowhere. -/
def Span.nowhere : Span := ⟨.null, .null⟩

mutual

/-- An expression without places. -/
def Expr.unplaced : Expr → Expr
  | .literal _ ty value => .literal .nowhere ty value
  | .group _ ty inner => .group .nowhere ty inner.unplaced
  | .binary _ ty operator left right => .binary .nowhere ty operator left.unplaced right.unplaced
  | .access _ ty name binding => .access .nowhere ty name binding
  | .element _ ty name binding offset => .element .nowhere ty name binding offset.unplaced
  | .call _ ty name binding arguments => .call .nowhere ty name binding (Expr.unplacedAll arguments)
  | .list _ ty elements => .list .nowhere ty (Expr.unplacedAll elements)

/-- Expressions without places. -/
def Expr.unplacedAll : List Expr → List Expr
  | [] => []
  | expr :: others => expr.unplaced :: Expr.unplacedAll others

end

mutual

/-- A statement without places. -/
def Stmt.unplaced : Stmt → Stmt
  | .expression _ expr => .expression .nowhere expr.unplaced
  | .declaration _ name typeName initializer binding =>
    .declaration .nowhere name typeName (initializer.map Expr.unplaced) binding
  | .assignment _ receiver value => .assignment .nowhere receiver.unplaced value.unplaced
  | .branch _ condition thenBody elseBody =>
    .branch .nowhere condition.unplaced (Stmt.unplacedAll thenBody) (Stmt.unplacedAll elseBody)
  | .switch _ subject cases => .switch .nowhere subject.unplaced cases.unplaced
  | .loop _ condition body => .loop .nowhere condition.unplaced (Stmt.unplacedAll body)
  | .result _ value => .result .nowhere value.unplaced

/-- The arms of a switch without places. -/
def Cases.unplaced : Cases → Cases
  | .default _ body => .default .nowhere (Stmt.unplacedAll body)
  | .case _ value body others =>
    .case .nowhere value.unplaced (Stmt.unplacedAll body) others.unplaced

/-- Statements without places. -/
def Stmt.unplacedAll : List Stmt → List Stmt
  | [] => []
  | statement :: others => statement.unplaced :: Stmt.unplacedAll others

end

/-- A global without places. -/
def Global.unplaced (global : Global) : Global :=
  { global with span := .nowhere, initializer := global.initializer.map Expr.unplaced }

/-- A function without places. -/
def Function.unplaced (function : Function) : Function :=
  { function with span := .nowhere, body := Stmt.unplacedAll function.body }

/-- A program without places. -/
def Program.unplaced (program : Program) : Program :=
  ⟨program.globals.map Global.unplaced, program.functions.map Function.unplaced⟩

/-- A diagnostic without its place. -/
def Diagnostic.unplaced (diagnostic : Diagnostic) : Diagnostic := .unlocated diagnostic.cause

/-- The reason for a stop without its place. -/
def Halt.unplaced : Halt → Halt
  | .reported diagnostic => .reported diagnostic.unplaced
  | .dangling => .dangling
  | .severed => .severed
  | .exhausted => .exhausted

theorem Expr.unplacedAll_eq_map (exprs : List Expr) :
    Expr.unplacedAll exprs = exprs.map Expr.unplaced := by
  induction exprs with
  | nil => rfl
  | cons expr others ih => simp only [Expr.unplacedAll, List.map_cons, ih]

@[simp] theorem Expr.isAccess_unplaced (expr : Expr) :
    expr.unplaced.isAccess = expr.isAccess := by
  cases expr <;> simp only [Expr.unplaced, Expr.isAccess]

end GradualScript
