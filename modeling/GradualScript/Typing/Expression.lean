import GradualScript.Typing.Checker
import GradualScript.Typing.Operation

/-!
# Checking expressions

Checking an expression finds its type and writes it down, together with what its names refer to. The
first thing that is wrong ends the check; what was found out before it stays written down. So a
check gives back an expression in any case, and beside it the type or the reason to stop.
-/

namespace GradualScript

/-- A checked tree, and what the check came to. -/
abbrev Checked (τ α : Type) := τ × Except Halt α

namespace Ty

/-- Whether a type may be stored where `target` is expected, or what to say of the place if not. -/
def expect (target received : Ty) (position : Position) : Except Halt Unit :=
  if target.allows received then .ok ()
  else .error (.reported (.located (.typeMismatch target.name received.name) position))

/-- Whether a type may be given for a parameter, or what to say of the place if not. -/
def expectArgument (target received : Ty) (position : Position) : Except Halt Unit :=
  if target.allows received then .ok ()
  else .error (.reported (.located (.argumentMismatch target.name received.name) position))

/-- The type of the elements of a list, or what to say of the place if it is no list. -/
def elementAt (ty : Ty) (position : Position) : Except Halt Ty :=
  match ty.element? with
  | some element => .ok element
  | none =>
    .error (.reported (.located (.typeMismatch (list any).name ty.name) position))

/-- The type of an operation, or what to say of the place if it does not take these operands. -/
def operationAt (operator : Operator) (left right : Ty) (position : Position) : Except Halt Ty :=
  match ofOperation? operator left right with
  | some ty => .ok ty
  | none =>
    let cause := .operandMismatch operator.symbol left.name right.name
    .error (.reported (.located cause position))

/-- The type of a list: its elements have one type, or else `Any`. -/
def ofElements : List Ty → Ty
  | [] => list any
  | first :: others => list (if others.all (· = first) then first else any)

end Ty

namespace Checker

/-- The variable that a name at a position means. -/
def variableAt (checker : Checker) (name : String) (position : Position) :
    Except Halt Variable := do
  match ← checker.arena.findVariable checker.current name with
  | some binding => return binding
  | none => throw (.reported (.located (.variableUndeclared name) position))

/-- The function that a name at a position means. -/
def functionAt (checker : Checker) (name : String) (arity : Nat) (position : Position) :
    Except Halt Signature := do
  match ← checker.arena.findFunction checker.current name arity with
  | some binding => return binding
  | none => throw (.reported (.located (.functionUndeclared name arity) position))

/-- Whether arguments of the given types, found at the given places, suit a function. -/
def expectArguments : List Ty → List (Ty × Position) → Except Halt Unit
  | target :: targets, (received, position) :: others => do
    target.expectArgument received position
    expectArguments targets others
  | _, _ => .ok ()

mutual

/-- Checks an expression. -/
def checkExpr (checker : Checker) : Expr → Checked Expr Ty
  | .literal span _ value => (.literal span (some value.ty) value, .ok value.ty)
  | .group span ty inner =>
    if inner.isBinary then
      match checkExpr checker inner with
      | (inner, .ok found) => (.group span (some found) inner, .ok found)
      | (inner, .error halt) => (.group span ty inner, .error halt)
    else
      (.group span ty inner, .error (.reported (.located .needlessGroup span.start)))
  | .binary span ty operator left right =>
    match checkExpr checker left with
    | (left, .error halt) => (.binary span ty operator left right, .error halt)
    | (left, .ok leftType) =>
      match checkExpr checker right with
      | (right, .error halt) => (.binary span ty operator left right, .error halt)
      | (right, .ok rightType) =>
        match Ty.operationAt operator leftType rightType left.start with
        | .error halt => (.binary span ty operator left right, .error halt)
        | .ok found => (.binary span (some found) operator left right, .ok found)
  | .access span ty name binding =>
    match checker.variableAt name span.start with
    | .error halt => (.access span ty name binding, .error halt)
    | .ok found => (.access span (some found.ty) name (some found), .ok found.ty)
  | .element span ty name binding offset =>
    match checker.variableAt name span.start with
    | .error halt => (.element span ty name binding offset, .error halt)
    | .ok found =>
      match checkExpr checker offset with
      | (offset, .error halt) => (.element span ty name binding offset, .error halt)
      | (offset, .ok offsetType) =>
        match Ty.integer.expect offsetType offset.start *> found.ty.elementAt span.start with
        | .error halt => (.element span ty name binding offset, .error halt)
        | .ok element => (.element span (some element) name (some found) offset, .ok element)
  | .call span ty name binding arguments =>
    match checkExprs checker arguments with
    | (arguments, .error halt) => (.call span ty name binding arguments, .error halt)
    | (arguments, .ok types) =>
      match checker.functionAt name arguments.length span.start with
      | .error halt => (.call span ty name binding arguments, .error halt)
      | .ok found =>
        match expectArguments found.parameters (types.zip (arguments.map Expr.start)) with
        | .error halt => (.call span ty name binding arguments, .error halt)
        | .ok () => (.call span (some found.result) name (some found) arguments, .ok found.result)
  | .list span ty elements =>
    match checkExprs checker elements with
    | (elements, .error halt) => (.list span ty elements, .error halt)
    | (elements, .ok types) =>
      (.list span (some (Ty.ofElements types)) elements, .ok (Ty.ofElements types))

/-- Checks expressions one after the other. -/
def checkExprs (checker : Checker) : List Expr → Checked (List Expr) (List Ty)
  | [] => ([], .ok [])
  | expr :: others =>
    match checkExpr checker expr with
    | (expr, .error halt) => (expr :: others, .error halt)
    | (expr, .ok ty) =>
      match checkExprs checker others with
      | (others, .error halt) => (expr :: others, .error halt)
      | (others, .ok types) => (expr :: others, .ok (ty :: types))

end

/-- Checks an expression whose value is stored where a type is expected. -/
def checkAgainst (checker : Checker) (target : Ty) (expr : Expr) : Checked Expr Unit :=
  match checkExpr checker expr with
  | (expr, .error halt) => (expr, .error halt)
  | (expr, .ok ty) => (expr, target.expect ty expr.start)

end Checker

end GradualScript
