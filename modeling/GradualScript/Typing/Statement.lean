import GradualScript.Typing.Expression

/-!
# Checking statements

Statements declare names, so checking them changes the checker as well as the tree. Blocks are
checked in a scope of their own, which is left again whatever the check comes to.
-/

namespace GradualScript

namespace Checker

/-- A checker after a check, the checked tree, and what the check came to. -/
abbrev Step (τ : Type) := Checker × Checked τ Unit

/-- Adds a variable to the current scope. -/
def declare (checker : Checker) (binding : Variable) (position : Position) :
    Except Halt Checker := do
  let arena ← checker.arena.addVariable checker.current binding.name binding position
  return { checker with arena }

/-- Checks something in a new scope inside the current one, and leaves the scope. -/
def inScope {τ : Type} (checker : Checker) (check : Checker → Step τ) : Step τ :=
  let (inner, id) := checker.enter
  match check inner with
  | (inner, tree, outcome) =>
    match inner.leave id with
    | .ok outer => (outer, tree, outcome)
    | .error halt => (inner, tree, .error halt)

/-- The type of a declared variable, and its checked initial value. -/
def checkInitializer (checker : Checker) (name : String) (declared : Option Ty)
    (initializer : Option Expr) (position : Position) : Checked (Option Expr) Ty :=
  match declared, initializer with
  | some declared, some initializer =>
    match checker.checkAgainst declared initializer with
    | (initializer, outcome) => (some initializer, outcome.map fun _ => declared)
  | some declared, none => (none, .ok declared)
  | none, some initializer =>
    match checker.checkExpr initializer with
    | (initializer, outcome) => (some initializer, outcome)
  | none, none => (none, .error (.reported (.located (.bareDeclaration name) position)))

/-- Checks the declaration of a variable. -/
def checkDeclaration (checker : Checker) (span : Span) (name : String) (typeName : Option String)
    (initializer : Option Expr) (binding : Option Variable) : Step Stmt :=
  match typeName.mapM (resolve · span.start) with
  | .error halt => (checker, .declaration span name typeName initializer binding, .error halt)
  | .ok declared =>
    match checker.checkInitializer name declared initializer span.start with
    | (initializer, .error halt) =>
      (checker, .declaration span name typeName initializer binding, .error halt)
    | (initializer, .ok ty) =>
      let found : Variable := ⟨name, ty, true⟩
      match checker.declare found span.start with
      | .error halt => (checker, .declaration span name typeName initializer binding, .error halt)
      | .ok checker => (checker, .declaration span name typeName initializer (some found), .ok ())

/-- Whether an expression may be assigned to. -/
def expectMutable (receiver : Expr) : Except Halt Unit :=
  match receiver with
  | .access _ _ _ (some binding) | .element _ _ _ (some binding) _ =>
    if binding.isMutable then .ok ()
    else .error (.reported (.located (.assignmentToConstant binding.name) receiver.start))
  | _ => .ok ()

/-- Checks an assignment. -/
def checkAssignment (checker : Checker) (span : Span) (receiver value : Expr) :
    Checked Stmt Unit :=
  match checker.checkExpr receiver with
  | (receiver, .error halt) => (.assignment span receiver value, .error halt)
  | (receiver, .ok target) =>
    match expectMutable receiver with
    | .error halt => (.assignment span receiver value, .error halt)
    | .ok () =>
      match checker.checkAgainst target value with
      | (value, outcome) => (.assignment span receiver value, outcome)

mutual

/-- Checks a statement. -/
def checkStmt (checker : Checker) : Stmt → Step Stmt
  | .expression span expr =>
    if expr.isCall then
      match checker.checkExpr expr with
      | (expr, outcome) => (checker, .expression span expr, outcome.map fun _ => ())
    else
      (checker, .expression span expr, .error (.reported (.located .statementNotCall expr.start)))
  | .declaration span name typeName initializer binding =>
    checker.checkDeclaration span name typeName initializer binding
  | .assignment span receiver value => (checker, checker.checkAssignment span receiver value)
  | .branch span condition thenBody elseBody =>
    match checker.checkAgainst .boolean condition with
    | (condition, .error halt) => (checker, .branch span condition thenBody elseBody, .error halt)
    | (condition, .ok ()) =>
      match checker.inScope (checkStmts · thenBody) with
      | (checker, thenBody, .error halt) =>
        (checker, .branch span condition thenBody elseBody, .error halt)
      | (checker, thenBody, .ok ()) =>
        match checker.inScope (checkStmts · elseBody) with
        | (checker, elseBody, outcome) =>
          (checker, .branch span condition thenBody elseBody, outcome)
  | .switch span subject cases =>
    match checker.checkExpr subject with
    | (subject, .error halt) => (checker, .switch span subject cases, .error halt)
    | (subject, .ok ty) =>
      match checkCases checker ty cases with
      | (checker, cases, outcome) => (checker, .switch span subject cases, outcome)
  | .loop span condition body =>
    match checker.checkAgainst .boolean condition with
    | (condition, .error halt) => (checker, .loop span condition body, .error halt)
    | (condition, .ok ()) =>
      match checker.inScope (checkStmts · body) with
      | (checker, body, outcome) => (checker, .loop span condition body, outcome)
  | .result span value =>
    match checker.checkAgainst checker.returnType value with
    | (value, outcome) => (checker, .result span value, outcome)

/-- Checks the arms of a switch on a subject of the given type. -/
def checkCases (checker : Checker) (subject : Ty) : Cases → Step Cases
  | .default span body =>
    match checker.inScope (checkStmts · body) with
    | (checker, body, outcome) => (checker, .default span body, outcome)
  | .case span value body others =>
    match checker.checkAgainst subject value with
    | (value, .error halt) => (checker, .case span value body others, .error halt)
    | (value, .ok ()) =>
      match checker.inScope (checkStmts · body) with
      | (checker, body, .error halt) => (checker, .case span value body others, .error halt)
      | (checker, body, .ok ()) =>
        match checkCases checker subject others with
        | (checker, others, outcome) => (checker, .case span value body others, outcome)

/-- Checks statements one after the other in the current scope. -/
def checkStmts (checker : Checker) : List Stmt → Step (List Stmt)
  | [] => (checker, [], .ok ())
  | statement :: others =>
    match checkStmt checker statement with
    | (checker, statement, .error halt) => (checker, statement :: others, .error halt)
    | (checker, statement, .ok ()) =>
      match checkStmts checker others with
      | (checker, others, outcome) => (checker, statement :: others, outcome)

end

/-- Checks statements in a scope of their own. -/
def checkBlock (checker : Checker) (body : List Stmt) : Step (List Stmt) :=
  checker.inScope (checkStmts · body)

end Checker

end GradualScript
