import GradualScript.Typing.Statement

/-!
# Checking programs

A program is checked in order: its globals, the headings of its functions, their bodies, and at last
that it has a `main` function that takes nothing and gives a whole number.

A program may be checked again. A name that it has declared itself, and that still means what it
declared, is not declared twice.
-/

namespace GradualScript

namespace Checker

/-- The types of elements of a list that is stored as a list of `target`. -/
def expectElements (target : Ty) (elements : List Expr) (types : List Ty) : Except Halt Unit :=
  (types.zip elements).forM fun (ty, element) => target.expect ty element.start

/-- The type of a global whose elements or value have type `declared`, and its checked initial
value. A list in brackets has elements of that type. -/
def checkGlobalValue (checker : Checker) (declared : Ty) : Option Expr → Checked (Option Expr) Ty
  | none => (none, .ok declared)
  | some (.list span ty elements) =>
    match checker.checkExprs elements with
    | (elements, .error halt) => (some (.list span ty elements), .error halt)
    | (elements, .ok types) =>
      match expectElements declared elements types with
      | .error halt => (some (.list span (some (Ty.ofElements types)) elements), .error halt)
      | .ok () => (some (.list span (some (.list declared)) elements), .ok (.list declared))
  | some initializer =>
    match checker.checkAgainst declared initializer with
    | (initializer, outcome) => (some initializer, outcome.map fun _ => declared)

/-- Declares a global, unless it is declared already and known to be the one. -/
def declareGlobal (checker : Checker) (known : Option Variable) (binding : Variable)
    (position : Position) : Except Halt Checker := do
  let declared ← checker.arena.findVariable Arena.root binding.name
  if known.isSome && declared = known then return checker
  let arena ← checker.arena.addVariable Arena.root binding.name binding position
  return { checker with arena }

/-- Checks a global. -/
def checkGlobal (checker : Checker) (global : Global) : Step Global :=
  match resolve global.typeName global.span.start with
  | .error halt => (checker, global, .error halt)
  | .ok declared =>
    match checker.checkGlobalValue declared global.initializer with
    | (initializer, .error halt) => (checker, { global with initializer }, .error halt)
    | (initializer, .ok ty) =>
      let found : Variable := ⟨global.name, ty, global.isMutable⟩
      match checker.declareGlobal global.binding found global.span.start with
      | .error halt => (checker, { global with initializer }, .error halt)
      | .ok checker => (checker, { global with initializer, binding := some found }, .ok ())

/-- The signature that the heading of a function states. -/
def signatureOf (function : Function) : Except Halt Signature := do
  let parameters ← function.parameters.mapM fun parameter =>
    resolve parameter.typeName function.span.start
  let result ←
    match function.resultTypeName with
    | some name => resolve name function.span.start
    | none => pure .nil
  return ⟨function.name, parameters, result⟩

/-- Declares a function, unless it is declared already and known to be the one. -/
def declareSignature (checker : Checker) (known : Option Signature) (binding : Signature)
    (arity : Nat) (position : Position) : Except Halt Checker := do
  let declared ← checker.arena.findFunction Arena.root binding.name arity
  if known.isSome && declared = known then return checker
  let arena ← checker.arena.addFunction Arena.root binding.name arity binding position
  return { checker with arena }

/-- Checks the heading of a function, and declares the function. -/
def checkHeading (checker : Checker) (function : Function) : Step Function :=
  match signatureOf function with
  | .error halt => (checker, function, .error halt)
  | .ok found =>
    let position := function.span.start
    match checker.declareSignature function.binding found function.arity position with
    | .error halt => (checker, function, .error halt)
    | .ok checker => (checker, { function with binding := some found }, .ok ())

/-- Declares parameters in the current scope. Their values are only known when the script runs. -/
def declareParameters (position : Position) : Checker → List Parameter → Checker × Except Halt Unit
  | checker, [] => (checker, .ok ())
  | checker, parameter :: others =>
    match checker.declare ⟨parameter.name, .any, true⟩ position with
    | .error halt => (checker, .error halt)
    | .ok checker => declareParameters position checker others

/-- Checks the body of a function. -/
def checkBody (checker : Checker) (function : Function) : Step Function :=
  let returnType := (function.binding.map Signature.result).getD .nil
  { checker with returnType }.inScope fun inner =>
    match declareParameters function.span.start inner function.parameters with
    | (inner, .error halt) => (inner, function, .error halt)
    | (inner, .ok ()) =>
      match inner.checkStmts function.body with
      | (inner, body, outcome) => (inner, { function with body }, outcome)

/-- Checks things one after the other. -/
def checkEach {τ : Type} (check : Checker → τ → Step τ) : Checker → List τ → Step (List τ)
  | checker, [] => (checker, [], .ok ())
  | checker, tree :: others =>
    match check checker tree with
    | (checker, tree, .error halt) => (checker, tree :: others, .error halt)
    | (checker, tree, .ok ()) =>
      match checkEach check checker others with
      | (checker, others, outcome) => (checker, tree :: others, outcome)

/-- The name of the function that a program starts with. -/
def mainName : String := "main"

/-- Whether `main` is declared and gives a whole number. -/
def expectMain (checker : Checker) (functions : List Function) : Except Halt Unit := do
  match ← checker.arena.findFunction Arena.root mainName 0 with
  | none => throw (.reported (.unlocated .missingMain))
  | some signature =>
    if signature.result = .integer then return ()
    let first := functions.find? fun function => function.name = mainName && function.arity = 0
    let position := (first.map (·.span.start)).getD .null
    throw (.reported (.located (.mainResult signature.result.name) position))

/-- Checks a program. -/
def checkProgram (checker : Checker) (program : Program) : Step Program :=
  match checkEach checkGlobal checker program.globals with
  | (checker, globals, .error halt) => (checker, { program with globals }, .error halt)
  | (checker, globals, .ok ()) =>
    match checkEach checkHeading checker program.functions with
    | (checker, functions, .error halt) => (checker, ⟨globals, functions⟩, .error halt)
    | (checker, functions, .ok ()) =>
      match checkEach checkBody checker functions with
      | (checker, functions, .error halt) => (checker, ⟨globals, functions⟩, .error halt)
      | (checker, functions, .ok ()) =>
        (checker, ⟨globals, functions⟩, checker.expectMain functions)

end Checker

namespace Program

/-- Checks a program by itself. -/
def check (program : Program) : Checked Program Unit := (Checker.initial.checkProgram program).2

end Program

end GradualScript
