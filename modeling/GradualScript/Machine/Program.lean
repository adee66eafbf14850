import GradualScript.Machine.Statement
import GradualScript.Typing.Program

/-!
# Running programs

A call runs the body of a function in a scope of its own inside the scope where the function was
declared, and comes back to the caller's scope whatever happens. Calls may nest, and loops may go
round, as often as a budget says; a run that needs more ends as exhausted, and with a larger budget
it goes further.
-/

namespace GradualScript

namespace Run

/-- Binds parameters to arguments in a scope. -/
def bindArguments (id : ScopeId) (position : Position) : List Parameter → List Value → Run Unit
  | parameter :: parameters, value :: values => do
    define id parameter.name ⟨value, true⟩ position
    bindArguments id position parameters values
  | _, _ => pure ()

/-- The value of a function whose body ended. -/
def valueOf : Signal → Value
  | .finish value => value
  | .goOn => .nil

/-- Runs the body of a function for a caller, given how the body runs. -/
def enterFunction (function : Function) (closure : ScopeId) (arguments : List Value)
    (body : Run Signal) : Run Value := fun caller =>
  let returnType := function.binding.map Signature.result
  let (inner, id) := { caller with current := closure, returnType }.enter
  let back (callee : Machine) : Machine :=
    { callee with
      arena := callee.arena.dropFrom id
      current := caller.current
      returnType := caller.returnType }
  let bind := bindArguments id function.span.start function.parameters arguments
  match (bind *> body) inner with
  | .ok signal callee => .ok (valueOf signal) (back callee)
  | .error halt callee => .error halt (back callee)

/-- The function that a name means for a caller at a position. -/
def routineAt (name : String) (arity : Nat) (position : Option Position) : Run Routine := do
  let machine ← get
  match ← ofExcept (machine.arena.findFunction machine.current name arity) with
  | some routine => return routine
  | none => throw (.reported ⟨.functionUndefined name arity, position⟩)

/-- Runs a native function. -/
def callNative (function : Native) (arguments : List Value) (position : Option Position) :
    Run Value := do
  match function with
  | .print =>
    arguments.forM fun value => do let _ ← print value position
    return .nil

/-- Runs the function that a name means on arguments, with calls nested at most `budget` deep. -/
def call : Nat → Caller
  | 0, _, _, _ => throw .exhausted
  | budget + 1, name, arguments, position => do
    match ← routineAt name arguments.length position with
    | .builtIn function => callNative function arguments position
    | .written function closure =>
      enterFunction function closure arguments (executeAll (call budget) budget function.body)

/-- Adds a variable to the root scope that no source text declares. -/
def provide (name : String) (value : Value) (isMutable : Bool) : Run Unit :=
  define Arena.root name ⟨value, isMutable⟩ .null

/-- Gives the globals of a program their values. -/
def setUpGlobals (budget : Nat) : List Global → Run Unit
  | [] => pure ()
  | global :: others => do
    let value ← initialValue (call budget) global.binding global.initializer
    define Arena.root global.name ⟨value, true⟩ global.span.start
    setUpGlobals budget others

/-- Adds the functions of a program to the root scope. -/
def setUpFunctions : List Function → Run Unit
  | [] => pure ()
  | function :: others => do
    let machine ← get
    let routine := Routine.written function Arena.root
    let arena ← ofExcept
      (machine.arena.addFunction Arena.root function.name function.arity routine
        function.span.start)
    set { machine with arena }
    setUpFunctions others

/-- Runs a program: its globals, then its `main` function. -/
def program (budget : Nat) (program : Program) : Run Value := do
  setUpGlobals budget program.globals
  setUpFunctions program.functions
  call budget Checker.mainName [] none

end Run

end GradualScript
