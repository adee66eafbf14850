import GradualScript.Machine.Sink
import GradualScript.Native
import GradualScript.Scope.Arena
import GradualScript.Value.Basic

/-!
# Machines

A machine holds what a running script can see and change: the variables and functions in their
scopes, the scope that runs, the type that the running function has to give back, and what has been
printed.

A run changes a machine. When it ends without a value the machine keeps what was done up to there.
-/

namespace GradualScript

/-- A variable of a running script. -/
structure Cell where
  value : Value
  isMutable : Bool

/-- What a call runs. -/
inductive Routine where
  | builtIn (function : Native)
  /-- A function of the program, and the scope in which its body sees names. -/
  | written (function : Function) (closure : ScopeId)

/-- What a running script can see and change. -/
structure Machine where
  arena : Arena Cell Routine
  current : ScopeId
  returnType : Option Ty
  sink : Sink

/-- A run on a machine. -/
abbrev Run := EStateM Halt Machine

/-- What comes after a statement. -/
inductive Signal where
  /-- The next statement. -/
  | goOn
  /-- The end of the function, with its value. -/
  | finish (value : Value)

namespace Machine

/-- A machine that knows the native functions only. -/
def initial (limit : Option Nat) : Machine :=
  let functions := Native.all.map fun function =>
    ((function.signature.name, function.signature.arity), Routine.builtIn function)
  ⟨.ofFunctions functions, Arena.root, none, .empty limit⟩

/-- Enters a new scope inside the current one. -/
def enter (machine : Machine) : Machine × ScopeId :=
  let (arena, id) := machine.arena.push machine.current
  ({ machine with arena, current := id }, id)

/-- Leaves a scope for its parent, and releases it. -/
def leave (machine : Machine) (id : ScopeId) : Except Halt Machine := do
  let parent ← machine.arena.parent id
  return { machine with arena := machine.arena.dropFrom id, current := parent.getD Arena.root }

end Machine

namespace Run

/-- Ends a run with a diagnostic about a place. -/
def report {α : Type} (cause : Cause) (position : Position) : Run α :=
  throw (.reported (.located cause position))

/-- Goes on with a result, or ends the run. -/
def ofExcept {α : Type} : Except Halt α → Run α
  | .ok value => pure value
  | .error halt => throw halt

/-- Goes on with a result, or ends the run with a diagnostic about a place. -/
def ofCause {α : Type} (position : Position) : Except Cause α → Run α
  | .ok value => pure value
  | .error cause => report cause position

/-- Adds a variable to a scope. -/
def define (id : ScopeId) (name : String) (cell : Cell) (position : Position) : Run Unit := do
  let machine ← get
  let arena ← ofExcept (machine.arena.addVariable id name cell position)
  set { machine with arena }

/-- Adds a variable to the current scope. -/
def declare (name : String) (value : Value) (position : Position) : Run Unit := do
  define (← get).current name ⟨value, true⟩ position

/-- The variable that a name at a position means. -/
def cellAt (name : String) (position : Position) : Run Cell := do
  let machine ← get
  match ← ofExcept (machine.arena.findVariable machine.current name) with
  | some cell => return cell
  | none => report (.variableUndefined name) position

/-- Runs something in a new scope inside the current one, and leaves the scope whatever it comes to.
-/
def inScope {α : Type} (run : Run α) : Run α := fun machine =>
  let (inner, id) := machine.enter
  let result := run inner
  match result with
  | .ok value inner =>
    match inner.leave id with
    | .ok outer => .ok value outer
    | .error halt => .error halt inner
  | .error halt inner =>
    match inner.leave id with
    | .ok outer => .error halt outer
    | .error later => .error later inner

/-- Writes the pieces of the text of a value, and a newline. -/
def print (value : Value) (position : Option Position) : Run Value := do
  let machine ← get
  let (sink, complete) := machine.sink.writeAll (value.pieces ++ ["\n"])
  set { machine with sink }
  if complete then return .nil
  else throw (.reported (.orAt (.unlocated (.outputFailed Sink.refusal)) position))

end Run

end GradualScript
