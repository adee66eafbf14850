import GradualScript.Diagnostic.Basic
import GradualScript.Scope.Table

/-!
# Scopes

Names live in scopes, and a scope has a parent in which a name is looked for that the scope does not
have. All scopes stand in one arena, in the order in which they were entered, and are known by their
number. The scope with number zero is the root. Leaving a scope releases it and all that were
entered after it.

An arena does not keep anyone from using a number that names no scope, so operations on a scope may
find it missing. A chain of parents that comes back to itself has no end; a search gives up on it
once it has been through more scopes than there are.

Functions are told apart by name and number of parameters.
-/

namespace GradualScript

/-- The number of a scope. -/
abbrev ScopeId := Nat

/-- The names of one scope. -/
structure Scope (V F : Type) where
  parent : Option ScopeId
  variableTable : Table String V
  functionTable : Table (String × Nat) F

/-- All scopes, by number. -/
structure Arena (V F : Type) where
  scopes : Array (Scope V F)

namespace Arena

variable {V F α : Type}

/-- The number of the root scope. -/
def root : ScopeId := 0

/-- The arena whose root has the given functions and no variables. A later function replaces an
earlier one with the same name and number of parameters. -/
def ofFunctions (functions : List ((String × Nat) × F)) : Arena V F :=
  ⟨#[⟨none, .empty, .ofList functions⟩]⟩

/-- The arena with an empty root. -/
def empty : Arena V F := ofFunctions []

/-- The number of scopes. -/
def depth (arena : Arena V F) : Nat := arena.scopes.size

/-- The scope with a number. -/
def scope (arena : Arena V F) (id : ScopeId) : Except Halt (Scope V F) :=
  match arena.scopes[id]? with
  | some scope => .ok scope
  | none => .error .dangling

/-- The parent of a scope. -/
def parent (arena : Arena V F) (id : ScopeId) : Except Halt (Option ScopeId) := do
  return (← arena.scope id).parent

/-- Adds an empty scope with the given parent, and says its number. -/
def push (arena : Arena V F) (parent : ScopeId) : Arena V F × ScopeId :=
  (⟨arena.scopes.push ⟨some parent, .empty, .empty⟩⟩, arena.depth)

/-- Drops a scope and all after it. The root stays. -/
def dropFrom (arena : Arena V F) (id : ScopeId) : Arena V F :=
  if id = root then arena else ⟨arena.scopes.take id⟩

/-- Adds a variable to a scope that has none of this name. -/
def addVariable (arena : Arena V F) (id : ScopeId) (name : String) (value : V)
    (position : Position) : Except Halt (Arena V F) := do
  let scope ← arena.scope id
  if scope.variableTable.contains name then
    throw (.reported (.located (.variableRedeclared name) position))
  let variableTable := scope.variableTable.insert name value
  return ⟨arena.scopes.setIfInBounds id { scope with variableTable }⟩

/-- Adds a function to a scope that has none of this name and number of parameters. -/
def addFunction (arena : Arena V F) (id : ScopeId) (name : String) (arity : Nat) (function : F)
    (position : Position) : Except Halt (Arena V F) := do
  let scope ← arena.scope id
  if scope.functionTable.contains (name, arity) then
    throw (.reported (.located (.functionRedeclared name arity) position))
  let functionTable := scope.functionTable.insert (name, arity) function
  return ⟨arena.scopes.setIfInBounds id { scope with functionTable }⟩

/-- Goes from a scope to its parent and on, up to the first scope in which something is found, for
at most `budget` scopes. -/
def searchWithin (arena : Arena V F) (find : Scope V F → Option α) :
    Nat → ScopeId → Except Halt (Option (ScopeId × α))
  | 0, _ => .error .exhausted
  | budget + 1, id => do
    let scope ← arena.scope id
    match find scope with
    | some found => return some (id, found)
    | none =>
      match scope.parent with
      | some parent => arena.searchWithin find budget parent
      | none => return none

/-- Goes from a scope to its parent and on, up to the first scope in which something is found. -/
def search (arena : Arena V F) (find : Scope V F → Option α) (id : ScopeId) :
    Except Halt (Option (ScopeId × α)) :=
  arena.searchWithin find (arena.depth + 1) id

/-- The variable that a name means in a scope. -/
def findVariable (arena : Arena V F) (id : ScopeId) (name : String) : Except Halt (Option V) := do
  return (← arena.search (·.variableTable.find? name) id).map Prod.snd

/-- The function that a name and a number of arguments mean in a scope. -/
def findFunction (arena : Arena V F) (id : ScopeId) (name : String) (arity : Nat) :
    Except Halt (Option F) := do
  return (← arena.search (·.functionTable.find? (name, arity)) id).map Prod.snd

/-- Gives a new value to the variable that a name means in a scope; none if it means none. -/
def assign (arena : Arena V F) (id : ScopeId) (name : String) (value : V) :
    Except Halt (Option (Arena V F)) := do
  match ← arena.search (·.variableTable.find? name) id with
  | none => return none
  | some (owner, _) =>
    let scope ← arena.scope owner
    let variableTable := scope.variableTable.replace name value
    return some ⟨arena.scopes.setIfInBounds owner { scope with variableTable }⟩

end Arena

end GradualScript
