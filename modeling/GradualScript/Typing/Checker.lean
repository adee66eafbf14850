import GradualScript.Native
import GradualScript.Scope.Arena

/-!
# Checkers

A checker holds what is known while a program is checked: the names that are declared, the scope
that is being checked, and the type that a function has to give back.
-/

namespace GradualScript

/-- What is known while a program is checked. -/
structure Checker where
  arena : Arena Variable Signature
  current : ScopeId
  returnType : Ty

namespace Checker

/-- A checker that knows the native functions only. -/
def initial : Checker :=
  let functions := Native.all.map fun function =>
    ((function.signature.name, function.signature.arity), function.signature)
  ⟨.ofFunctions functions, Arena.root, .nil⟩

/-- Enters a new scope inside the current one. -/
def enter (checker : Checker) : Checker × ScopeId :=
  let (arena, id) := checker.arena.push checker.current
  ({ checker with arena, current := id }, id)

/-- Leaves a scope for its parent, and releases it. -/
def leave (checker : Checker) (id : ScopeId) : Except Halt Checker := do
  let parent ← checker.arena.parent id
  return { checker with arena := checker.arena.dropFrom id, current := parent.getD Arena.root }

/-- The type that is written as `name` at a position. -/
def resolve (name : String) (position : Position) : Except Halt Ty :=
  match Ty.ofName? name with
  | some ty => .ok ty
  | none => .error (.reported (.located (.unknownType name) position))

end Checker

end GradualScript
