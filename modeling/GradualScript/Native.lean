import GradualScript.Program.Tree

/-!
# Functions that every script has
-/

namespace GradualScript

/-- The functions that no script declares. -/
inductive Native where
  /-- Writes a value and a newline. -/
  | print
deriving DecidableEq

namespace Native

/-- All of them. -/
def all : List Native := [print]

/-- How a native function is declared. -/
def signature : Native → Signature
  | print => ⟨"print", [.any], .nil⟩

/-- A short description of a native function. -/
def render (function : Native) : String :=
  let signature := function.signature
  "<native " ++ signature.name ++ "/" ++ Text.natural signature.arity ++ ">"

end Native

end GradualScript
