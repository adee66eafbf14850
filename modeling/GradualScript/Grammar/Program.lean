import GradualScript.Grammar.Statement

/-!
# The grammar of programs

A program declares its globals first and its functions after them. A global starts with a keyword
that says whether it is a list, a variable or a constant.
-/

namespace GradualScript

namespace Parse

/-- A variable of the whole program: a list, a variable, or else a constant. -/
def global (grammar : Grammar) : Parse Global := do
  let keyword ← next
  let name ← requireKind .identifier "expected identifier during global declaration"
  let _ ← require ":"
  let type ← typeName
  let isMutable := keyword.text = "LIST" || keyword.text = "VAR"
  let initializer ←
    if keyword.text = "LIST" then do
      let _ ← require "="
      some <$> list grammar
    else if keyword.text = "VAR" then onlyAfter "=" (anyExpression grammar)
    else do
      let _ ← require "="
      some <$> anyExpression grammar
  let _ ← require ";"
  return ⟨← spanSince keyword.span.start, name.text, type, isMutable, initializer, none⟩

/-- A parameter and its type. -/
def parameter : Parse Parameter := do
  let name ← requireKind .identifier "expected parameter name"
  let _ ← require ":"
  return ⟨name.text, ← typeName⟩

/-- A function. -/
def function (grammar : Grammar) : Parse Function := do
  let keyword ← require "FUN"
  let name ← requireKind .identifier "expected function name"
  let _ ← require "("
  let parameters ← itemsUntil ")" parameter
  let type ← onlyAfter ":" typeName
  let _ ← require "DO"
  let body ← block grammar ["END"]
  let _ ← require "END"
  return ⟨← spanSince keyword.span.start, name.text, parameters, type, body, none⟩

/-- A program: its globals, then its functions, and nothing after them. -/
def program (grammar : Grammar) : Parse Program := do
  let globals ← bounded (whileAtWithin ["LIST", "VAR", "VAL"] (global grammar))
  let functions ← bounded (whileAtWithin ["FUN"] (function grammar))
  if (← get).isDone then return ⟨globals, functions⟩
  else fail "expected global or function definition"

end Parse

namespace Program

/-- The program that is written in the tokens of the text called `file`. -/
def parse (tokens : List Token) (file : String) : Except Halt Program :=
  match Parse.program .standard (.ofTokens tokens file) with
  | .ok program _ => .ok program
  | .error halt _ => .error halt

end Program

end GradualScript
