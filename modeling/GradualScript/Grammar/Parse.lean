import GradualScript.Grammar.Cursor

/-!
# Parsing steps

A parsing step reads tokens at a cursor and moves it. When it fails, the cursor stays where the
failure was found.

Steps that repeat or nest get a number of steps that they may take. Each repetition and each level
of nesting passes a token, so the number of tokens ahead is always enough.
-/

namespace GradualScript

/-- A step that reads a value at a cursor. -/
abbrev Parse := EStateM Halt Cursor

namespace Parse

/-- Fails with a diagnostic. -/
def report {α : Type} (diagnostic : Diagnostic) : Parse α := throw (.reported diagnostic)

/-- Fails because the next token, or the end, is not what `message` says. -/
def fail {α : Type} (message : String) : Parse α := do report ((← get).mismatch message)

/-- Passes the next token. -/
def next : Parse Token := do
  match (← get).ahead with
  | token :: _ =>
    modify (·.skip 1)
    return token
  | [] => fail "a token"

/-- Passes the next token if it is written as `text`, and says whether it is. -/
def accept (text : String) : Parse Bool := do
  if (← get).isAt text then
    modify (·.skip 1)
    return true
  else
    return false

/-- Passes the next token, which must be written as `text`. -/
def require (text : String) : Parse Token := do
  if (← get).isAt text then next else fail ("expected `" ++ text ++ "`")

/-- Passes the next token, which must be of a kind. -/
def requireKind (kind : TokenKind) (message : String) : Parse Token := do
  if (← get).isAtKind kind then next else fail message

/-- The span from `start` to the end of the token passed last. -/
def spanSince (start : Position) : Parse Span := return (← get).spanSince start

/-- Reads something if the next token is written as `text`, after passing it. -/
def onlyAfter {α : Type} (text : String) (step : Parse α) : Parse (Option α) := do
  if ← accept text then some <$> step else return none

/-- Takes as many steps as tokens are ahead, and one more. -/
def bounded {α : Type} (step : Nat → Parse α) : Parse α := fun cursor =>
  step (cursor.ahead.length + 1) cursor

/-- Reads one item or more, with commas between them. -/
def separatedWithin {α : Type} (item : Parse α) : Nat → Parse (List α)
  | 0 => throw .exhausted
  | budget + 1 => do
    let first ← item
    if ← accept "," then return first :: (← separatedWithin item budget) else return [first]

/-- Reads items with commas between them, up to `closer`, and passes that. -/
def itemsUntil {α : Type} (closer : String) (item : Parse α) : Parse (List α) := do
  let items ← if (← get).isAt closer then pure [] else bounded (separatedWithin item)
  let _ ← require closer
  return items

/-- Reads items as long as the next token is written as one of `starts`. -/
def whileAtWithin {α : Type} (starts : List String) (item : Parse α) : Nat → Parse (List α)
  | 0 => throw .exhausted
  | budget + 1 => do
    if (← get).isAtAny starts then
      let first ← item
      return first :: (← whileAtWithin starts item budget)
    else
      return []

/-- A type is named by an identifier. -/
def typeName : Parse String := return (← requireKind .identifier "expected type name").text

end Parse

end GradualScript
