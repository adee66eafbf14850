import GradualScript.Grammar.Expression

/-!
# The grammar of statements

A statement that starts with a keyword goes on as the keyword says. Any other is an expression,
which becomes an assignment when an equals sign follows it. Blocks go up to a keyword that ends
them, which is left for the statement around them to pass.
-/

namespace GradualScript

namespace Parse

/-- A call, or an assignment when an equals sign follows the first expression. -/
def plainStatement (grammar : Grammar) : Parse Stmt := do
  let start := (← get).position
  let expr ← anyExpression grammar
  if ← accept "=" then
    if expr.isAccess then
      let value ← anyExpression grammar
      let _ ← require ";"
      return .assignment (← spanSince start) expr value
    else
      report (.located .invalidTarget expr.start)
  else
    let _ ← require ";"
    return .expression (← spanSince start) expr

/-- What a block ends with, as a message names it. -/
def terminatorNames (terminators : List String) : String :=
  " or ".intercalate (terminators.map fun terminator => "`" ++ terminator ++ "`")

/-- Statements up to one of `terminators`. -/
def blockWithin (statement : Parse Stmt) (terminators : List String) : Nat → Parse (List Stmt)
  | 0 => throw .exhausted
  | budget + 1 => do
    let cursor ← get
    if cursor.isAtAny terminators then return []
    else if cursor.isDone then fail (terminatorNames terminators)
    else
      let first ← statement
      return first :: (← blockWithin statement terminators budget)

/-- Statements up to one of `terminators`. -/
def blockWith (statement : Parse Stmt) (terminators : List String) : Parse (List Stmt) :=
  bounded (blockWithin statement terminators)

/-- A new variable. -/
def declaration (grammar : Grammar) : Parse Stmt := do
  let keyword ← require Keyword.declaration.text
  let name ← requireKind .identifier "expected identifier during variable declaration"
  let type ← onlyAfter ":" typeName
  let initializer ← onlyAfter "=" (anyExpression grammar)
  let _ ← require ";"
  return .declaration (← spanSince keyword.span.start) name.text type initializer none

/-- A condition and one or two blocks. -/
def branchWith (grammar : Grammar) (statement : Parse Stmt) : Parse Stmt := do
  let keyword ← require Keyword.branch.text
  let condition ← anyExpression grammar
  let _ ← require "DO"
  let thenBody ← blockWith statement ["ELSE", "END"]
  let elseBody ← if ← accept "ELSE" then blockWith statement ["END"] else pure []
  let _ ← require "END"
  return .branch (← spanSince keyword.span.start) condition thenBody elseBody

/-- The arms of a switch. -/
def casesWithin (grammar : Grammar) (statement : Parse Stmt) : Nat → Parse Cases
  | 0 => throw .exhausted
  | budget + 1 => do
    if (← get).isAt "CASE" then
      let keyword ← next
      let value ← anyExpression grammar
      let _ ← require ":"
      let body ← blockWith statement ["CASE", "DEFAULT", "END"]
      let span ← spanSince keyword.span.start
      return .case span value body (← casesWithin grammar statement budget)
    else
      let keyword ← require "DEFAULT"
      let body ← blockWith statement ["END"]
      return .default (← spanSince keyword.span.start) body

/-- A subject and the arms to choose from. -/
def switchWith (grammar : Grammar) (statement : Parse Stmt) : Parse Stmt := do
  let keyword ← require Keyword.switch.text
  let subject ← anyExpression grammar
  let cases ← bounded (casesWithin grammar statement)
  let _ ← require "END"
  return .switch (← spanSince keyword.span.start) subject cases

/-- A condition and a block. -/
def loopWith (grammar : Grammar) (statement : Parse Stmt) : Parse Stmt := do
  let keyword ← require Keyword.loop.text
  let condition ← anyExpression grammar
  let _ ← require "DO"
  let body ← blockWith statement ["END"]
  let _ ← require "END"
  return .loop (← spanSince keyword.span.start) condition body

/-- The value of a function. -/
def result (grammar : Grammar) : Parse Stmt := do
  let keyword ← require Keyword.result.text
  let value ← anyExpression grammar
  let _ ← require ";"
  return .result (← spanSince keyword.span.start) value

/-- A statement, given how the statements inside it are read. -/
def statementWith (grammar : Grammar) (statement : Parse Stmt) : Parse Stmt := do
  match (← get).ahead.head?.bind grammar.keyword? with
  | some .declaration => declaration grammar
  | some .branch => branchWith grammar statement
  | some .switch => switchWith grammar statement
  | some .loop => loopWith grammar statement
  | some .result => result grammar
  | none => plainStatement grammar

/-- A statement nested at most `budget` deep. -/
def statementWithin (grammar : Grammar) : Nat → Parse Stmt
  | 0 => throw .exhausted
  | budget + 1 => statementWith grammar (statementWithin grammar budget)

/-- A statement. -/
def statement (grammar : Grammar) : Parse Stmt := bounded (statementWithin grammar)

/-- Statements up to one of `terminators`. -/
def block (grammar : Grammar) (terminators : List String) : Parse (List Stmt) :=
  blockWith (statement grammar) terminators

end Parse

end GradualScript
