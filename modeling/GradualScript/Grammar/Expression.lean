import GradualScript.Decimal.Text
import GradualScript.Grammar.Parse
import GradualScript.Integer
import GradualScript.Program.Tree
import GradualScript.Text.Unquote

/-!
# The grammar of expressions

An expression is an operand, followed by operators and their right operands. An operator takes the
expression before it as its left operand as long as it binds tighter than the place that asks for an
expression; its right operand binds tighter still, so that operators of one power associate to the
left.

Which operators and keywords there are is a parameter: a `Grammar` that knows none of them reads
operands and plain expression statements.
-/

namespace GradualScript

/-- The keywords that start a statement. -/
inductive Keyword where
  | declaration
  | branch
  | switch
  | loop
  | result
deriving DecidableEq

namespace Keyword

/-- How a keyword is written. -/
def text : Keyword → String
  | declaration => "LET"
  | branch => "IF"
  | switch => "SWITCH"
  | loop => "WHILE"
  | result => "RETURN"

/-- All keywords that start a statement. -/
def all : List Keyword := [declaration, branch, switch, loop, result]

end Keyword

/-- The operators and statement keywords that are known. -/
structure Grammar where
  operators : List Operator
  keywords : List Keyword

namespace Grammar

/-- The grammar of the language. -/
def standard : Grammar := ⟨Operator.all, Keyword.all⟩

/-- The grammar without operators and statement keywords. -/
def bare : Grammar := ⟨[], []⟩

/-- The known operator that is written as `symbol`. -/
def operator? (grammar : Grammar) (symbol : String) : Option Operator :=
  grammar.operators.find? (·.symbol = symbol)

/-- The known keyword that a token is. -/
def keyword? (grammar : Grammar) (token : Token) : Option Keyword :=
  if token.kind = .identifier then grammar.keywords.find? (·.text = token.text) else none

/-- How tightly an operator binds. One that is not known does not bind at all. -/
def powerOf (grammar : Grammar) (operator : Operator) : Power :=
  if operator ∈ grammar.operators then operator.bindingPower else .loosest

/-- The ordering operator that a token makes with an equals sign after it. -/
def orEqual? (token : Token) : Option Operator :=
  if token.text = "<" then some .lessEqual
  else if token.text = ">" then some .greaterEqual
  else none

/-- Whether `next` is an equals sign right behind a token. -/
def isEqualsBehind (token next : Token) : Bool :=
  next.kind = .operator && next.text = "=" && next.span.start.offset = token.span.stop.offset

/-- The operator at a cursor and the number of tokens it is made of. An order sign with an equals
sign right behind it is one operator. -/
def operatorAt? (grammar : Grammar) (cursor : Cursor) : Option (Operator × Nat) :=
  match cursor.ahead with
  | [] => none
  | token :: rest =>
    if token.kind ≠ .operator then none
    else
      let wide := if rest.head?.any (isEqualsBehind token) then orEqual? token else none
      match wide with
      | some operator => some (operator, 2)
      | none => (grammar.operator? token.text).map (·, 1)

end Grammar

namespace Parse

/-- The failure of a number that cannot be read. -/
def unreadable (token : Token) : Halt :=
  .reported (.located (.unreadableNumber token.text) token.span.start)

/-- The failure of a character literal that does not hold one character. -/
def notOneCharacter (token : Token) : Halt :=
  .reported (.located (.unexpectedToken token.text "expected a single character") token.span.start)

/-- The characters between the quotes of a literal, with escapes replaced. -/
def quotedText? (token : Token) : Option (List Char) :=
  (Text.unquote? token.text.toList).map Text.unescape

/-- The literal that a token stands for, if it stands for one. -/
def literal? (token : Token) : Option (Except Halt Literal) :=
  match token.kind with
  | .integer =>
    match Integer.ofText? token.text.toList with
    | some value => some (.ok (.integer value))
    | none => some (.error (unreadable token))
  | .decimal =>
    match Decimal.ofText? token.text.toList with
    | some value => some (.ok (.decimal value))
    | none => some (.error (unreadable token))
  | .character =>
    match quotedText? token with
    | some [value] => some (.ok (.character value))
    | some _ => some (.error (notOneCharacter token))
    | none => some (.error .severed)
  | .string =>
    match quotedText? token with
    | some value => some (.ok (.string (String.ofList value)))
    | none => some (.error .severed)
  | .identifier =>
    if token.text = "NIL" then some (.ok .nil)
    else if token.text = "TRUE" then some (.ok (.boolean true))
    else if token.text = "FALSE" then some (.ok (.boolean false))
    else none
  | .operator => none

/-- What a name stands for: a function with its arguments, an element of a list, or a variable. -/
def named (expression : Parse Expr) : Parse Expr := do
  let token ← next
  if ← accept "(" then
    let arguments ← itemsUntil ")" expression
    return .call (← spanSince token.span.start) none token.text none arguments
  else if ← accept "[" then
    let offset ← expression
    let _ ← require "]"
    return .element (← spanSince token.span.start) none token.text none offset
  else
    return .access token.span none token.text none

/-- An expression in parentheses. -/
def groupWith (expression : Parse Expr) : Parse Expr := do
  let opener ← require "("
  let inner ← expression
  let _ ← require ")"
  return .group (← spanSince opener.span.start) none inner

/-- A list of expressions in brackets. -/
def listWith (expression : Parse Expr) : Parse Expr := do
  let opener ← require "["
  let elements ← itemsUntil "]" expression
  return .list (← spanSince opener.span.start) none elements

/-- An operand. -/
def operandWith (expression : Parse Expr) : Parse Expr := do
  match (← get).ahead with
  | [] => fail "expected expression"
  | token :: _ =>
    match literal? token with
    | some literal =>
      let _ ← next
      match literal with
      | .ok value => return .literal token.span none value
      | .error halt => throw halt
    | none =>
      if token.kind = .identifier then named expression
      else if token.text = "(" then groupWith expression
      else fail "expected expression"

/-- An operator and its right operand, after the left operand. -/
def operationWith (grammar : Grammar) (expression : Power → Parse Expr) (left : Expr)
    (power : Power) : Parse Expr := do
  match grammar.operatorAt? (← get) with
  | none => fail "expected operator"
  | some (operator, width) =>
    modify (·.skip width)
    let right ← expression power
    return .binary (left.span.through right.span) none operator left right

/-- Operators that bind tighter than `power`, and their right operands, after an expression. -/
def chainWithin (grammar : Grammar) (expression : Power → Parse Expr) (power : Power) :
    Nat → Expr → Parse Expr
  | 0, _ => throw .exhausted
  | budget + 1, left => do
    match grammar.operatorAt? (← get) with
    | none => return left
    | some (operator, _) =>
      let own := grammar.powerOf operator
      if power < own then
        chainWithin grammar expression power budget (← operationWith grammar expression left own)
      else
        return left

/-- An expression whose operators bind tighter than `power`, nested at most `budget` deep. -/
def expressionWithin (grammar : Grammar) : Nat → Power → Parse Expr
  | 0, _ => throw .exhausted
  | budget + 1, power => do
    let left ← operandWith (expressionWithin grammar budget .loosest)
    bounded fun count => chainWithin grammar (expressionWithin grammar budget) power count left

/-- An expression whose operators bind tighter than `power`. -/
def expression (grammar : Grammar) (power : Power) : Parse Expr :=
  bounded (expressionWithin grammar · power)

/-- A whole expression. -/
def anyExpression (grammar : Grammar) : Parse Expr := expression grammar .loosest

/-- An operand. -/
def operand (grammar : Grammar) : Parse Expr := operandWith (anyExpression grammar)

/-- An expression in parentheses. -/
def group (grammar : Grammar) : Parse Expr := groupWith (anyExpression grammar)

/-- A list of expressions in brackets. -/
def list (grammar : Grammar) : Parse Expr := listWith (anyExpression grammar)

/-- An operator and a right operand that binds tighter than `power`, after the left operand. -/
def operation (grammar : Grammar) (left : Expr) (power : Power) : Parse Expr :=
  operationWith grammar (expression grammar) left power

end Parse

end GradualScript
