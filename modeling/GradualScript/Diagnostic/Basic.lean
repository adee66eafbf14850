import GradualScript.Source.Position
import GradualScript.Text.Quoted

/-!
# Diagnostics

Everything that can go wrong with a script is a `Cause`. A cause belongs to one `Phase` of the work,
has a name, a sentence that states it and, mostly, a tip on how to mend it. A `Diagnostic` is a
cause and, where one is known, the place it speaks of.

Types appear in a cause by name, so that a diagnostic is plain data.
-/

namespace GradualScript

/-- The part of the work that a diagnostic belongs to. -/
inductive Phase where
  | lexing
  | parsing
  | checking
  | running
deriving DecidableEq

/-- The heading under which diagnostics of a phase are shown. -/
def Phase.heading : Phase → String
  | .lexing => "LexError"
  | .parsing => "ParseError"
  | .checking => "SemanticError"
  | .running => "RuntimeError"

/-- What went wrong. -/
inductive Cause where
  | unterminatedString
  | unterminatedCharacter
  | invalidEscape (escape : Char)
  | newlineInLiteral
  | malformedCharacter
  | expectedDigit
  | strayToken (token : String)
  | unexpectedToken (token message : String)
  | unexpectedEnd (expected : String)
  | unreadableNumber (token : String)
  | invalidTarget
  | variableRedeclared (name : String)
  | variableUndeclared (name : String)
  | functionRedeclared (function : String) (arity : Nat)
  | functionUndeclared (function : String) (arity : Nat)
  | unknownType (type : String)
  | typeMismatch (expected received : String)
  | argumentMismatch (expected received : String)
  | operandMismatch (operator left right : String)
  | assignmentToConstant (name : String)
  | bareDeclaration (name : String)
  | needlessGroup
  | statementNotCall
  | missingMain
  | mainResult (received : String)
  | valueMismatch (expected received : String)
  | illegalOperation (operator left right : String)
  | divisionByZero
  | indexOutOfBounds (index : Int) (length : Nat)
  | integerOverflow
  | decimalOverflow
  | variableUndefined (name : String)
  | functionUndefined (function : String) (arity : Nat)
  | variableConstant (name : String)
  | outputFailed (message : String)
deriving DecidableEq

namespace Cause

/-- The phase that a cause belongs to. Declaring a name twice counts as a checking error, also when
it is found while the script runs. -/
def phase : Cause → Phase
  | unterminatedString | unterminatedCharacter | invalidEscape _ | newlineInLiteral
  | malformedCharacter | expectedDigit => .lexing
  | strayToken _ | unexpectedToken _ _ | unexpectedEnd _ | unreadableNumber _ | invalidTarget =>
    .parsing
  | variableRedeclared _ | variableUndeclared _ | functionRedeclared _ _ | functionUndeclared _ _
  | unknownType _ | typeMismatch _ _ | argumentMismatch _ _ | operandMismatch _ _ _
  | assignmentToConstant _ | bareDeclaration _ | needlessGroup | statementNotCall | missingMain
  | mainResult _ => .checking
  | valueMismatch _ _ | illegalOperation _ _ _ | divisionByZero | indexOutOfBounds _ _
  | integerOverflow | decimalOverflow | variableUndefined _ | functionUndefined _ _
  | variableConstant _ | outputFailed _ => .running

/-- The name under which a cause is shown. -/
def name : Cause → String
  | unterminatedString => "UnterminatedString"
  | unterminatedCharacter => "UnterminatedCharacter"
  | invalidEscape _ => "InvalidEscape"
  | newlineInLiteral => "NewlineInLiteral"
  | malformedCharacter => "MalformedCharacter"
  | expectedDigit => "ExpectedDigit"
  | strayToken _ => "UnexpectedToken"
  | unexpectedToken _ _ => "UnexpectedTokenDetailed"
  | unexpectedEnd _ => "UnexpectedEndOfInput"
  | unreadableNumber _ => "NumberParseError"
  | invalidTarget => "InvalidAssignmentTarget"
  | variableRedeclared _ => "VariableAlreadyDeclared"
  | variableUndeclared _ => "VariableNotDeclared"
  | functionRedeclared _ _ => "FunctionAlreadyDeclared"
  | functionUndeclared _ _ => "FunctionNotDeclared"
  | unknownType _ => "UnknownType"
  | typeMismatch _ _ => "TypeMatchError"
  | argumentMismatch _ _ => "ArgumentTypeMatchError"
  | operandMismatch _ _ _ => "InvalidOperands"
  | assignmentToConstant _ => "ImmutableAssignment"
  | bareDeclaration _ => "ExpectedExplicitValue"
  | needlessGroup => "GroupWithoutBinary"
  | statementNotCall => "ExpressionNotCall"
  | missingMain => "MissingMain"
  | mainResult _ => "InvalidMainReturn"
  | valueMismatch _ _ => "RuntimeTypeError"
  | illegalOperation _ _ _ => "IllegalOperation"
  | divisionByZero => "DivideByZero"
  | indexOutOfBounds _ _ => "IndexOutOfBounds"
  | integerOverflow => "IntegerOverflow"
  | decimalOverflow => "DecimalOverflow"
  | variableUndefined _ => "UndefinedVariable"
  | functionUndefined _ _ => "UndefinedFunction"
  | variableConstant _ => "ImmutableVariable"
  | outputFailed _ => "Output"

/-- The sentence that states a cause. -/
def message : Cause → String
  | unterminatedString => "unterminated string literal"
  | unterminatedCharacter => "unterminated character literal"
  | invalidEscape escape => "invalid escape sequence \\" ++ escape.toString
  | newlineInLiteral => "newline inside literal"
  | malformedCharacter => "malformed character literal"
  | expectedDigit => "expected digit"
  | strayToken token => "unexpected token: " ++ Text.quoted token
  | unexpectedToken token message => "unexpected token (" ++ message ++ "): " ++ Text.quoted token
  | unexpectedEnd expected => "unexpected end of input, expected " ++ expected
  | unreadableNumber token => "error parsing number: " ++ Text.quoted token
  | invalidTarget => "invalid assignment target"
  | variableRedeclared name => "variable " ++ Text.quoted name ++ " already declared"
  | variableUndeclared name => "variable " ++ Text.quoted name ++ " not declared"
  | functionRedeclared function arity =>
    "function " ++ Text.quoted function ++ " with " ++ Text.natural arity ++
      " parameters already declared"
  | functionUndeclared function arity =>
    "function " ++ Text.quoted function ++ " with " ++ Text.natural arity ++
      " parameters not declared"
  | unknownType type => "unknown type " ++ type ++ " found"
  | typeMismatch expected received =>
    "types do not match: expected " ++ expected ++ ", received " ++ received
  | argumentMismatch expected received =>
    "argument types do not match: expected " ++ expected ++ ", received " ++ received
  | operandMismatch operator left right =>
    "operator " ++ operator ++ " cannot be applied to " ++ left ++ " and " ++ right
  | assignmentToConstant name => "cannot assign to immutable variable " ++ Text.quoted name
  | bareDeclaration name =>
    "declaration of " ++ Text.quoted name ++ " has neither a type nor a value"
  | needlessGroup => "grouped expression must be a binary expression"
  | statementNotCall => "expression statement must be a function call"
  | missingMain => "no main/0 function declared"
  | mainResult received => "main/0 must return Integer, found " ++ received
  | valueMismatch expected received => "expected " ++ expected ++ ", received " ++ received
  | illegalOperation operator left right =>
    "illegal operation " ++ left ++ " " ++ operator ++ " " ++ right
  | divisionByZero => "division by zero"
  | indexOutOfBounds index length =>
    "index " ++ Text.integer index ++ " out of bounds for length " ++ Text.natural length
  | integerOverflow => "integer overflow"
  | decimalOverflow => "decimal overflow"
  | variableUndefined name => "variable " ++ Text.quoted name ++ " is not defined"
  | functionUndefined function arity =>
    "function " ++ Text.quoted function ++ " with " ++ Text.natural arity ++
      " parameters is not defined"
  | variableConstant name => "variable " ++ Text.quoted name ++ " is immutable"
  | outputFailed message => "failed to write output: " ++ message

/-- The advice that goes with a cause. -/
def tip : Cause → Option String
  | unterminatedString => some "String literal is missing its closing `\"`"
  | unterminatedCharacter => some "Character literal is missing its closing `'`"
  | invalidEscape escape =>
    some ("Invalid escape `\\" ++ escape.toString ++
      "`, expected one of \\b \\n \\r \\t \\' \\\" \\\\")
  | newlineInLiteral => some "Literals cannot span lines, use `\\n` instead"
  | malformedCharacter => some "Character literals hold exactly one character"
  | expectedDigit => none
  | strayToken token => some ("Unexpected token: `" ++ token ++ "`, did you miss a semicolon?")
  | unexpectedToken token message => some ("Unexpected token: `" ++ token ++ "`, " ++ message)
  | unexpectedEnd expected => some ("Input ended while expecting " ++ expected)
  | unreadableNumber token =>
    some ("Invalid number: `" ++ token ++ "`, is it above the integer limit?")
  | invalidTarget => some "Only variables and list elements can be assigned to"
  | variableRedeclared name => some ("Variable `" ++ name ++ "` already declared")
  | variableUndeclared name => some ("Variable `" ++ name ++ "` not declared")
  | functionRedeclared function arity =>
    some ("Function `" ++ function ++ "/" ++ Text.natural arity ++ "` already declared")
  | functionUndeclared function arity =>
    some ("Function `" ++ function ++ "/" ++ Text.natural arity ++ "` not declared")
  | unknownType type => some ("Unknown type `" ++ type ++ "` found")
  | typeMismatch expected received =>
    some ("Expected type `" ++ expected ++ "`, received `" ++ received ++ "`")
  | argumentMismatch expected received =>
    some ("Expected argument type `" ++ expected ++ "`, received `" ++ received ++ "`")
  | operandMismatch operator left right =>
    some ("Operator `" ++ operator ++ "` cannot be applied to `" ++ left ++ "` and `" ++ right ++
      "`")
  | assignmentToConstant name =>
    some ("Variable `" ++ name ++ "` is immutable, declare it with VAR or LET")
  | bareDeclaration name =>
    some ("Declaration of `" ++ name ++ "` needs a type or an initial value")
  | needlessGroup => some "Parentheses may only wrap a binary expression"
  | statementNotCall => some "Only function calls may be used as statements"
  | missingMain => some "Declare `FUN main(): Integer DO ... END`"
  | mainResult received => some ("`main` must return `Integer`, found `" ++ received ++ "`")
  | valueMismatch expected received =>
    some ("Expected a value of type `" ++ expected ++ "`, received `" ++ received ++ "`")
  | illegalOperation operator left right =>
    some ("Operator `" ++ operator ++ "` cannot be applied to `" ++ left ++ "` and `" ++ right ++
      "`")
  | divisionByZero => none
  | indexOutOfBounds index length =>
    some ("Index " ++ Text.integer index ++ " is outside a list of length " ++ Text.natural length)
  | integerOverflow => some "Integer arithmetic overflowed 64 bits"
  | decimalOverflow => none
  | variableUndefined name => some ("Variable `" ++ name ++ "` is not defined")
  | functionUndefined function arity =>
    some ("Function `" ++ function ++ "/" ++ Text.natural arity ++ "` is not defined")
  | variableConstant name => some ("Variable `" ++ name ++ "` cannot be reassigned")
  | outputFailed _ => none

end Cause

/-- A cause and, where it is known, the place it speaks of. -/
structure Diagnostic where
  cause : Cause
  position : Option Position
deriving DecidableEq

namespace Diagnostic

/-- A diagnostic about a place. -/
def located (cause : Cause) (position : Position) : Diagnostic := ⟨cause, some position⟩

/-- A diagnostic about no place. -/
def unlocated (cause : Cause) : Diagnostic := ⟨cause, none⟩

/-- Gives a diagnostic a place, unless it has one already. -/
def orAt (diagnostic : Diagnostic) (position : Option Position) : Diagnostic :=
  { diagnostic with position := diagnostic.position <|> position }

/-- The whole text of a diagnostic: heading, message and offset. -/
def render (diagnostic : Diagnostic) : String :=
  let text := diagnostic.cause.phase.heading ++ ": " ++ diagnostic.cause.message
  match diagnostic.position with
  | some position => text ++ " (at offset " ++ Text.natural position.offset ++ ")"
  | none => text

end Diagnostic

/-- Why a computation ended without a value. -/
inductive Halt where
  /-- It found something wrong with the script. -/
  | reported (diagnostic : Diagnostic)
  /-- It followed a scope number that names no scope. -/
  | dangling
  /-- It cut a text inside a character. -/
  | severed
  /-- It used up the number of steps it was given. -/
  | exhausted
deriving DecidableEq

end GradualScript
