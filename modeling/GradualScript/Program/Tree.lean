import GradualScript.Decimal.Basic
import GradualScript.Program.Operator
import GradualScript.Source.Position
import GradualScript.Ty

/-!
# Programs as trees

A program is a list of globals and a list of functions. Each node knows the span of text that it was
read from. A node also has room for what checking finds out about it: the type of an expression, and
what a name refers to. A tree as it is read has none of this, a checked one has all of it, and one
whose check failed has as much as was found out before.
-/

namespace GradualScript

/-- A variable as the checker knows it. -/
structure Variable where
  name : String
  ty : Ty
  isMutable : Bool
deriving DecidableEq

/-- A function as the checker knows it. -/
structure Signature where
  name : String
  parameters : List Ty
  result : Ty
deriving DecidableEq

/-- The number of arguments that a function takes. -/
def Signature.arity (signature : Signature) : Nat := signature.parameters.length

/-- A value that is written out in the program. -/
inductive Literal where
  | nil
  | boolean (value : Bool)
  | integer (value : Int64)
  | decimal (value : Decimal)
  | character (value : Char)
  | string (value : String)
deriving DecidableEq

/-- The type of a literal. -/
def Literal.ty : Literal → Ty
  | nil => .nil
  | boolean _ => .boolean
  | integer _ => .integer
  | decimal _ => .decimal
  | character _ => .character
  | string _ => .string

/-- Expressions. -/
inductive Expr where
  /-- A value written out. -/
  | literal (span : Span) (ty : Option Ty) (value : Literal)
  /-- An expression in parentheses. -/
  | group (span : Span) (ty : Option Ty) (inner : Expr)
  /-- An operator between two operands. -/
  | binary (span : Span) (ty : Option Ty) (operator : Operator) (left right : Expr)
  /-- The value of a variable. -/
  | access (span : Span) (ty : Option Ty) (name : String) (binding : Option Variable)
  /-- The element of a list variable at an offset. -/
  | element (span : Span) (ty : Option Ty) (name : String) (binding : Option Variable)
      (offset : Expr)
  /-- The value of a function. -/
  | call (span : Span) (ty : Option Ty) (name : String) (binding : Option Signature)
      (arguments : List Expr)
  /-- A list of values. -/
  | list (span : Span) (ty : Option Ty) (elements : List Expr)

namespace Expr

/-- The text that an expression was read from. -/
def span : Expr → Span
  | literal span .. | group span .. | binary span .. | access span .. | element span ..
  | call span .. | list span .. => span

/-- The type that checking found for an expression. -/
def ty : Expr → Option Ty
  | literal _ ty .. | group _ ty .. | binary _ ty .. | access _ ty .. | element _ ty ..
  | call _ ty .. | list _ ty .. => ty

/-- The place where an expression starts. -/
def start (expr : Expr) : Position := expr.span.start

/-- Whether an expression names a variable or an element of one. -/
def isAccess : Expr → Bool
  | access .. | element .. => true
  | _ => false

/-- Whether an expression is an operator between two operands. -/
def isBinary : Expr → Bool
  | binary .. => true
  | _ => false

/-- Whether an expression calls a function. -/
def isCall : Expr → Bool
  | call .. => true
  | _ => false

end Expr

mutual

/-- Statements. -/
inductive Stmt where
  /-- An expression whose value is dropped. -/
  | expression (span : Span) (expr : Expr)
  /-- A new variable, with or without a type and an initial value. -/
  | declaration (span : Span) (name : String) (typeName : Option String)
      (initializer : Option Expr) (binding : Option Variable)
  /-- A new value for a variable or an element of one. -/
  | assignment (span : Span) (receiver value : Expr)
  /-- One of two blocks, as a condition says. -/
  | branch (span : Span) (condition : Expr) (thenBody elseBody : List Stmt)
  /-- The first block whose value equals the subject. -/
  | switch (span : Span) (subject : Expr) (cases : Cases)
  /-- A block, as long as a condition holds. -/
  | loop (span : Span) (condition : Expr) (body : List Stmt)
  /-- The end of a function, and its value. -/
  | result (span : Span) (value : Expr)

/-- The arms of a switch: cases with a value, tried in order, and the default after them. -/
inductive Cases where
  | default (span : Span) (body : List Stmt)
  | case (span : Span) (value : Expr) (body : List Stmt) (others : Cases)

end

/-- The text that a statement was read from. -/
def Stmt.span : Stmt → Span
  | expression span .. | declaration span .. | assignment span .. | branch span ..
  | switch span .. | loop span .. | result span .. => span

/-- The number of arms of a switch, the default among them. -/
def Cases.count : Cases → Nat
  | default .. => 1
  | case _ _ _ others => others.count + 1

/-- A variable of the whole program. -/
structure Global where
  span : Span
  name : String
  typeName : String
  isMutable : Bool
  initializer : Option Expr
  binding : Option Variable

/-- A parameter of a function. -/
structure Parameter where
  name : String
  typeName : String
deriving DecidableEq

/-- A function of the program. -/
structure Function where
  span : Span
  name : String
  parameters : List Parameter
  resultTypeName : Option String
  body : List Stmt
  binding : Option Signature

/-- The number of arguments that a function takes. -/
def Function.arity (function : Function) : Nat := function.parameters.length

/-- A whole program. -/
structure Program where
  globals : List Global
  functions : List Function

end GradualScript
