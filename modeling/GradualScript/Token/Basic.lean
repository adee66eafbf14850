import GradualScript.Source.Position

/-!
# Tokens

A token is a stretch of text that the grammar takes as one: its kind, its text, and where it stands
in the text as it was written. Keywords are identifiers.
-/

namespace GradualScript

/-- The kinds of tokens. -/
inductive TokenKind where
  | identifier
  | integer
  | decimal
  | character
  | string
  | operator
deriving DecidableEq

namespace TokenKind

/-- The name of a kind. -/
def name : TokenKind → String
  | identifier => "Identifier"
  | integer => "Integer"
  | decimal => "Decimal"
  | character => "Character"
  | string => "String"
  | operator => "Operator"

/-- The kind with the given name. -/
def ofName? (name : String) : Option TokenKind :=
  [identifier, integer, decimal, character, string, operator].find? (·.name = name)

end TokenKind

/-- A token and its place. -/
structure Token where
  kind : TokenKind
  text : String
  span : Span
deriving DecidableEq

namespace Token

/-- Tokens are alike when kind, text and starting offset agree, in whatever file they stand. -/
def alike (first second : Token) : Bool :=
  first.kind = second.kind && first.text = second.text &&
    first.span.start.offset = second.span.start.offset

/-- Whether the token is written as `text` and is no string literal. -/
def reads (token : Token) (text : String) : Bool :=
  token.kind ≠ .string && token.text = text

/-- A short description of a token. -/
def render (token : Token) : String :=
  token.kind.name ++ "(" ++ token.text ++ ") at " ++ Text.natural token.span.start.offset

end Token

end GradualScript
