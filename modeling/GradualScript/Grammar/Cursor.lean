import GradualScript.Diagnostic.Basic
import GradualScript.Token.Basic

/-!
# Cursors

A cursor is a place in a list of tokens: the tokens passed so far and the tokens ahead.
-/

namespace GradualScript

/-- A place in the tokens of the text called `file`. -/
structure Cursor where
  /-- The tokens passed so far, the last one first. -/
  passed : List Token
  /-- The tokens ahead. -/
  ahead : List Token
  file : String
deriving DecidableEq

namespace Cursor

/-- The cursor at the start of a list of tokens. -/
def ofTokens (tokens : List Token) (file : String) : Cursor := ⟨[], tokens, file⟩

/-- The token that is `count` places after the next one. -/
def peek? (cursor : Cursor) (count : Nat) : Option Token := cursor.ahead[count]?

/-- Whether no token is ahead. -/
def isDone (cursor : Cursor) : Bool := cursor.ahead.isEmpty

/-- Whether the next token is written as `text`. -/
def isAt (cursor : Cursor) (text : String) : Bool := cursor.ahead.head?.any (·.reads text)

/-- Whether the next token is written as one of the texts. -/
def isAtAny (cursor : Cursor) (texts : List String) : Bool := texts.any cursor.isAt

/-- Whether the next token is of a kind. -/
def isAtKind (cursor : Cursor) (kind : TokenKind) : Bool :=
  cursor.ahead.head?.any fun token => token.kind = kind

/-- The place just past the last of all tokens. -/
def endOfTokens (cursor : Cursor) : Position :=
  match cursor.ahead.getLast? <|> cursor.passed.head? with
  | some token => token.span.stop
  | none => ⟨0, cursor.file⟩

/-- The place where the next token starts, or the end. -/
def position (cursor : Cursor) : Position :=
  match cursor.ahead with
  | token :: _ => token.span.start
  | [] => cursor.endOfTokens

/-- The span from `start` to the end of the token passed last. -/
def spanSince (cursor : Cursor) (start : Position) : Span :=
  match cursor.passed with
  | token :: _ => ⟨start, token.span.stop⟩
  | [] => ⟨start, start⟩

/-- The diagnostic for a next token, or an end, that is not what `message` says. -/
def mismatch (cursor : Cursor) (message : String) : Diagnostic :=
  match cursor.ahead with
  | token :: _ => .located (.unexpectedToken token.text message) token.span.start
  | [] => .located (.unexpectedEnd message) cursor.endOfTokens

/-- The cursor a number of tokens further on, or at the end. -/
def skip (cursor : Cursor) : Nat → Cursor
  | 0 => cursor
  | count + 1 =>
    match cursor.ahead with
    | [] => cursor
    | token :: rest => skip { cursor with passed := token :: cursor.passed, ahead := rest } count

end Cursor

end GradualScript
