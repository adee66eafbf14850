import GradualScript.Diagnostic.Basic
import GradualScript.Text.Blank
import GradualScript.Text.Escape
import GradualScript.Token.Basic

/-!
# Lexemes

A text is cut from left to right into lexemes: runs of blanks, and the texts of tokens. The first
character and those after it decide what the next lexeme is and how far it goes. Only a quoted
literal can fail to be read, since any other character is an operator by itself.

Nothing here knows about positions: a lexeme is a stretch of characters, and a failure says how many
characters stand before the place it speaks of.
-/

namespace GradualScript

/-- A stretch of a text: the text of a token, or a run of blanks, which has no kind. -/
structure Lexeme where
  kind : Option TokenKind
  text : List Char
deriving DecidableEq

/-- A failure to read a lexeme, and the number of characters before the place it speaks of. -/
structure Slip where
  cause : Cause
  distance : Nat
deriving DecidableEq

namespace Lexeme

/-- The characters that start an identifier. -/
def startsName (c : Char) : Bool := c.isAlpha || c = '@'

/-- The characters that go on with an identifier. -/
def continuesName (c : Char) : Bool := c.isAlphanum || c = '_' || c = '@' || c = '-'

/-- Whether a literal may not hold the character as it is. -/
def isLineBreak (c : Char) : Bool := c = '\n' || c = '\r'

/-- Whether `c` is the sign of a number, when `rest` follows it. -/
def isSign (c : Char) (rest : List Char) : Bool := c = '-' && rest.head?.any Char.isDigit

/-- The fraction at the start of a text: a point and at least one digit. -/
def fraction : List Char → List Char
  | '.' :: d :: rest => if d.isDigit then '.' :: d :: rest.takeWhile Char.isDigit else []
  | _ => []

/-- The whole number at the start of a text. A leading zero stands alone. -/
def wholeNumber : List Char → List Char
  | '0' :: _ => ['0']
  | text => text.takeWhile Char.isDigit

/-- The kind and the length of the number at the start of a text, behind a sign of `sign`
characters. -/
def number (sign : Nat) (text : List Char) : Except Slip (Option TokenKind × Nat) :=
  match wholeNumber text with
  | [] => .error ⟨.expectedDigit, 1⟩
  | digit :: digits =>
    let whole := (digit :: digits).length
    let part := (fraction (text.drop whole)).length
    .ok (some (if part = 0 then .integer else .decimal), sign + whole + part)

/-- How far the string literal goes on in a text, of which `passed` characters are read. -/
def stringEnd (passed : Nat) : List Char → Except Slip Nat
  | [] => .error ⟨.unterminatedString, passed⟩
  | ['\\'] => .error ⟨.unterminatedString, passed + 1⟩
  | '\\' :: letter :: rest =>
    if (Text.escape? letter).isSome then stringEnd (passed + 2) rest
    else .error ⟨.invalidEscape letter, passed + 1⟩
  | c :: rest =>
    if c = '"' then .ok (passed + 1)
    else if isLineBreak c then .error ⟨.newlineInLiteral, passed⟩
    else stringEnd (passed + 1) rest

/-- Ends a character literal, of which `passed` characters are read. -/
def closeCharacter (passed : Nat) : List Char → Except Slip Nat
  | [] => .error ⟨.unterminatedCharacter, passed⟩
  | c :: _ => if c = '\'' then .ok (passed + 1) else .error ⟨.malformedCharacter, passed⟩

/-- How far the character literal goes whose opening quote has been read. -/
def characterEnd : List Char → Except Slip Nat
  | [] => .error ⟨.unterminatedCharacter, 1⟩
  | ['\\'] => .error ⟨.unterminatedCharacter, 2⟩
  | '\\' :: letter :: rest =>
    if (Text.escape? letter).isSome then closeCharacter 3 rest
    else .error ⟨.invalidEscape letter, 2⟩
  | c :: rest =>
    if c = '\'' then .error ⟨.malformedCharacter, 1⟩
    else if isLineBreak c then .error ⟨.newlineInLiteral, 1⟩
    else closeCharacter 2 rest

/-- Whether two characters make one operator. -/
def isPair (first second : Char) : Bool :=
  (first, second) ∈ [('=', '='), ('!', '='), ('&', '&'), ('|', '|')]

/-- The length of the operator that starts with `c`, when `rest` follows it. -/
def operatorLength (c : Char) (rest : List Char) : Nat :=
  if rest.head?.any (isPair c) then 2 else 1

/-- The kind and the length of the lexeme that starts with `c`, when `rest` follows it. -/
def measure (c : Char) (rest : List Char) : Except Slip (Option TokenKind × Nat) :=
  if Text.isBlank c then .ok (none, 1 + (rest.takeWhile Text.isBlank).length)
  else if startsName c then .ok (some .identifier, 1 + (rest.takeWhile continuesName).length)
  else if c.isDigit then number 0 (c :: rest)
  else if isSign c rest then number 1 rest
  else if c = '"' then (stringEnd 1 rest).map fun length => (some .string, length)
  else if c = '\'' then (characterEnd rest).map fun length => (some .character, length)
  else .ok (some .operator, operatorLength c rest)

/-- The lexemes of a text, or what stops the first one that cannot be read. -/
def split : List Char → Except Slip (List Lexeme)
  | [] => .ok []
  | c :: rest =>
    match measure c rest with
    | .error slip => .error slip
    | .ok (kind, length) =>
      match split (rest.drop (length - 1)) with
      | .error slip => .error { slip with distance := length + slip.distance }
      | .ok others => .ok (⟨kind, c :: rest.take (length - 1)⟩ :: others)
termination_by text => text.length
decreasing_by simp only [List.length_drop, List.length_cons]; omega

end Lexeme

end GradualScript
