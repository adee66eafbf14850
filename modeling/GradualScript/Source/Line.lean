import GradualScript.Text.Blank

/-!
# Lines of a text

A line ends with its newline and owns it. A place in a text lies on the line that holds its byte;
the place just past the text lies on the last line.
-/

namespace GradualScript

/-- A numbered line of a text, and a byte offset into that line. -/
structure LinePlace where
  /-- The number of the line, counted from one. -/
  number : Nat
  /-- The line with its newline. -/
  text : List Char
  /-- How many bytes of the line come before the place. -/
  column : Nat
deriving DecidableEq

namespace Source

/-- The number of bytes of a text in UTF-8. -/
def byteSize (text : List Char) : Nat := text.foldr (fun c size => c.utf8Size + size) 0

/-- The lines of a text: each ends with a newline but the last, which may end without one. -/
def lines : List Char → List (List Char)
  | [] => []
  | c :: rest =>
    if c = '\n' then [c] :: lines rest
    else
      match lines rest with
      | [] => [[c]]
      | line :: others => (c :: line) :: others

/-- The line of a list of lines on which the byte `column` bytes after the start of the first of
them lies, when the first has number `number`. -/
def lineFrom (number column : Nat) : List (List Char) → Option LinePlace
  | [] => none
  | [line] => if column ≤ byteSize line then some ⟨number, line, column⟩ else none
  | line :: next :: others =>
    if column < byteSize line then some ⟨number, line, column⟩
    else lineFrom (number + 1) (column - byteSize line) (next :: others)

/-- The line on which the byte at `offset` lies. There is none past the end, and none in an empty
text. -/
def lineAt (text : List Char) (offset : Nat) : Option LinePlace :=
  lineFrom 1 offset (lines text)

end Source

end GradualScript
