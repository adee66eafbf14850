import GradualScript.Source.Line
import GradualScript.Text.Escape

/-!
# Quotes around literals

The quotes of a literal are its first and its last byte. A text that does not come from a script may
start or end with a wider character, and then there is no text without its quotes.
-/

namespace GradualScript.Text

/-- Whether a character is a single byte. -/
def isNarrow (c : Char) : Bool := c.utf8Size = 1

/-- A text without its first and its last byte, or as it is if it has fewer than two; none if one of
these bytes is only part of a character. -/
def unquote? (text : List Char) : Option (List Char) :=
  if Source.byteSize text < 2 then some text
  else if text.head?.all isNarrow && text.getLast?.all isNarrow then some text.tail.dropLast
  else none

end GradualScript.Text
