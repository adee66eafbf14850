import GradualScript.Text.Hidden

/-!
# Quoted texts in messages

A message quotes a name or a token between double quotes, in such a way that every character of it
can be seen: the quote, the backslash and the usual controls get a backslash form, other characters
that do not show are written by their number.
-/

namespace GradualScript.Text

/-- How one character is written inside a quoted text. -/
def quotedChar (c : Char) : List Char :=
  match c with
  | '\x00' => ['\\', '0']
  | '\t' => ['\\', 't']
  | '\r' => ['\\', 'r']
  | '\n' => ['\\', 'n']
  | '"' => ['\\', '"']
  | '\\' => ['\\', '\\']
  | c =>
    if isHidden c then ['\\', 'u', '\x7b'] ++ Nat.toDigits 16 c.toNat ++ ['\x7d'] else [c]

/-- A text between double quotes. -/
def quoted (text : String) : String :=
  String.ofList ('"' :: text.toList.flatMap quotedChar ++ ['"'])

end GradualScript.Text
