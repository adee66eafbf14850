/-!
# Escapes in literals

Inside a character or string literal a backslash and a letter stand for one character.
-/

namespace GradualScript.Text

/-- The character that a backslash followed by `letter` stands for. -/
def escape? (letter : Char) : Option Char :=
  match letter with
  | 'b' => some '\x08'
  | 'n' => some '\n'
  | 'r' => some '\r'
  | 't' => some '\t'
  | '\'' => some '\''
  | '"' => some '"'
  | '\\' => some '\\'
  | _ => none

/-- A text with its escapes replaced. A backslash that starts no escape stays as it is. -/
def unescape : List Char → List Char
  | [] => []
  | [c] => [c]
  | c :: letter :: rest =>
    match (if c = '\\' then escape? letter else none) with
    | some resolved => resolved :: unescape rest
    | none => c :: unescape (letter :: rest)

end GradualScript.Text
