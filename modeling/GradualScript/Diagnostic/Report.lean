import GradualScript.Diagnostic.Basic
import GradualScript.Source.Line

/-!
# Diagnostics shown against their source

A report names the diagnostic and the file, and shows the line it points at with a caret under the
place. Spaces and tabs at the start of the line are left out, and the caret moves with the text.
-/

namespace GradualScript.Diagnostic

/-- The text right-aligned in `width` columns, filled up on the left. -/
def alignRight (fill : Char) (width : Nat) (text : String) : String :=
  String.ofList (List.replicate (width - text.length) fill) ++ text

/-- The indentation that a report leaves out. -/
def isIndent (c : Char) : Bool := c = ' ' || c = '\t'

/-- The three lines that show a place: a rule, the numbered line, and the caret under the place. -/
def excerpt (place : LinePlace) : List String :=
  let number := Text.natural place.number
  let rule := alignRight ' ' (number.length + 2) "|"
  let indent := (place.text.takeWhile isIndent).length
  let shown := Text.trimEnd (place.text.dropWhile isIndent)
  [ rule,
    number ++ " | " ++ String.ofList shown,
    rule ++ " " ++ alignRight '-' (place.column - indent + 1) "^" ]

/-- The lines of a report on the text `content`, which is called `file`. -/
def report (diagnostic : Diagnostic) (file content : String) : List String :=
  let title := diagnostic.cause.phase.heading ++ ": " ++ diagnostic.cause.name
  let title :=
    match diagnostic.cause.tip with
    | some tip => title ++ " (" ++ tip ++ ")"
    | none => title
  let place := diagnostic.position.bind fun position => Source.lineAt content.toList position.offset
  title :: ("-> " ++ file) ::
    match place with
    | some place => excerpt place
    | none => ["   " ++ diagnostic.render]

end GradualScript.Diagnostic
