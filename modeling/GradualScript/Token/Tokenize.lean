import GradualScript.Token.Draft
import GradualScript.Token.Lexeme

/-!
# The tokens of a text

The tokens of a text are the lexemes of its draft that are no blanks, each placed where its
characters were written. A token ends where the next kept character was written, or with the text.
-/

namespace GradualScript

namespace Draft

/-- Places lexemes one after the other along the glyphs, and drops the blanks. -/
def place (draft : Draft) (file : String) (glyphs : List Glyph) : List Lexeme → List Token
  | [] => []
  | lexeme :: others =>
    let rest := glyphs.drop lexeme.text.length
    let later := draft.place file rest others
    match lexeme.kind with
    | none => later
    | some kind =>
      let span : Span := ⟨.ofByte (draft.originOf glyphs) file, .ofByte (draft.originOf rest) file⟩
      ⟨kind, String.ofList lexeme.text, span⟩ :: later

/-- The tokens of a draft. -/
def tokens (draft : Draft) (file : String) : Except Diagnostic (List Token) :=
  match Lexeme.split draft.text with
  | .error slip => .error (.located slip.cause (.ofByte (draft.originAfter slip.distance) file))
  | .ok lexemes => .ok (draft.place file draft.glyphs lexemes)

end Draft

/-- The tokens of the source text called `file`. -/
def tokenize (source file : String) : Except Diagnostic (List Token) :=
  (Draft.ofText source.toList).tokens file

/-- The name of a source text that was given none. -/
def unnamedFile : String := "shell"

end GradualScript
