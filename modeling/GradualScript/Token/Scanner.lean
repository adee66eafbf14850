import GradualScript.Token.Draft
import GradualScript.Token.Basic

/-!
# Scanning by hand

A scanner goes through the kept characters of a draft by bytes, and takes tokens of any length on
the way. Its place may be moved anywhere, so what it is asked for may not exist: a stretch that
splits a character, or one past the end.
-/

namespace GradualScript

namespace Glyph

/-- The glyphs after the first `count` bytes; none if that is inside a character or past the end. -/
def dropBytes? : Nat → List Glyph → Option (List Glyph)
  | 0, glyphs => some glyphs
  | _ + 1, [] => none
  | count + 1, glyph :: glyphs =>
    if count + 1 < glyph.char.utf8Size then none
    else dropBytes? (count + 1 - glyph.char.utf8Size) glyphs

/-- The first `count` bytes of the glyphs; none if they end inside a character or past the end. -/
def takeBytes? : Nat → List Glyph → Option (List Char)
  | 0, _ => some []
  | _ + 1, [] => none
  | count + 1, glyph :: glyphs =>
    if count + 1 < glyph.char.utf8Size then none
    else (takeBytes? (count + 1 - glyph.char.utf8Size) glyphs).map (glyph.char :: ·)

end Glyph

namespace Draft

/-- Where the character was written that holds the byte `offset` of the glyphs; past them, the end
of the text as written. -/
def originByte (draft : Draft) : Nat → List Glyph → Nat
  | _, [] => draft.writtenSize
  | offset, glyph :: glyphs =>
    if offset < glyph.char.utf8Size then glyph.origin
    else draft.originByte (offset - glyph.char.utf8Size) glyphs

end Draft

/-- A place in a draft, in bytes of the kept text, and the tokens taken so far. -/
structure Scanner where
  draft : Draft
  file : String
  offset : Nat
  tokens : List Token

namespace Scanner

/-- A scanner at the start of a text. -/
def ofText (text : List Char) (file : String) : Scanner := ⟨.ofText text, file, 0, []⟩

/-- Whether nothing is left to read. -/
def atEnd (scanner : Scanner) : Bool := Source.byteSize scanner.draft.text ≤ scanner.offset

/-- The text that is left to read. -/
def rest? (scanner : Scanner) : Option (List Char) :=
  (Glyph.dropBytes? scanner.offset scanner.draft.glyphs).map (·.map Glyph.char)

/-- Where the byte at `offset` of the kept text was written. -/
def writtenAt (scanner : Scanner) (offset : Nat) : Nat :=
  scanner.draft.originByte offset scanner.draft.glyphs

/-- Moves on by a number of bytes. -/
def move (scanner : Scanner) (count : Nat) : Scanner :=
  { scanner with offset := scanner.offset + count }

/-- Takes the next `length` bytes as a token of the given kind. -/
def take? (scanner : Scanner) (kind : TokenKind) (length : Nat) : Option Scanner := do
  let glyphs ← Glyph.dropBytes? scanner.offset scanner.draft.glyphs
  let text ← Glyph.takeBytes? length glyphs
  let place := fun offset => Position.ofByte (scanner.writtenAt offset) scanner.file
  let span : Span := ⟨place scanner.offset, place (scanner.offset + length)⟩
  let token : Token := ⟨kind, String.ofList text, span⟩
  some { scanner.move length with tokens := scanner.tokens ++ [token] }

end Scanner

end GradualScript
