import GradualScript.Source.Line

/-!
# Drafts

A text may hold backspaces. Each takes back the last character that is still kept, and what is kept
in the end is read. The kept characters remember where they were written, so that everything said
about them can point into the text as written.
-/

namespace GradualScript

/-- A kept character and the byte offset at which it was written. -/
structure Glyph where
  char : Char
  origin : Nat
deriving DecidableEq

/-- What is kept of a text, and how many bytes the text had as it was written. -/
structure Draft where
  glyphs : List Glyph
  writtenSize : Nat
deriving DecidableEq

namespace Draft

/-- Reads the characters written from `offset` on; `kept` holds what is kept so far, last first. -/
def keep (offset : Nat) (kept : List Glyph) : List Char → List Glyph
  | [] => kept.reverse
  | c :: rest =>
    if c = '\x08' then keep (offset + c.utf8Size) kept.tail rest
    else keep (offset + c.utf8Size) (⟨c, offset⟩ :: kept) rest

/-- The draft of a text. -/
def ofText (text : List Char) : Draft := ⟨keep 0 [] text, Source.byteSize text⟩

/-- The kept characters. -/
def text (draft : Draft) : List Char := draft.glyphs.map Glyph.char

/-- Where the first of the glyphs was written; past the last one, the end of the text as written. -/
def originOf (draft : Draft) : List Glyph → Nat
  | [] => draft.writtenSize
  | glyph :: _ => glyph.origin

/-- Where the glyph after the first `count` ones was written. -/
def originAfter (draft : Draft) (count : Nat) : Nat := draft.originOf (draft.glyphs.drop count)

end Draft

end GradualScript
