import GradualScript.Text.Number

/-!
# Places in a source text

A place is a byte offset into the UTF-8 form of a text, together with the name of that text. The
name travels with the offset because one run may join several texts, and because a few reports point
at no text at all. Offsets are kept in 32 bits, which a text may outgrow.
-/

namespace GradualScript

/-- A byte offset into the source text called `file`. -/
structure Position where
  offset : Nat
  file : String
deriving DecidableEq

namespace Position

/-- The number of different offsets, which have 32 bits. -/
def offsetLimit : Nat := 4294967296

/-- The place of a byte of a text. Where a text outgrows the offsets, they start again from zero. -/
def ofByte (index : Nat) (file : String) : Position := ⟨index % offsetLimit, file⟩

theorem ofByte_of_lt {index : Nat} (short : index < offsetLimit) (file : String) :
    ofByte index file = ⟨index, file⟩ := by
  rw [ofByte, Nat.mod_eq_of_lt short]

theorem offset_ofByte_le (index : Nat) (file : String) : (ofByte index file).offset ≤ index :=
  Nat.mod_le _ _

theorem ofByte_add_offsetLimit (index : Nat) (file : String) :
    ofByte (index + offsetLimit) file = ofByte index file := by
  rw [ofByte, Nat.add_mod_right, ofByte]

/-- The place of things that no source text declares. -/
def null : Position := ⟨0, "<null>"⟩

/-- A position is written as the file name, a colon and the offset. -/
def render (position : Position) : String :=
  position.file ++ ":" ++ Text.natural position.offset

end Position

/-- The stretch of text from `start` up to, and without, `stop`. -/
structure Span where
  start : Position
  stop : Position
deriving DecidableEq

namespace Span

/-- The span from the start of one span to the end of another. -/
def through (first last : Span) : Span := ⟨first.start, last.stop⟩

end Span

end GradualScript
