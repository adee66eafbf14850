import GradualScript.Source.Line

/-!
# The lines of a text make it up

The number of bytes of a text is that of its parts together, and the lines of a text, put together,
are the text.
-/

namespace GradualScript.Source

@[simp]
theorem byteSize_nil : byteSize [] = 0 :=
  rfl

@[simp]
theorem byteSize_cons (c : Char) (text : List Char) :
    byteSize (c :: text) = c.utf8Size + byteSize text :=
  rfl

theorem byteSize_append (first second : List Char) :
    byteSize (first ++ second) = byteSize first + byteSize second := by
  induction first with
  | nil => simp
  | cons c rest ih => simp [ih, Nat.add_assoc]

/-- The lines of a text, one after the other, are the text. -/
theorem flatten_lines (text : List Char) : (lines text).flatten = text := by
  induction text with
  | nil => rfl
  | cons c rest ih =>
      rw [lines]
      split
      · simp [ih]
      · split
        · rename_i noLines
          simpa [noLines] using ih
        · rename_i line others someLines
          simpa [someLines] using ih

theorem lines_ne_nil {text : List Char} (notEmpty : text ≠ []) : lines text ≠ [] := by
  intro noLines
  apply notEmpty
  rw [← flatten_lines text, noLines, List.flatten_nil]

end GradualScript.Source
