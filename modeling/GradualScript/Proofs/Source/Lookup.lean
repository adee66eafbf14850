import GradualScript.Proofs.Source.Line

/-!
# Looking up a line inverts the offsets

There is one way to cut a text after each of its newlines, and the lines of the text are the pieces.
The bytes of the pieces before a place and the column of the place make up its offset, so the lookup
can be told from the pieces alone: it finds the one place that an offset marks.
-/

namespace GradualScript

namespace Source

/-- The pieces of a text that is cut after each of its newlines. -/
inductive CutAfterNewlines : List Char → List (List Char) → Prop
  | empty : CutAfterNewlines [] []
  | unended {line : List Char} (notEmpty : line ≠ []) (plain : '\n' ∉ line) :
      CutAfterNewlines line [line]
  | ended {line rest : List Char} {pieces : List (List Char)} (plain : '\n' ∉ line)
      (others : CutAfterNewlines rest pieces) :
      CutAfterNewlines (line ++ '\n' :: rest) ((line ++ ['\n']) :: pieces)

theorem lines_ended {line : List Char} (plain : '\n' ∉ line) (rest : List Char) :
    lines (line ++ '\n' :: rest) = (line ++ ['\n']) :: lines rest := by
  induction line with
  | nil => simp [lines]
  | cons c line ih =>
      rw [List.mem_cons, not_or] at plain
      rw [List.cons_append, lines, if_neg (Ne.symm plain.1), ih plain.2]
      rfl

theorem lines_unended {line : List Char} (notEmpty : line ≠ []) (plain : '\n' ∉ line) :
    lines line = [line] := by
  induction line with
  | nil => exact absurd rfl notEmpty
  | cons c line ih =>
      rw [List.mem_cons, not_or] at plain
      rw [lines, if_neg (Ne.symm plain.1)]
      cases line with
      | nil => rfl
      | cons next line => rw [ih (List.cons_ne_nil _ _) plain.2]

/-- A text can be cut in one way only. -/
theorem CutAfterNewlines.eq_lines {text : List Char} {pieces : List (List Char)}
    (cut : CutAfterNewlines text pieces) : pieces = lines text := by
  induction cut with
  | empty => rfl
  | unended notEmpty plain => exact (lines_unended notEmpty plain).symm
  | ended plain _ ih => rw [lines_ended plain, ih]

/-- A character that is no newline goes to the first piece. -/
theorem CutAfterNewlines.cons_lines {c : Char} {rest : List Char} (other : c ≠ '\n')
    (cut : CutAfterNewlines rest (lines rest)) :
    CutAfterNewlines (c :: rest) (lines (c :: rest)) := by
  generalize found : lines rest = pieces at cut
  rw [lines, if_neg other, found]
  cases cut with
  | empty => exact .unended (List.cons_ne_nil _ _) (by simpa using Ne.symm other)
  | unended _ plain =>
      exact .unended (List.cons_ne_nil _ _)
        (List.not_mem_cons_of_ne_of_not_mem (Ne.symm other) plain)
  | @ended line below pieces plain others =>
      have longer : '\n' ∉ c :: line :=
        List.not_mem_cons_of_ne_of_not_mem (Ne.symm other) plain
      exact .ended longer others

/-- The lines of a text are the pieces into which it is cut. -/
theorem cutAfterNewlines_lines (text : List Char) : CutAfterNewlines text (lines text) := by
  induction text with
  | nil => exact .empty
  | cons c rest ih =>
      by_cases newline : c = '\n'
      · subst newline
        rw [lines, if_pos rfl]
        exact .ended List.not_mem_nil ih
      · exact ih.cons_lines newline

theorem cutAfterNewlines_iff {text : List Char} {pieces : List (List Char)} :
    CutAfterNewlines text pieces ↔ pieces = lines text := by
  refine ⟨fun cut => cut.eq_lines, ?_⟩
  rintro rfl
  exact cutAfterNewlines_lines text

end Source

/-- Whether an offset into a text that is cut into pieces marks a place: the place is on one of the
pieces, and the bytes of the pieces before and the column make up the offset. The column is inside
the piece, except that the end of the text is the end of the last piece. -/
structure LinePlace.Marked (pieces : List (List Char)) (offset : Nat) (place : LinePlace) :
    Prop where
  numbered : 1 ≤ place.number
  piece : pieces[place.number - 1]? = some place.text
  makesUp : Source.byteSize (pieces.take (place.number - 1)).flatten + place.column = offset
  inside :
    if offset = Source.byteSize pieces.flatten then
      place.number = pieces.length ∧ place.column = Source.byteSize place.text
    else place.column < Source.byteSize place.text

namespace Source

variable {number column : Nat} {line : List Char}

/-- A column inside a line, or at the end of the last line, is found at that line. -/
theorem lineFrom_append {earlier later : List (List Char)}
    (inside : column < byteSize line ∨ later = [] ∧ column = byteSize line) :
    lineFrom number (byteSize earlier.flatten + column) (earlier ++ line :: later) =
      some ⟨number + earlier.length, line, column⟩ := by
  induction earlier generalizing number with
  | nil =>
      cases later with
      | nil =>
          have fits : column ≤ byteSize line := by omega
          simp [lineFrom, fits]
      | cons next later =>
          have fits : column < byteSize line := by simpa using inside
          simp [lineFrom, fits]
  | cons first earlier ih =>
      -- Another line follows the first one, and the column is past the first.
      obtain ⟨next, others, follow⟩ : ∃ next others, earlier ++ line :: later = next :: others :=
        List.exists_cons_of_ne_nil (by simp)
      have rest : lineFrom (number + 1) (byteSize earlier.flatten + column)
          (earlier ++ line :: later) = some ⟨number + 1 + earlier.length, line, column⟩ := ih
      rw [follow] at rest
      have past : byteSize first + byteSize earlier.flatten + column - byteSize first =
          byteSize earlier.flatten + column := by omega
      rw [List.flatten_cons, byteSize_append, List.cons_append, follow, lineFrom, if_neg (by omega),
        past, rest, List.length_cons, Nat.add_assoc, Nat.add_comm 1]

/-- A byte of a text is a byte of one of its pieces. -/
theorem exists_piece {pieces : List (List Char)} (inside : column < byteSize pieces.flatten) :
    ∃ earlier line later start, pieces = earlier ++ line :: later ∧
      byteSize earlier.flatten + start = column ∧ start < byteSize line := by
  induction pieces generalizing column with
  | nil => exact absurd inside (Nat.not_lt_zero _)
  | cons first pieces ih =>
      by_cases here : column < byteSize first
      · exact ⟨[], first, pieces, column, rfl, by simp, here⟩
      · rw [List.flatten_cons, byteSize_append] at inside
        have beyond : column - byteSize first < byteSize pieces.flatten := by omega
        obtain ⟨earlier, line, later, start, rfl, makesUp, fits⟩ := ih beyond
        refine ⟨first :: earlier, line, later, start, rfl, ?_, fits⟩
        rw [List.flatten_cons, byteSize_append]
        omega

theorem lineFrom_past {pieces : List (List Char)} (past : byteSize pieces.flatten < column) :
    lineFrom number column pieces = none := by
  induction pieces generalizing number column with
  | nil => rfl
  | cons first pieces ih =>
      rw [List.flatten_cons, byteSize_append] at past
      cases pieces with
      | nil => exact if_neg (by omega)
      | cons next pieces =>
          rw [lineFrom, if_neg (by omega)]
          exact ih (by omega)

end Source

namespace LinePlace.Marked

open Source

variable {pieces : List (List Char)} {offset : Nat} {place : LinePlace}

/-- The pieces around a marked place. -/
theorem split (marked : place.Marked pieces offset) :
    ∃ earlier later, pieces = earlier ++ place.text :: later ∧
      place.number = earlier.length + 1 ∧ byteSize earlier.flatten + place.column = offset := by
  obtain ⟨bound, same⟩ := List.getElem?_eq_some_iff.mp marked.piece
  refine ⟨pieces.take (place.number - 1), pieces.drop (place.number - 1 + 1), ?_, ?_,
    marked.makesUp⟩
  · rw [← same, ← List.drop_eq_getElem_cons bound, List.take_append_drop]
  · have numbered := marked.numbered
    rw [List.length_take]
    omega

theorem of_split {earlier later : List (List Char)}
    (split : pieces = earlier ++ place.text :: later) (number : place.number = earlier.length + 1)
    (makesUp : byteSize earlier.flatten + place.column = offset)
    (inside : place.column < byteSize place.text ∨
      later = [] ∧ place.column = byteSize place.text) :
    place.Marked pieces offset where
  numbered := by omega
  piece := by simp [split, number]
  makesUp := by simpa [split, number] using makesUp
  inside := by
    subst split
    rw [List.flatten_append, byteSize_append, List.flatten_cons, byteSize_append]
    rcases inside with inside | ⟨rfl, atEnd⟩
    · rw [if_neg (by omega)]
      exact inside
    · rw [if_pos (by simp; omega)]
      simp [number, atEnd]

/-- The lookup in some pieces finds the place that is marked. -/
theorem lineFrom_eq (marked : place.Marked pieces offset) :
    lineFrom 1 offset pieces = some place := by
  obtain ⟨earlier, later, rfl, number, rfl⟩ := marked.split
  have inside : place.column < byteSize place.text ∨
      later = [] ∧ place.column = byteSize place.text := by
    have inside := marked.inside
    split at inside
    · refine .inr ⟨?_, inside.2⟩
      have last := inside.1
      rw [number, List.length_append, List.length_cons] at last
      exact List.length_eq_zero_iff.mp (by omega)
    · exact .inl inside
  rw [lineFrom_append inside, Nat.add_comm, ← number]

end LinePlace.Marked

namespace Source

/-- Every offset into a text that is not empty, up to its end, marks a place. -/
theorem exists_marked {text : List Char} {offset : Nat} (notEmpty : text ≠ [])
    (inside : offset ≤ byteSize text) : ∃ place : LinePlace, place.Marked (lines text) offset := by
  rcases Nat.lt_or_eq_of_le inside with before | atEnd
  · rw [← flatten_lines text] at before
    obtain ⟨earlier, line, later, start, split, makesUp, fits⟩ := exists_piece before
    exact ⟨⟨earlier.length + 1, line, start⟩, .of_split split rfl makesUp (.inl fits)⟩
  · obtain ⟨earlier, line, split⟩ := List.eq_nil_or_concat (lines text) |>.resolve_left
      (lines_ne_nil notEmpty)
    rw [List.concat_eq_append] at split
    refine ⟨⟨earlier.length + 1, line, byteSize line⟩, .of_split split rfl ?_ (.inr ⟨rfl, rfl⟩)⟩
    rw [atEnd, ← flatten_lines text, split]
    simp [byteSize_append]

/-- Every place of a text that is not empty is on a line. -/
theorem exists_lineAt {text : List Char} {offset : Nat} (notEmpty : text ≠ [])
    (inside : offset ≤ byteSize text) : ∃ place, lineAt text offset = some place := by
  obtain ⟨place, marked⟩ := exists_marked notEmpty inside
  exact ⟨place, marked.lineFrom_eq⟩

/-- A place past the end is on no line, and an empty text has none. -/
theorem lineAt_eq_none_iff {text : List Char} {offset : Nat} :
    lineAt text offset = none ↔ text = [] ∨ byteSize text < offset := by
  constructor
  · intro missing
    refine Decidable.of_not_not fun inside => ?_
    rw [not_or, Nat.not_lt] at inside
    obtain ⟨place, found⟩ := exists_lineAt inside.1 inside.2
    rw [missing] at found
    cases found
  · rintro (rfl | past)
    · rfl
    · exact lineFrom_past (by rwa [flatten_lines])

/-- The place that is found is the one that the offset marks. -/
theorem lineAt_eq_some_iff {text : List Char} {offset : Nat} {place : LinePlace} :
    lineAt text offset = some place ↔ place.Marked (lines text) offset := by
  refine ⟨fun found => ?_, fun marked => marked.lineFrom_eq⟩
  have onLine : ¬(text = [] ∨ byteSize text < offset) := by
    rw [← lineAt_eq_none_iff, found]
    exact Option.some_ne_none place
  rw [not_or, Nat.not_lt] at onLine
  obtain ⟨other, marked⟩ := exists_marked onLine.1 onLine.2
  have same : some other = some place := marked.lineFrom_eq.symm.trans found
  cases same
  exact marked

/-- Looking up the line of an offset inverts the offsets: the lines are the pieces of the text that
is cut after each newline, there is no line for an offset exactly if the text is empty or ends
before it, and otherwise the place that is found is the one that the offset marks. -/
theorem lineAt_inverts (text : List Char) (offset : Nat) :
    (∀ pieces, CutAfterNewlines text pieces ↔ pieces = lines text) ∧
      (lineAt text offset = none ↔ text = [] ∨ byteSize text < offset) ∧
      ∀ place : LinePlace, lineAt text offset = some place ↔ place.Marked (lines text) offset :=
  ⟨fun _ => cutAfterNewlines_iff, lineAt_eq_none_iff, fun _ => lineAt_eq_some_iff⟩

end Source

end GradualScript
