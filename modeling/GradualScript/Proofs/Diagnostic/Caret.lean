import GradualScript.Diagnostic.Report
import GradualScript.Proofs.Source.Lookup
import Mathlib.Data.List.TakeWhile

/-!
# Where the caret of a report stands

A report shows the line of its place without the indentation and without the blanks at the end, and
below it a line that ends with a caret. For a character of the shown part, the caret comes after the
gutter and as many dashes as there are *bytes* before the character. So it stands under the
character exactly if the characters before it take one byte each.
-/

namespace GradualScript

namespace Source

theorem length_le_byteSize (text : List Char) : text.length ≤ byteSize text := by
  induction text with
  | nil => exact Nat.le_refl _
  | cons c rest ih =>
      have positive := c.utf8Size_pos
      rw [List.length_cons, byteSize_cons]
      omega

theorem utf8Size_eq_one_iff {c : Char} : c.utf8Size = 1 ↔ c.toNat < 128 := by
  rw [Char.utf8Size_eq_one_iff, UInt32.le_iff_toNat_le]
  exact Nat.lt_succ_iff.symm

/-- A text has as many bytes as characters if all of them are ASCII. -/
theorem byteSize_eq_length_iff {text : List Char} :
    byteSize text = text.length ↔ ∀ c ∈ text, c.toNat < 128 := by
  induction text with
  | nil => simp
  | cons c rest ih =>
      have positive := c.utf8Size_pos
      have more := length_le_byteSize rest
      rw [List.forall_mem_cons, ← ih, ← utf8Size_eq_one_iff, byteSize_cons, List.length_cons]
      omega

end Source

namespace Text

/-- The blanks behind the last character that is none are cut off. -/
theorem trimEnd_append {kept trailing : List Char} (blank : ∀ c ∈ trailing, isBlank c = true)
    (last : ∀ c ∈ kept.getLast?, isBlank c = false) : trimEnd (kept ++ trailing) = kept := by
  have ends : kept.reverse.dropWhile isBlank = kept.reverse := by
    cases found : kept.reverse with
    | nil => rfl
    | cons c others =>
        have final : kept.getLast? = some c := by
          rw [← List.head?_reverse, found, List.head?_cons]
        exact List.dropWhile_cons_of_neg (by simp [last c final])
  rw [trimEnd, List.reverse_append, List.dropWhile_append_of_pos (by simpa using blank), ends,
    List.reverse_reverse]

theorem exists_trimmed (text : List Char) :
    ∃ kept trailing, text = kept ++ trailing ∧ (∀ c ∈ trailing, isBlank c = true) ∧
      ∀ c ∈ kept.getLast?, isBlank c = false := by
  refine ⟨trimEnd text, (text.reverse.takeWhile isBlank).reverse, ?_, ?_, ?_⟩
  · rw [trimEnd, ← List.reverse_append, List.takeWhile_append_dropWhile, List.reverse_reverse]
  · intro c member
    exact List.mem_takeWhile_imp (List.mem_reverse.mp member)
  · intro c final
    rw [trimEnd, List.getLast?_reverse] at final
    have stopped := List.head?_dropWhile_not isBlank text.reverse
    rw [final] at stopped
    simpa using stopped

end Text

namespace Diagnostic

/-- What a report shows on the left and on the right of a character that has `start` before it and
`rest` behind it on its line: the line without its indentation and without the blanks at its end. -/
structure Shown (start : List Char) (c : Char) (rest left right : List Char) : Prop where
  indent : ∃ indent, start = indent ++ left ∧ ∀ x ∈ indent, isIndent x = true
  first : ∀ x ∈ (left ++ [c]).head?, isIndent x = false
  trailing : ∃ trailing, rest = right ++ trailing ∧ ∀ x ∈ trailing, Text.isBlank x = true
  last : ∀ x ∈ (c :: right).getLast?, Text.isBlank x = false

section

variable {start rest left right : List Char} {c : Char}

/-- A character that is neither in the indentation of its line nor among the blanks at the end has
something shown around it. -/
theorem exists_shown (inner : ∃ x ∈ start ++ [c], isIndent x = false)
    (outer : ∃ x ∈ c :: rest, Text.isBlank x = false) :
    ∃ left right, Shown start c rest left right := by
  obtain ⟨kept, trailing, split, blank, last⟩ := Text.exists_trimmed (c :: rest)
  have notEmpty : kept ≠ [] := by
    rintro rfl
    obtain ⟨x, member, isInk⟩ := outer
    rw [split] at member
    rw [blank x member] at isInk
    cases isInk
  obtain ⟨first, right, rfl⟩ := List.exists_cons_of_ne_nil notEmpty
  obtain ⟨rfl, rfl⟩ := List.cons.inj split
  refine ⟨start.dropWhile isIndent, right, ?_, ?_, ⟨trailing, rfl, blank⟩, last⟩
  · exact ⟨start.takeWhile isIndent, List.takeWhile_append_dropWhile.symm,
      fun x member => List.mem_takeWhile_imp member⟩
  · cases found : start.dropWhile isIndent with
    | nil =>
        -- All of `start` is indentation, so what is not must be the character itself.
        obtain ⟨x, member, notIndent⟩ := inner
        rcases List.mem_append.mp member with before | here
        · rw [List.dropWhile_eq_nil_iff.mp found x before] at notIndent
          cases notIndent
        · cases List.mem_singleton.mp here
          simpa using notIndent
    | cons x others =>
        have stopped := List.head?_dropWhile_not isIndent start
        rw [found] at stopped
        simpa using stopped

theorem byteSize_indent {indent : List Char} (all : ∀ x ∈ indent, isIndent x = true) :
    Source.byteSize indent = indent.length := by
  rw [Source.byteSize_eq_length_iff]
  intro x member
  have isIndent := all x member
  simp only [Diagnostic.isIndent, Bool.or_eq_true, decide_eq_true_eq] at isIndent
  rcases isIndent with rfl | rfl <;> decide

namespace Shown

variable (shown : Shown start c rest left right)

include shown

/-- The indentation ends where the shown part starts. -/
theorem dropWhile_eq {indent : List Char} (split : start = indent ++ left)
    (all : ∀ x ∈ indent, isIndent x = true) :
    (start ++ c :: rest).dropWhile isIndent = left ++ c :: rest ∧
      (start ++ c :: rest).takeWhile isIndent = indent := by
  obtain ⟨x, others, follow⟩ : ∃ x others, left ++ c :: rest = x :: others :=
    List.exists_cons_of_ne_nil (by simp)
  have same : (left ++ [c]).head? = (left ++ c :: rest).head? := by simp [List.head?_append]
  have stops : isIndent x = false := shown.first x (by rw [same, follow, List.head?_cons]; rfl)
  rw [split, List.append_assoc, List.dropWhile_append_of_pos all,
    List.takeWhile_append_of_pos all, follow]
  simp [stops]

theorem trimEnd_eq : Text.trimEnd (left ++ c :: rest) = left ++ c :: right := by
  obtain ⟨trailing, rfl, blank⟩ := shown.trailing
  rw [← List.cons_append, ← List.append_assoc]
  refine Text.trimEnd_append blank fun x final => shown.last x ?_
  rwa [List.getLast?_append, List.getLast?_cons, Option.some_or, ← List.getLast?_cons] at final

end Shown

end

/-- The number of a line and what divides it from the line. -/
def gutter (number : Nat) : String := Text.natural number ++ " | "

theorem idxOf?_caret {lead : List Char} (missing : '^' ∉ lead) :
    (lead ++ ['^']).idxOf? '^' = some lead.length := by
  induction lead with
  | nil => rfl
  | cons c lead ih =>
      rw [List.mem_cons, not_or] at missing
      have other : (c == '^') = false := by simpa using Ne.symm missing.1
      simp [List.idxOf?_cons, other, ih missing.2]

/-- An excerpt shows the line in question behind its number, and in the line below it the caret
comes after the gutter and as many dashes as the column has bytes past the indentation. -/
theorem excerpt_eq (place : LinePlace) :
    ∃ rule caret, excerpt place =
        [rule, gutter place.number ++
          String.ofList (Text.trimEnd (place.text.dropWhile isIndent)), caret] ∧
      caret.toList.idxOf? '^' = some ((gutter place.number).length +
        (place.column - (place.text.takeWhile isIndent).length)) := by
  refine ⟨_, _, rfl, ?_⟩
  generalize place.column - (place.text.takeWhile isIndent).length = dashes
  have lead_eq : (alignRight ' ' ((Text.natural place.number).length + 2) "|" ++ " " ++
      alignRight '-' (dashes + 1) "^").toList =
      (List.replicate ((Text.natural place.number).length + 1) ' ' ++ ['|', ' '] ++
        List.replicate dashes '-') ++ ['^'] := by
    have bar : "|".length = 1 := rfl
    have sign : "^".length = 1 := rfl
    simp [alignRight, bar, sign]
  have divider : " | ".length = 3 := rfl
  rw [lead_eq, idxOf?_caret (by simp), gutter, String.length_append, divider]
  simp only [List.length_append, List.length_replicate, List.length_cons, List.length_nil]

theorem Shown.excerpt_eq {start rest left right : List Char} {c : Char}
    (shown : Shown start c rest left right) (number : Nat) :
    ∃ rule caret, excerpt ⟨number, start ++ c :: rest, Source.byteSize start⟩ =
        [rule, gutter number ++ String.ofList (left ++ c :: right), caret] ∧
      caret.toList.idxOf? '^' = some ((gutter number).length + Source.byteSize left) := by
  obtain ⟨indent, split, all⟩ := shown.indent
  obtain ⟨dropped, taken⟩ := shown.dropWhile_eq split all
  obtain ⟨rule, caret, printed, under⟩ :=
    Diagnostic.excerpt_eq ⟨number, start ++ c :: rest, Source.byteSize start⟩
  -- The indentation takes a byte for each character, so what is left of the column is `left`.
  have moved : Source.byteSize start - indent.length = Source.byteSize left := by
    rw [split, Source.byteSize_append, byteSize_indent all, Nat.add_sub_cancel_left]
  refine ⟨rule, caret, ?_, ?_⟩
  · rw [printed, dropped, shown.trimEnd_eq]
  · rw [under, taken, moved]

theorem report_located {content : String} {position : Position} {place : LinePlace} (cause : Cause)
    (file : String) (found : Source.lineAt content.toList position.offset = some place) :
    ∃ title, report (.located cause position) file content =
      title :: ("-> " ++ file) :: excerpt place := by
  simp only [report, located, Option.bind_some, found]
  exact ⟨_, rfl⟩

/-- A report on a character that is neither in the indentation of its line nor among the blanks at
the end shows the line without them, and the caret below it comes after as many characters as the
gutter has, and as there are bytes shown before the character. So the caret is under the character
exactly if all that is shown before it is ASCII. -/
theorem report_caret (cause : Cause) (position : Position) (file : String) {content : String}
    {earlier later : List (List Char)} {start rest : List Char} {c : Char}
    (cut : Source.CutAfterNewlines content.toList (earlier ++ (start ++ c :: rest) :: later))
    (offset : position.offset = Source.byteSize earlier.flatten + Source.byteSize start)
    (inner : ∃ x ∈ start ++ [c], isIndent x = false)
    (outer : ∃ x ∈ c :: rest, Text.isBlank x = false) :
    ∃ left right title rule caret, Shown start c rest left right ∧
      report (.located cause position) file content =
        [title, "-> " ++ file, rule,
          gutter (earlier.length + 1) ++ String.ofList (left ++ c :: right), caret] ∧
      caret.toList.idxOf? '^' =
        some ((gutter (earlier.length + 1)).length + Source.byteSize left) ∧
      (caret.toList.idxOf? '^' = some ((gutter (earlier.length + 1)).length + left.length) ↔
        ∀ x ∈ left, x.toNat < 128) := by
  obtain ⟨left, right, shown⟩ := exists_shown inner outer
  have inside : Source.byteSize start < Source.byteSize (start ++ c :: rest) := by
    have positive := c.utf8Size_pos
    rw [Source.byteSize_append, Source.byteSize_cons]
    omega
  have found : Source.lineAt content.toList position.offset =
      some ⟨earlier.length + 1, start ++ c :: rest, Source.byteSize start⟩ := by
    rw [Source.lineAt, ← cut.eq_lines, offset, Source.lineFrom_append (.inl inside), Nat.add_comm]
  obtain ⟨title, report_eq⟩ := report_located cause file found
  obtain ⟨rule, caret, printed, under⟩ := shown.excerpt_eq (earlier.length + 1)
  rw [printed] at report_eq
  refine ⟨left, right, title, rule, caret, shown, report_eq, under, ?_⟩
  rw [under, Option.some_inj, Nat.add_left_cancel_iff, Source.byteSize_eq_length_iff]

theorem report_caret_second_line :
    ∃ left right title rule caret, Shown "\té b".toList '?' "\t\n".toList left right ∧
      report (.located .divisionByZero ⟨7, "main.plc"⟩) "main.plc" "a\n\té b?\t\nc" =
        [title, "-> " ++ "main.plc", rule,
          gutter 2 ++ String.ofList (left ++ '?' :: right), caret] ∧
      caret.toList.idxOf? '^' = some ((gutter 2).length + Source.byteSize left) ∧
      (caret.toList.idxOf? '^' = some ((gutter 2).length + left.length) ↔
        ∀ x ∈ left, x.toNat < 128) := by
  have cut : Source.CutAfterNewlines "a\n\té b?\t\nc".toList
      (["a\n".toList] ++ ("\té b".toList ++ '?' :: "\t\n".toList) :: ["c".toList]) := by
    rw [Source.cutAfterNewlines_iff]
    decide
  have printed := report_caret .divisionByZero ⟨7, "main.plc"⟩ "main.plc" cut (by decide)
    ⟨'é', by decide, by decide⟩ ⟨'?', by decide, by decide⟩
  exact printed

/-- With a letter of two bytes before it, the question mark is the character with index 24 of the
line that is shown, and the caret has index 25 in the line below. -/
theorem report_caret_beside :
    (report (.located (.unexpectedToken "?" "expected `;`") ⟨21, "main.plc"⟩) "main.plc"
        "VAR s: String = \"é\" ?;").drop 3 =
      ["1 | VAR s: String = \"é\" ?;", "  | ---------------------^"] ∧
    Source.byteSize "VAR s: String = \"é\" ".toList = 21 ∧
    "1 | VAR s: String = \"é\" ?;".toList.idxOf? '?' = some 24 ∧
    "  | ---------------------^".toList.idxOf? '^' = some 25 := by
  decide +kernel

end Diagnostic

end GradualScript
