import GradualScript.Proofs.Token.Respacing

/-!
# Texts are refused as soon as possible

Only a literal can fail to be read. It fails at the first character with which no literal goes on,
or at the end of the text. What stands before that place is the start of a text that has tokens,
and together with the next character it no longer is.

The tokens before the literal do not depend on what the literal goes on with: none of them reaches
its opening quote, and none looks further ahead than that.
-/

namespace GradualScript

namespace Cause

/-- What can be wrong with a literal. -/
inductive SpoilsLiteral : Cause → Prop
  | unterminatedString : SpoilsLiteral .unterminatedString
  | unterminatedCharacter : SpoilsLiteral .unterminatedCharacter
  | invalidEscape (escape : Char) : SpoilsLiteral (.invalidEscape escape)
  | newlineInLiteral : SpoilsLiteral .newlineInLiteral
  | malformedCharacter : SpoilsLiteral .malformedCharacter

/-- Whether the cause is that a literal is not closed before the text ends. -/
def isUnterminated : Cause → Bool
  | unterminatedString | unterminatedCharacter => true
  | _ => false

theorem isUnterminated_iff {cause : Cause} :
    cause.isUnterminated = true ↔
      cause = .unterminatedString ∨ cause = .unterminatedCharacter := by
  cases cause <;> simp [isUnterminated]

end Cause

namespace Lexeme

/-- Whether a text can be cut into lexemes. -/
def Splits (text : List Char) : Prop := ∃ lexemes, split text = .ok lexemes

/-- What is known where a text is refused between `before` and `after`. -/
structure Fault (before after : List Char) (cause : Cause) : Prop where
  spoils : cause.SpoilsLiteral
  unterminated_iff : cause.isUnterminated = true ↔ after = []
  completes : ∃ more, '\x08' ∉ more ∧ Splits (before ++ more)
  refuses : ∀ c later, after = c :: later → ∀ more, ¬Splits (before ++ c :: more)

theorem splits_of_form {kind : TokenKind} {word : List Char} (form : Form kind word) :
    Splits word := by
  rcases split_of_woven form.woven with ⟨lexemes, divided, _⟩
  exact ⟨lexemes, divided⟩

theorem not_splits_of_measure {c : Char} {rest : List Char} {slip : Slip}
    (failed : measure c rest = .error slip) : ¬Splits (c :: rest) := by
  rintro ⟨lexemes, divided⟩
  simp [split, failed] at divided

theorem splits_append_iff {c : Char} {piece rest : List Char} {kind : Option TokenKind}
    (measured : measure c (piece ++ rest) = .ok (kind, piece.length + 1)) :
    Splits (c :: piece ++ rest) ↔ Splits rest := by
  constructor
  · rintro ⟨lexemes, divided⟩
    cases dividedRest : split rest with
    | error slip => simp [split, measured, dividedRest] at divided
    | ok others => exact ⟨others, dividedRest⟩
  · rintro ⟨lexemes, divided⟩
    exact ⟨_, split_append measured divided⟩

/-! ## Literals -/

/-- What stops a string literal: the start of a piece that is not whole, if any, what comes after
it, and the cause. -/
inductive Stuck : List Char → List Char → Cause → Prop
  | unclosed : Stuck [] [] .unterminatedString
  | halfEscape : Stuck ['\\'] [] .unterminatedString
  | unknownEscape {letter : Char} (unknown : ¬(Text.escape? letter).isSome = true)
      (rest : List Char) : Stuck ['\\'] (letter :: rest) (.invalidEscape letter)
  | lineBreak {c : Char} (breaks : isLineBreak c = true) (rest : List Char) :
      Stuck [] (c :: rest) .newlineInLiteral

theorem stringEnd_stuck {passed : Nat} {text : List Char} {slip : Slip}
    (failed : stringEnd passed text = .error slip) :
    ∃ (pieces : List (List Char)) (stub after : List Char),
      text = pieces.flatten ++ (stub ++ after) ∧ (∀ piece ∈ pieces, Piece '"' piece) ∧
      slip.distance = passed + (pieces.flatten ++ stub).length ∧ Stuck stub after slip.cause := by
  revert failed
  fun_induction stringEnd passed text with
  | case1 passed =>
      rintro ⟨⟩
      exact ⟨[], [], [], rfl, by simp, rfl, .unclosed⟩
  | case2 passed =>
      rintro ⟨⟩
      exact ⟨[], ['\\'], [], rfl, by simp, rfl, .halfEscape⟩
  | case3 passed letter rest known ih =>
      intro failed
      rcases ih failed with ⟨pieces, stub, after, rfl, arePieces, distance_eq, stuck⟩
      refine ⟨['\\', letter] :: pieces, stub, after, by simp,
        List.forall_mem_cons.mpr ⟨.escape known, arePieces⟩, ?_, stuck⟩
      simp [distance_eq]
      omega
  | case4 passed letter rest unknown =>
      rintro ⟨⟩
      exact ⟨[], ['\\'], letter :: rest, rfl, by simp, rfl, .unknownEscape unknown rest⟩
  | case5 passed rest =>
      rintro ⟨⟩
  | case6 passed c rest _ _ _ breaks =>
      rintro ⟨⟩
      exact ⟨[], [], c :: rest, rfl, by simp, rfl, .lineBreak breaks rest⟩
  | case7 passed c rest notLast noEscape notQuote sameLine ih =>
      intro failed
      rcases ih failed with ⟨pieces, stub, after, rfl, arePieces, distance_eq, stuck⟩
      have plain := Piece.plain notQuote (ne_backslash notLast noEscape)
        (Bool.of_not_eq_true sameLine)
      refine ⟨[c] :: pieces, stub, after, by simp,
        List.forall_mem_cons.mpr ⟨plain, arePieces⟩, ?_, stuck⟩
      simp [distance_eq]
      omega

theorem Stuck.completed {stub after : List Char} {cause : Cause} (stuck : Stuck stub after cause)
    {pieces : List (List Char)} (arePieces : ∀ piece ∈ pieces, Piece '"' piece) :
    ∃ more, '\x08' ∉ more ∧ Form .string ('"' :: (pieces.flatten ++ (stub ++ more))) := by
  have closed : Form .string ('"' :: (pieces.flatten ++ ([] ++ ['"']))) := .string arePieces
  have escaped : Form .string ('"' :: (pieces.flatten ++ (['\\'] ++ ['n', '"']))) := by
    have areLonger : ∀ piece ∈ pieces ++ [['\\', 'n']], Piece '"' piece := by
      simpa [or_imp, forall_and] using ⟨arePieces, Piece.escape rfl⟩
    simpa using Form.string areLonger
  cases stuck with
  | unclosed => exact ⟨_, by decide, closed⟩
  | halfEscape => exact ⟨_, by decide, escaped⟩
  | unknownEscape => exact ⟨_, by decide, escaped⟩
  | lineBreak => exact ⟨_, by decide, closed⟩

theorem Stuck.refused {stub later : List Char} {c : Char} {cause : Cause}
    (stuck : Stuck stub (c :: later) cause) (passed : Nat) (more : List Char) :
    ∃ slip, stringEnd passed (stub ++ c :: more) = .error slip := by
  cases stuck with
  | unknownEscape unknown => simp [stringEnd, unknown]
  | lineBreak breaks =>
      simp only [isLineBreak, Bool.or_eq_true, decide_eq_true_eq] at breaks
      rcases breaks with rfl | rfl <;> simp [stringEnd, isLineBreak]

theorem Stuck.spoils {stub after : List Char} {cause : Cause} (stuck : Stuck stub after cause) :
    cause.SpoilsLiteral := by
  cases stuck <;> constructor

theorem Stuck.unterminated_iff {stub after : List Char} {cause : Cause}
    (stuck : Stuck stub after cause) : cause.isUnterminated = true ↔ after = [] := by
  cases stuck <;> simp [Cause.isUnterminated]

theorem string_fault {rest : List Char} {slip : Slip} (failed : stringEnd 1 rest = .error slip) :
    ∃ read after, rest = read ++ after ∧ slip.distance = read.length + 1 ∧
      Fault ('"' :: read) after slip.cause := by
  rcases stringEnd_stuck failed with ⟨pieces, stub, after, rfl, arePieces, distance_eq, stuck⟩
  refine ⟨pieces.flatten ++ stub, after, by simp, by omega, stuck.spoils, stuck.unterminated_iff,
    ?_, ?_⟩
  · rcases stuck.completed arePieces with ⟨more, clean, form⟩
    exact ⟨more, clean, by simpa using splits_of_form form⟩
  · rintro c later rfl more
    rcases stuck.refused (1 + pieces.flatten.length) more with ⟨other, refused⟩
    have unread : measure '"' (pieces.flatten ++ (stub ++ c :: more)) = .error other := by
      rw [measure_of_quote, stringEnd_pieces arePieces, refused]
      rfl
    simpa using not_splits_of_measure unread

theorem not_splits_character {rest : List Char} {slip : Slip}
    (failed : characterEnd rest = .error slip) : ¬Splits ('\'' :: rest) := by
  apply not_splits_of_measure
  rw [measure_of_apostrophe, failed]
  rfl

theorem character_completes (read more : List Char) (isPiece : Piece '\'' (read ++ more))
    (clean : '\x08' ∉ more) : ∃ more, '\x08' ∉ more ∧ Splits ('\'' :: read ++ more) := by
  refine ⟨more ++ ['\''], by simpa using clean, ?_⟩
  simpa using splits_of_form (.character isPiece)

/-- A character literal has one piece, and nothing but a quote behind it. -/
theorem closeCharacter_fault {piece rest : List Char} {slip : Slip} (isPiece : Piece '\'' piece)
    (failed : closeCharacter (piece.length + 1) rest = .error slip) :
    slip.distance = piece.length + 1 ∧ Fault ('\'' :: piece) rest slip.cause := by
  have completes : ∃ more, '\x08' ∉ more ∧ Splits ('\'' :: piece ++ more) :=
    character_completes piece [] (by simpa using isPiece) (by simp)
  cases rest with
  | nil =>
      cases failed
      exact ⟨rfl, .unterminatedCharacter, by simp [Cause.isUnterminated], completes, by simp⟩
  | cons c rest =>
      by_cases isQuote : c = '\''
      · simp [closeCharacter, isQuote] at failed
      · simp only [closeCharacter, if_neg isQuote] at failed
        cases failed
        refine ⟨rfl, .malformedCharacter, by simp [Cause.isUnterminated], completes, ?_⟩
        rintro _ _ ⟨⟩ more
        rw [List.cons_append]
        apply not_splits_character
        rw [characterEnd_piece isPiece, closeCharacter, if_neg isQuote]

theorem character_fault {rest : List Char} {slip : Slip} (failed : characterEnd rest = .error slip) :
    ∃ read after, rest = read ++ after ∧ slip.distance = read.length + 1 ∧
      Fault ('\'' :: read) after slip.cause := by
  have fresh : ∃ more, '\x08' ∉ more ∧ Splits (['\''] ++ more) :=
    character_completes [] ['a'] (.plain (by decide) (by decide) rfl) (by decide)
  have escaped : ∃ more, '\x08' ∉ more ∧ Splits (['\'', '\\'] ++ more) :=
    character_completes ['\\'] ['n'] (.escape rfl) (by decide)
  revert failed
  fun_cases characterEnd rest with
  | case1 =>
      rintro ⟨⟩
      exact ⟨[], [], rfl, rfl, .unterminatedCharacter, by simp [Cause.isUnterminated], fresh,
        by simp⟩
  | case2 =>
      rintro ⟨⟩
      exact ⟨['\\'], [], rfl, rfl, .unterminatedCharacter, by simp [Cause.isUnterminated], escaped,
        by simp⟩
  | case3 letter rest known =>
      intro failed
      exact ⟨['\\', letter], rest, rfl, closeCharacter_fault (.escape known) failed⟩
  | case4 letter rest unknown =>
      rintro ⟨⟩
      refine ⟨['\\'], letter :: rest, rfl, rfl, .invalidEscape letter,
        by simp [Cause.isUnterminated], escaped, ?_⟩
      rintro _ _ ⟨⟩ more
      exact not_splits_character (if_neg unknown)
  | case5 rest =>
      rintro ⟨⟩
      refine ⟨[], '\'' :: rest, rfl, rfl, .malformedCharacter, by simp [Cause.isUnterminated], fresh,
        ?_⟩
      rintro _ _ ⟨⟩ more
      exact not_splits_character rfl
  | case6 c rest _ _ _ breaks =>
      rintro ⟨⟩
      refine ⟨[], c :: rest, rfl, rfl, .newlineInLiteral, by simp [Cause.isUnterminated], fresh, ?_⟩
      rintro _ _ ⟨⟩ more
      simp only [isLineBreak, Bool.or_eq_true, decide_eq_true_eq] at breaks
      rcases breaks with rfl | rfl <;> exact not_splits_character rfl
  | case7 c rest notLast noEscape notQuote sameLine =>
      intro failed
      have plain := Piece.plain notQuote (ne_backslash notLast noEscape)
        (Bool.of_not_eq_true sameLine)
      exact ⟨[c], rest, rfl, closeCharacter_fault plain failed⟩

theorem measure_fault {c : Char} {rest : List Char} {slip : Slip}
    (failed : measure c rest = .error slip) :
    (c = '"' ∨ c = '\'') ∧ ∃ read after, rest = read ++ after ∧
      slip.distance = read.length + 1 ∧ Fault (c :: read) after slip.cause := by
  revert failed
  fun_cases measure c rest with
  | case3 _ _ isDigit =>
      intro failed
      rcases exists_number_of_isDigit isDigit rest with ⟨_, _, _, read, _⟩
      cases read.symm.trans failed
  | case4 _ _ _ signed =>
      intro failed
      rcases exists_number_of_isSign signed with ⟨_, _, _, read, _⟩
      cases read.symm.trans failed
  | case5 _ _ _ _ isQuote =>
      intro failed
      subst isQuote
      cases read : stringEnd 1 rest with
      | ok stop =>
          rw [read] at failed
          cases failed
      | error slip =>
          rw [read] at failed
          cases failed
          exact ⟨.inl rfl, string_fault read⟩
  | case6 _ _ _ _ _ isQuote =>
      intro failed
      subst isQuote
      cases read : characterEnd rest with
      | ok stop =>
          rw [read] at failed
          cases failed
      | error slip =>
          rw [read] at failed
          cases failed
          exact ⟨.inr rfl, character_fault read⟩
  | _ =>
      intro failed
      cases failed

/-! ## What comes before a literal -/

theorem followedBy_append_cons (front : List Char) (c : Char) (rest other : List Char)
    (test : Char → Bool) :
    followedBy (front ++ c :: rest) test = followedBy (front ++ c :: other) test := by
  cases front <;> rfl

variable {quote : Char} {front : List Char}

/-- No token looks past a quote that it does not reach. -/
theorem Ends.before_quote {kind : TokenKind} {word rest : List Char}
    (ends : Ends word (front ++ quote :: rest) kind) (isQuote : quote = '"' ∨ quote = '\'')
    (other : List Char) : Ends word (front ++ quote :: other) kind := by
  have same (test : Char → Bool) := followedBy_append_cons front quote rest other test
  cases kind with
  | identifier => simpa only [Ends, same] using ends
  | integer =>
      rcases ends with ⟨stops, noFraction⟩
      refine ⟨by simpa only [same] using stops, ?_⟩
      -- a number looks two characters ahead: both stand before the quote, or one of them is it
      intro d others starts
      cases front with
      | nil =>
          cases starts
          simp at isQuote
      | cons first front =>
          cases front with
          | nil =>
              cases starts
              rcases isQuote with rfl | rfl <;> rfl
          | cons second front =>
              cases starts
              exact noFraction d _ rfl
  | decimal => simpa only [Ends, same] using ends
  | character => trivial
  | string => trivial
  | operator => simpa only [Ends, same] using ends

/-- A lexeme that does not reach a quote is the same whatever comes behind the quote. -/
theorem measure_before_quote {c : Char} {rest later : List Char} {kind : Option TokenKind}
    {length : Nat} (measured : measure c rest = .ok (kind, length))
    (left : rest.drop (length - 1) = front ++ quote :: later)
    (isQuote : quote = '"' ∨ quote = '\'') :
    ∃ piece, rest = piece ++ (front ++ quote :: later) ∧ length = piece.length + 1 ∧
      ∀ other, measure c (piece ++ (front ++ quote :: other)) = .ok (kind, piece.length + 1) := by
  cases kind with
  | none =>
      rcases measure_blanks measured with ⟨blanks, after, text_eq, rfl, notEmpty, areBlank, stops⟩
      rw [(take_drop_of_append text_eq notEmpty).2] at left
      subst left
      rcases List.exists_cons_of_ne_nil notEmpty with ⟨first, piece, rfl⟩
      cases text_eq
      refine ⟨piece, rfl, rfl, fun other => measure_of_blanks areBlank ?_⟩
      rwa [followedBy_append_cons front quote other later]
  | some kind =>
      rcases measure_form measured with ⟨word, after, text_eq, rfl, form, ends⟩
      rcases form.exists_cons with ⟨first, piece, rfl, _⟩
      rw [(take_drop_of_append text_eq (List.cons_ne_nil _ _)).2] at left
      subst left
      cases text_eq
      exact ⟨piece, rfl, rfl, fun other => measure_of_form form rfl (ends.before_quote isQuote other)⟩

theorem Fault.prepend {start read after : List Char} {cause : Cause}
    (fault : Fault (front ++ quote :: read) after cause)
    (same : ∀ other, Splits (start ++ (front ++ quote :: other)) ↔ Splits (front ++ quote :: other)) :
    Fault (start ++ (front ++ quote :: read)) after cause := by
  refine ⟨fault.spoils, fault.unterminated_iff, ?_, ?_⟩
  · rcases fault.completes with ⟨more, clean, splits⟩
    refine ⟨more, clean, ?_⟩
    simpa using (same (read ++ more)).mpr (by simpa using splits)
  · intro c later after_eq more splits
    apply fault.refuses c later after_eq more
    simpa using (same (read ++ c :: more)).mp (by simpa using splits)

/-- Where a text cannot be cut into lexemes, there is a literal in it that no text with the same
start goes on with. -/
theorem split_fault {text : List Char} {slip : Slip} (unread : split text = .error slip) :
    ∃ front quote read after, text = front ++ quote :: (read ++ after) ∧
      (quote = '"' ∨ quote = '\'') ∧ slip.distance = (front ++ quote :: read).length ∧
      Fault (front ++ quote :: read) after slip.cause := by
  fun_induction split text generalizing slip with
  | case1 => cases unread
  | case2 c rest slip failed =>
      cases unread
      rcases measure_fault failed with ⟨isQuote, read, after, rfl, distance_eq, fault⟩
      exact ⟨[], c, read, after, rfl, isQuote, by simpa using distance_eq, fault⟩
  | case3 c rest kind length measured slip failed ih =>
      cases unread
      rcases ih failed with ⟨front, quote, read, after, left, isQuote, distance_eq, fault⟩
      -- this lexeme stays as it is in every text that goes on alike up to the quote
      rcases measure_before_quote measured left isQuote with ⟨piece, rfl, rfl, independent⟩
      refine ⟨c :: piece ++ front, quote, read, after, by simp, isQuote, ?_, ?_⟩
      · simp [distance_eq]
        omega
      · have prepended := fault.prepend fun other => splits_append_iff (independent other)
        simpa using prepended
  | case4 => cases unread

end Lexeme

/-! ## Whole texts -/

theorem Source.byteSize_eq_zero_iff {text : List Char} : byteSize text = 0 ↔ text = [] := by
  constructor
  · intro empty
    by_contra notEmpty
    have := byteSize_pos notEmpty
    omega
  · rintro rfl
    rfl

theorem exists_tokenize_iff {source : String} (file : String) (clean : '\x08' ∉ source.toList) :
    (∃ tokens, tokenize source file = .ok tokens) ↔ Lexeme.Splits source.toList := by
  unfold tokenize Draft.tokens Lexeme.Splits
  rw [Draft.text_ofText_of_clean clean]
  cases Lexeme.split source.toList <;> simp

/-- Whether some text starts like this that has no backspaces in it and has tokens. -/
def Viable (start : List Char) : Prop :=
  ∃ (source file : String) (tokens : List Token), start <+: source.toList ∧
    '\x08' ∉ source.toList ∧ tokenize source file = .ok tokens

theorem viable_iff {start : List Char} (clean : '\x08' ∉ start) :
    Viable start ↔ ∃ more, '\x08' ∉ more ∧ Lexeme.Splits (start ++ more) := by
  constructor
  · rintro ⟨source, file, tokens, ⟨more, source_eq⟩, cleanSource, tokenized⟩
    refine ⟨more, ?_, ?_⟩
    · intro found
      apply cleanSource
      rw [← source_eq]
      exact List.mem_append_right _ found
    · rw [source_eq]
      exact (exists_tokenize_iff file cleanSource).mp ⟨tokens, tokenized⟩
  · rintro ⟨more, cleanMore, splits⟩
    have source_eq : (String.ofList (start ++ more)).toList = start ++ more :=
      String.toList_ofList
    have cleanSource : '\x08' ∉ (String.ofList (start ++ more)).toList := by
      simp [clean, cleanMore]
    rw [← source_eq] at splits
    rcases (exists_tokenize_iff unnamedFile cleanSource).mpr splits with ⟨tokens, tokenized⟩
    exact ⟨_, _, tokens, ⟨more, source_eq.symm⟩, cleanSource, tokenized⟩

/-- A text without backspaces that has no tokens is refused at the earliest place: a text that has
tokens can start with all that comes before that place, and none starts with that and the next
character. The place is the end of the text exactly if a literal in it is not closed. -/
theorem tokenize_refuses_earliest {source file : String} {diagnostic : Diagnostic}
    (clean : '\x08' ∉ source.toList)
    (short : Source.byteSize source.toList < Position.offsetLimit)
    (failed : tokenize source file = .error diagnostic) :
    ∃ cause offset before after, diagnostic = .located cause ⟨offset, file⟩ ∧
      cause.SpoilsLiteral ∧
      source.toList = before ++ after ∧ Source.byteSize before = offset ∧
      offset ≤ Source.byteSize source.toList ∧
      Viable before ∧
      (∀ c later, after = c :: later → ¬Viable (before ++ [c])) ∧
      (offset = Source.byteSize source.toList ↔
        cause = .unterminatedString ∨ cause = .unterminatedCharacter) := by
  unfold tokenize Draft.tokens at failed
  rw [Draft.text_ofText_of_clean clean] at failed
  split at failed
  · rename_i slip unread
    cases failed
    rcases Lexeme.split_fault unread with
      ⟨front, quote, read, after, text_eq, _, distance_eq, fault⟩
    rw [← List.cons_append, ← List.append_assoc] at text_eq
    generalize front ++ quote :: read = before at text_eq distance_eq fault
    rw [text_eq] at clean short ⊢
    rcases not_or.mp (mt List.mem_append.mpr clean) with ⟨cleanBefore, cleanAfter⟩
    have fits : Source.byteSize before ≤ Source.byteSize (before ++ after) := by
      rw [Source.byteSize_append]
      exact Nat.le_add_right _ _
    have place_eq : Position.ofByte ((Draft.ofText (before ++ after)).originAfter slip.distance)
        file = ⟨Source.byteSize before, file⟩ := by
      rw [distance_eq, Draft.originAfter_of_clean clean]
      exact Position.ofByte_of_lt (Nat.lt_of_le_of_lt fits short) file
    refine ⟨slip.cause, Source.byteSize before, before, after, by rw [place_eq], fault.spoils, rfl,
      rfl, fits, ?_, ?_, ?_⟩
    · exact (viable_iff cleanBefore).mpr fault.completes
    · rintro c later rfl viable
      have cleanNext : '\x08' ∉ before ++ [c] := by
        simp only [List.mem_append, List.mem_cons, List.not_mem_nil, not_or] at cleanAfter ⊢
        exact ⟨cleanBefore, cleanAfter.1, not_false⟩
      rcases (viable_iff cleanNext).mp viable with ⟨more, _, splits⟩
      exact fault.refuses c later rfl more (by simpa using splits)
    · rw [Source.byteSize_append, ← Cause.isUnterminated_iff, fault.unterminated_iff,
        ← Source.byteSize_eq_zero_iff]
      omega
  · cases failed

/-- A string is refused at the letter behind its second backslash, after a character of two bytes. -/
theorem tokenize_refuses_earliest_escape :
    '\x08' ∉ "1.5x \"é\\n\\q\" 'a'".toList ∧
    tokenize "1.5x \"é\\n\\q\" 'a'" "" = .error (.located (.invalidEscape 'q') ⟨11, ""⟩) ∧
    ∃ before after, "1.5x \"é\\n\\q\" 'a'".toList = before ++ after ∧
      Source.byteSize before = 11 ∧ Viable before ∧
      ∀ c later, after = c :: later → ¬Viable (before ++ [c]) := by
  have clean : '\x08' ∉ "1.5x \"é\\n\\q\" 'a'".toList := by decide
  have failed : tokenize "1.5x \"é\\n\\q\" 'a'" "" =
      .error (.located (.invalidEscape 'q') ⟨11, ""⟩) := by
    decide +kernel
  rcases tokenize_refuses_earliest clean (by decide) failed with
    ⟨_, _, before, after, same, _, text_eq, size_eq, _, viable, refused, _⟩
  cases same
  exact ⟨clean, failed, before, after, text_eq, size_eq, viable, refused⟩

end GradualScript
