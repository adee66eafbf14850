import GradualScript.Token.Lexeme

/-!
# The forms of tokens

What the text of a token of each kind looks like, and what may not follow it because it would belong
to the token too. `Lexeme.measure` finds a token at the start of a text exactly if the text starts
with one of its form, and the rest is nothing that the token could go on with.
-/

namespace GradualScript

namespace Lexeme

/-- Whether a text goes on with a character that passes a test. -/
def followedBy (text : List Char) (test : Char → Bool) : Bool := text.head?.any test

/-- What stands for one character in a literal between quotes of a kind. -/
inductive Piece (quote : Char) : List Char → Prop
  | plain {c : Char} (notQuote : c ≠ quote) (notBackslash : c ≠ '\\')
      (sameLine : isLineBreak c = false) : Piece quote [c]
  | escape {letter : Char} (known : (Text.escape? letter).isSome = true) :
      Piece quote ['\\', letter]

/-- The digits of a whole number, without leading zeros. -/
inductive Whole : List Char → Prop
  | zero : Whole ['0']
  | positive {first : Char} {digits : List Char} (isDigit : first.isDigit = true)
      (notZero : first ≠ '0') (areDigits : digits.all Char.isDigit = true) :
      Whole (first :: digits)

/-- What may stand before the digits of a number. -/
inductive Sign : List Char → Prop
  | plus : Sign []
  | minus : Sign ['-']

/-- Whether a character is an operator by itself, and starts nothing else. -/
structure Single (c : Char) : Prop where
  notBlank : Text.isBlank c = false
  notName : startsName c = false
  notDigit : c.isDigit = false
  notString : c ≠ '"'
  notCharacter : c ≠ '\''

/-- The texts of the tokens of a kind. -/
inductive Form : TokenKind → List Char → Prop
  | identifier {first : Char} {others : List Char} (starts : startsName first = true)
      (continues : others.all continuesName = true) : Form .identifier (first :: others)
  | integer {sign whole : List Char} (signed : Sign sign) (isWhole : Whole whole) :
      Form .integer (sign ++ whole)
  | decimal {sign whole digits : List Char} (signed : Sign sign) (isWhole : Whole whole)
      (notEmpty : digits ≠ []) (areDigits : digits.all Char.isDigit = true) :
      Form .decimal (sign ++ (whole ++ '.' :: digits))
  | character {piece : List Char} (isPiece : Piece '\'' piece) :
      Form .character ('\'' :: (piece ++ ['\'']))
  | string {pieces : List (List Char)} (arePieces : ∀ piece ∈ pieces, Piece '"' piece) :
      Form .string ('"' :: (pieces.flatten ++ ['"']))
  | pair {first second : Char} (paired : isPair first second = true) :
      Form .operator [first, second]
  | single {c : Char} (isSingle : Single c) : Form .operator [c]

/-- Whether a token with the given text goes no further when `rest` follows it. -/
def Ends (word rest : List Char) : TokenKind → Prop
  | .identifier => followedBy rest continuesName = false
  | .integer =>
    (word = ['0'] ∨ word = ['-', '0'] ∨ followedBy rest Char.isDigit = false) ∧
      ∀ d others, rest = '.' :: d :: others → d.isDigit = false
  | .decimal => followedBy rest Char.isDigit = false
  | .character | .string => True
  | .operator =>
    (∀ c, word = [c] → followedBy rest (isPair c) = false) ∧
      (word = ['-'] → followedBy rest Char.isDigit = false)

/-! ## Runs of characters -/

section

variable {test : Char → Bool} {word rest : List Char}

theorem followedBy_dropWhile (test : Char → Bool) (text : List Char) :
    followedBy (text.dropWhile test) test = false := by
  induction text with
  | nil => rfl
  | cons c rest ih =>
      rw [List.dropWhile_cons]
      split
      · exact ih
      · rename_i fails
        exact Bool.of_not_eq_true fails

theorem takeWhile_append (all : word.all test = true) (stops : followedBy rest test = false) :
    (word ++ rest).takeWhile test = word := by
  rw [List.takeWhile_append_of_pos (List.all_eq_true.mp all)]
  cases rest with
  | nil => simp
  | cons c rest =>
      have fails : test c = false := stops
      simp [fails]

end

/-! ## Numbers -/

theorem Whole.ne_nil {whole : List Char} (isWhole : Whole whole) : whole ≠ [] := by
  rintro rfl
  cases isWhole

theorem Whole.starts {whole : List Char} (isWhole : Whole whole) (rest : List Char) :
    followedBy (whole ++ rest) Char.isDigit = true := by
  cases isWhole with
  | zero => rfl
  | positive isDigit _ _ => exact isDigit

theorem wholeNumber_whole {text : List Char} (starts : followedBy text Char.isDigit = true) :
    ∃ rest, text = wholeNumber text ++ rest ∧ Whole (wholeNumber text) ∧
      (wholeNumber text = ['0'] ∨ followedBy rest Char.isDigit = false) := by
  fun_cases wholeNumber text with
  | case1 rest => exact ⟨rest, rfl, .zero, .inl rfl⟩
  | case2 _ notZero =>
      rcases text with _ | ⟨first, rest⟩
      · cases starts
      have isDigit : first.isDigit = true := starts
      have notFirst : first ≠ '0' := by
        rintro rfl
        exact notZero rest rfl
      refine ⟨rest.dropWhile Char.isDigit, ?_, ?_, .inr (followedBy_dropWhile _ _)⟩
      · simp [isDigit, List.takeWhile_append_dropWhile]
      · simpa [isDigit] using Whole.positive isDigit notFirst List.all_takeWhile

theorem wholeNumber_append {whole rest : List Char} (isWhole : Whole whole)
    (stops : whole = ['0'] ∨ followedBy rest Char.isDigit = false) :
    wholeNumber (whole ++ rest) = whole := by
  cases isWhole with
  | zero => rfl
  | @positive first digits isDigit notZero areDigits =>
      have stops : followedBy rest Char.isDigit = false := by
        rcases stops with same | stops
        · exact absurd (List.cons.inj same).1 notZero
        · exact stops
      have all : (first :: digits).all Char.isDigit = true := by simp [isDigit, areDigits]
      rw [wholeNumber]
      · exact takeWhile_append all stops
      · intro others same
        exact notZero (List.cons.inj same).1

theorem fraction_eq_nil_iff {text : List Char} :
    fraction text = [] ↔ ∀ d others, text = '.' :: d :: others → d.isDigit = false := by
  fun_cases fraction text with
  | case1 d rest isDigit => simp [isDigit]
  | case2 d rest notDigit => simpa using notDigit
  | case3 _ noFraction => simpa using fun d others same => absurd same (noFraction d others)

theorem exists_of_fraction {text : List Char} (found : fraction text ≠ []) :
    ∃ digits rest, text = '.' :: digits ++ rest ∧ fraction text = '.' :: digits ∧ digits ≠ [] ∧
      digits.all Char.isDigit = true ∧ followedBy rest Char.isDigit = false := by
  revert found
  fun_cases fraction text with
  | case1 d rest isDigit =>
      intro _
      refine ⟨d :: rest.takeWhile Char.isDigit, rest.dropWhile Char.isDigit, ?_, rfl,
        List.cons_ne_nil _ _, ?_, followedBy_dropWhile _ _⟩
      · simp [List.takeWhile_append_dropWhile]
      · simp [isDigit, List.all_takeWhile]
  | case2 | case3 =>
      intro found
      exact absurd rfl found

theorem fraction_append {digits rest : List Char} (notEmpty : digits ≠ [])
    (areDigits : digits.all Char.isDigit = true)
    (stops : followedBy rest Char.isDigit = false) :
    fraction ('.' :: (digits ++ rest)) = '.' :: digits := by
  rcases List.exists_cons_of_ne_nil notEmpty with ⟨d, others, rfl⟩
  rcases List.all_cons.symm.trans areDigits |> Bool.and_eq_true_iff.mp with ⟨isDigit, all⟩
  rw [List.cons_append, fraction, if_pos isDigit, takeWhile_append all stops]

/-- A text that starts with a digit has a number there. -/
theorem number_eq {sign : Nat} {text : List Char} (found : wholeNumber text ≠ []) :
    number sign text =
      let part := (fraction (text.drop (wholeNumber text).length)).length
      .ok (some (if part = 0 then .integer else .decimal),
        sign + (wholeNumber text).length + part) := by
  unfold number
  cases whole_eq : wholeNumber text with
  | nil => exact absurd whole_eq found
  | cons digit digits => rfl

/-- Where a number starts there is a digit, so that reading it never fails. -/
theorem number_form {sign text : List Char} (signed : Sign sign)
    (starts : followedBy text Char.isDigit = true) :
    ∃ kind word rest, number sign.length text = .ok (some kind, word.length) ∧
      sign ++ text = word ++ rest ∧ Form kind word ∧ Ends word rest kind := by
  rcases wholeNumber_whole starts with ⟨rest, text_eq, isWhole, stops⟩
  have dropped : text.drop (wholeNumber text).length = rest := by
    have same := congrArg (List.drop (wholeNumber text).length) text_eq
    rwa [List.drop_left] at same
  simp only [number_eq isWhole.ne_nil, dropped]
  by_cases noFraction : fraction rest = []
  · refine ⟨.integer, sign ++ wholeNumber text, rest, ?_, ?_, .integer signed isWhole, ?_,
      fraction_eq_nil_iff.mp noFraction⟩
    · simp [noFraction]
    · rw [List.append_assoc, ← text_eq]
    · rcases stops with zero | stops
      · rw [zero]
        cases signed with
        | plus => exact .inl rfl
        | minus => exact .inr (.inl rfl)
      · exact .inr (.inr stops)
  · rcases exists_of_fraction noFraction with
      ⟨digits, after, rest_eq, part_eq, notEmpty, areDigits, ends⟩
    refine ⟨.decimal, sign ++ (wholeNumber text ++ '.' :: digits), after, ?_, ?_,
      .decimal signed isWhole notEmpty areDigits, ends⟩
    · simp [part_eq, Nat.add_assoc]
    · rw [List.append_assoc, List.append_assoc, ← rest_eq, ← text_eq]

theorem exists_number_of_isDigit {c : Char} (isDigit : c.isDigit = true) (rest : List Char) :
    ∃ kind word after, number 0 (c :: rest) = .ok (some kind, word.length) ∧
      c :: rest = word ++ after ∧ Form kind word ∧ Ends word after kind :=
  number_form .plus (show followedBy (c :: rest) Char.isDigit = true from isDigit)

theorem exists_number_of_isSign {c : Char} {rest : List Char} (signed : isSign c rest = true) :
    ∃ kind word after, number 1 rest = .ok (some kind, word.length) ∧
      c :: rest = word ++ after ∧ Form kind word ∧ Ends word after kind := by
  rcases Bool.and_eq_true_iff.mp signed with ⟨isMinus, starts⟩
  rw [of_decide_eq_true isMinus]
  exact number_form .minus starts

theorem number_integer (sign : Nat) {whole rest : List Char} (isWhole : Whole whole)
    (stops : whole = ['0'] ∨ followedBy rest Char.isDigit = false)
    (noFraction : ∀ d others, rest = '.' :: d :: others → d.isDigit = false) :
    number sign (whole ++ rest) = .ok (some .integer, sign + whole.length) := by
  have whole_eq : wholeNumber (whole ++ rest) = whole := wholeNumber_append isWhole stops
  rw [number_eq (by rw [whole_eq]; exact isWhole.ne_nil)]
  simp [whole_eq, fraction_eq_nil_iff.mpr noFraction]

theorem number_decimal (sign : Nat) {whole digits rest : List Char} (isWhole : Whole whole)
    (notEmpty : digits ≠ []) (areDigits : digits.all Char.isDigit = true)
    (stops : followedBy rest Char.isDigit = false) :
    number sign (whole ++ '.' :: (digits ++ rest)) =
      .ok (some .decimal, sign + (whole ++ '.' :: digits).length) := by
  have whole_eq : wholeNumber (whole ++ '.' :: (digits ++ rest)) = whole :=
    wholeNumber_append isWhole (.inr rfl)
  rw [number_eq (by rw [whole_eq]; exact isWhole.ne_nil)]
  simp [whole_eq, fraction_append notEmpty areDigits stops, Nat.add_assoc]

/-! ## Literals -/

/-- A backslash starts an escape, or ends the text. -/
theorem ne_backslash {c : Char} {rest : List Char} (notLast : c = '\\' → rest = [] → False)
    (noEscape : ∀ letter others, c = '\\' → rest = letter :: others → False) : c ≠ '\\' := by
  rintro rfl
  cases rest with
  | nil => exact notLast rfl rfl
  | cons letter others => exact noEscape letter others rfl rfl

theorem stringEnd_form {passed stop : Nat} {text : List Char}
    (read : stringEnd passed text = .ok stop) :
    ∃ (pieces : List (List Char)) (rest : List Char), text = pieces.flatten ++ '"' :: rest ∧
      stop = passed + (pieces.flatten.length + 1) ∧ ∀ piece ∈ pieces, Piece '"' piece := by
  revert read
  fun_induction stringEnd passed text with
  | case1 | case2 | case4 | case6 =>
      intro read
      cases read
  | case3 passed letter rest known ih =>
      intro read
      rcases ih read with ⟨pieces, after, rfl, rfl, arePieces⟩
      refine ⟨['\\', letter] :: pieces, after, rfl, ?_,
        List.forall_mem_cons.mpr ⟨.escape known, arePieces⟩⟩
      simp only [List.flatten_cons, List.length_append, List.length_cons, List.length_nil]
      omega
  | case5 passed rest =>
      intro read
      cases read
      exact ⟨[], rest, rfl, rfl, by simp⟩
  | case7 passed c rest notLast noEscape notQuote sameLine ih =>
      intro read
      rcases ih read with ⟨pieces, after, rfl, rfl, arePieces⟩
      have plain := Piece.plain notQuote (ne_backslash notLast noEscape)
        (Bool.of_not_eq_true sameLine)
      refine ⟨[c] :: pieces, after, rfl, ?_, List.forall_mem_cons.mpr ⟨plain, arePieces⟩⟩
      simp only [List.flatten_cons, List.length_append, List.length_cons, List.length_nil]
      omega

theorem stringEnd_piece {piece : List Char} (isPiece : Piece '"' piece) (passed : Nat)
    (rest : List Char) :
    stringEnd passed (piece ++ rest) = stringEnd (passed + piece.length) rest := by
  cases isPiece with
  | plain notQuote notBackslash sameLine => simp [stringEnd, notQuote, notBackslash, sameLine]
  | escape known => simp [stringEnd, known]

/-- A string literal is read piece by piece, whatever comes behind. -/
theorem stringEnd_pieces {pieces : List (List Char)} (arePieces : ∀ piece ∈ pieces, Piece '"' piece)
    (passed : Nat) (rest : List Char) :
    stringEnd passed (pieces.flatten ++ rest) =
      stringEnd (passed + pieces.flatten.length) rest := by
  induction pieces generalizing passed with
  | nil => simp
  | cons piece pieces ih =>
      rcases List.forall_mem_cons.mp arePieces with ⟨isPiece, others⟩
      simp only [List.flatten_cons, List.append_assoc, stringEnd_piece isPiece, ih others,
        List.length_append, Nat.add_assoc]

theorem stringEnd_append {pieces : List (List Char)} (arePieces : ∀ piece ∈ pieces, Piece '"' piece)
    (passed : Nat) (rest : List Char) :
    stringEnd passed (pieces.flatten ++ '"' :: rest) =
      .ok (passed + (pieces.flatten.length + 1)) := by
  simp [stringEnd_pieces arePieces, stringEnd, Nat.add_assoc]

theorem closeCharacter_eq_ok_iff {passed stop : Nat} {text : List Char} :
    closeCharacter passed text = .ok stop ↔ ∃ rest, text = '\'' :: rest ∧ stop = passed + 1 := by
  fun_cases closeCharacter passed text with
  | case1 => simp
  | case2 rest => simp [eq_comm]
  | case3 c rest notQuote => simp [notQuote]

theorem characterEnd_form {stop : Nat} {text : List Char} (read : characterEnd text = .ok stop) :
    ∃ piece rest, text = piece ++ '\'' :: rest ∧ stop = piece.length + 2 ∧ Piece '\'' piece := by
  revert read
  fun_cases characterEnd text with
  | case1 | case2 | case4 | case5 | case6 =>
      intro read
      cases read
  | case3 letter rest known =>
      intro read
      rcases closeCharacter_eq_ok_iff.mp read with ⟨after, rfl, rfl⟩
      exact ⟨['\\', letter], after, rfl, rfl, .escape known⟩
  | case7 c rest notLast noEscape notQuote sameLine =>
      intro read
      rcases closeCharacter_eq_ok_iff.mp read with ⟨after, rfl, rfl⟩
      refine ⟨[c], after, rfl, rfl, .plain notQuote (ne_backslash notLast noEscape) ?_⟩
      exact Bool.of_not_eq_true sameLine

theorem characterEnd_piece {piece : List Char} (isPiece : Piece '\'' piece) (rest : List Char) :
    characterEnd (piece ++ rest) = closeCharacter (piece.length + 1) rest := by
  cases isPiece with
  | plain notQuote notBackslash sameLine =>
      simp [characterEnd, notQuote, notBackslash, sameLine]
  | escape known => simp [characterEnd, known]

theorem characterEnd_append {piece : List Char} (isPiece : Piece '\'' piece) (rest : List Char) :
    characterEnd (piece ++ '\'' :: rest) = .ok (piece.length + 2) := by
  simp [characterEnd_piece isPiece, closeCharacter]

/-! ## Any lexeme -/

theorem isBlank_range {c : Char} (blank : Text.isBlank c = true) :
    c.toNat ≤ 32 ∨ 128 ≤ c.toNat := by
  simp only [Text.isBlank, Text.blankRanges, List.any_cons, List.any_nil, Bool.or_eq_true,
    Bool.and_eq_true, decide_eq_true_eq] at blank
  grind

theorem startsName_range {c : Char} (starts : startsName c = true) :
    64 ≤ c.toNat ∧ c.toNat ≤ 122 := by
  rcases Bool.or_eq_true_iff.mp starts with letter | isAt
  · rcases Bool.or_eq_true_iff.mp letter with upper | lower
    · rcases of_decide_eq_true upper with ⟨low, high⟩
      exact ⟨Nat.le_trans (by decide) low, Nat.le_trans high (by decide)⟩
    · rcases Bool.and_eq_true_iff.mp lower with ⟨low, high⟩
      exact ⟨Nat.le_trans (by decide) (of_decide_eq_true low),
        Nat.le_trans (of_decide_eq_true high) (by decide)⟩
  · rw [of_decide_eq_true isAt]
    decide

theorem isDigit_range {c : Char} (isDigit : c.isDigit = true) : 48 ≤ c.toNat ∧ c.toNat ≤ 57 :=
  Char.isDigit_iff_toNat.mp isDigit

theorem not_isBlank_of_startsName {c : Char} (starts : startsName c = true) :
    ¬Text.isBlank c = true := by
  intro blank
  have := isBlank_range blank
  have := startsName_range starts
  omega

theorem not_isBlank_of_isDigit {c : Char} (isDigit : c.isDigit = true) :
    ¬Text.isBlank c = true := by
  intro blank
  have := isBlank_range blank
  have := isDigit_range isDigit
  omega

theorem not_startsName_of_isDigit {c : Char} (isDigit : c.isDigit = true) :
    ¬startsName c = true := by
  intro starts
  have := startsName_range starts
  have := isDigit_range isDigit
  omega

theorem operator_form {c : Char} {rest : List Char} (isSingle : Single c)
    (notSign : isSign c rest = false) :
    ∃ word after, c :: rest = word ++ after ∧ word.length = operatorLength c rest ∧
      Form .operator word ∧ Ends word after .operator := by
  unfold operatorLength
  split
  · rename_i paired
    rcases rest with _ | ⟨d, rest⟩
    · cases paired
    refine ⟨[c, d], rest, rfl, rfl, .pair paired, ?_, ?_⟩
    · rintro _ ⟨⟩
    · rintro ⟨⟩
  · rename_i notPaired
    refine ⟨[c], rest, rfl, rfl, .single isSingle, ?_, ?_⟩
    · rintro _ ⟨⟩
      exact Bool.of_not_eq_true notPaired
    · rintro ⟨⟩
      exact notSign

/-- What is found at the start of a text has the form of its kind and ends there. -/
theorem measure_form {c : Char} {rest : List Char} {kind : TokenKind} {length : Nat}
    (measured : measure c rest = .ok (some kind, length)) :
    ∃ word after, c :: rest = word ++ after ∧ word.length = length ∧ Form kind word ∧
      Ends word after kind := by
  revert measured
  fun_cases measure c rest with
  | case1 =>
      intro measured
      cases measured
  | case2 _ starts =>
      intro measured
      cases measured
      refine ⟨c :: rest.takeWhile continuesName, rest.dropWhile continuesName, ?_, ?_, ?_,
        followedBy_dropWhile _ _⟩
      · rw [List.cons_append, List.takeWhile_append_dropWhile]
      · rw [List.length_cons, Nat.add_comm]
      · exact .identifier starts List.all_takeWhile
  | case3 _ _ isDigit =>
      intro measured
      rcases exists_number_of_isDigit isDigit rest with
        ⟨kind, word, after, read, text_eq, form, ends⟩
      cases read.symm.trans measured
      exact ⟨word, after, text_eq, rfl, form, ends⟩
  | case4 _ _ _ signed =>
      intro measured
      rcases exists_number_of_isSign signed with ⟨kind, word, after, read, text_eq, form, ends⟩
      cases read.symm.trans measured
      exact ⟨word, after, text_eq, rfl, form, ends⟩
  | case5 _ _ _ _ isQuote =>
      intro measured
      cases read : stringEnd 1 rest with
      | error slip =>
          rw [read] at measured
          cases measured
      | ok stop =>
          rw [read] at measured
          cases measured
          rcases stringEnd_form read with ⟨pieces, after, rfl, rfl, arePieces⟩
          refine ⟨'"' :: (pieces.flatten ++ ['"']), after, by simp [isQuote], ?_, .string arePieces,
            trivial⟩
          simp
          omega
  | case6 _ _ _ _ _ isQuote =>
      intro measured
      cases read : characterEnd rest with
      | error slip =>
          rw [read] at measured
          cases measured
      | ok stop =>
          rw [read] at measured
          cases measured
          rcases characterEnd_form read with ⟨piece, after, rfl, rfl, isPiece⟩
          exact ⟨'\'' :: (piece ++ ['\'']), after, by simp [isQuote], by simp, .character isPiece,
            trivial⟩
  | case7 notBlank notName notDigit notSign notString notCharacter =>
      intro measured
      cases measured
      have isSingle : Single c := ⟨Bool.of_not_eq_true notBlank, Bool.of_not_eq_true notName,
        Bool.of_not_eq_true notDigit, notString, notCharacter⟩
      exact operator_form isSingle (Bool.of_not_eq_true notSign)

theorem measure_blanks {c : Char} {rest : List Char} {length : Nat}
    (measured : measure c rest = .ok (none, length)) :
    ∃ blanks after, c :: rest = blanks ++ after ∧ blanks.length = length ∧ blanks ≠ [] ∧
      blanks.all Text.isBlank = true ∧ followedBy after Text.isBlank = false := by
  revert measured
  fun_cases measure c rest with
  | case1 blank =>
      intro measured
      cases measured
      refine ⟨c :: rest.takeWhile Text.isBlank, rest.dropWhile Text.isBlank, ?_, ?_,
        List.cons_ne_nil _ _, ?_, followedBy_dropWhile _ _⟩
      · rw [List.cons_append, List.takeWhile_append_dropWhile]
      · rw [List.length_cons, Nat.add_comm]
      · rw [List.all_cons, blank, List.all_takeWhile, Bool.and_self]
  | case3 _ _ isDigit =>
      intro measured
      rcases exists_number_of_isDigit isDigit rest with ⟨_, _, _, read, _⟩
      cases read.symm.trans measured
  | case4 _ _ _ signed =>
      intro measured
      rcases exists_number_of_isSign signed with ⟨_, _, _, read, _⟩
      cases read.symm.trans measured
  | case5 =>
      intro measured
      cases read : stringEnd 1 rest <;> (rw [read] at measured; cases measured)
  | case6 =>
      intro measured
      cases read : characterEnd rest <;> (rw [read] at measured; cases measured)
  | _ =>
      intro measured
      cases measured

theorem measure_of_blanks {c : Char} {blanks rest : List Char}
    (areBlank : (c :: blanks).all Text.isBlank = true)
    (stops : followedBy rest Text.isBlank = false) :
    measure c (blanks ++ rest) = .ok (none, blanks.length + 1) := by
  rcases Bool.and_eq_true_iff.mp areBlank with ⟨blank, others⟩
  rw [measure, if_pos blank, takeWhile_append others stops, Nat.add_comm]

theorem measure_of_digit {c : Char} (isDigit : c.isDigit = true) (rest : List Char) :
    measure c rest = number 0 (c :: rest) := by
  rw [measure, if_neg (not_isBlank_of_isDigit isDigit), if_neg (not_startsName_of_isDigit isDigit),
    if_pos isDigit]

theorem measure_of_minus {rest : List Char} (starts : followedBy rest Char.isDigit = true) :
    measure '-' rest = number 1 rest := by
  have signed : isSign '-' rest = true := by simpa [isSign, followedBy] using starts
  rw [measure, if_neg (by decide), if_neg (by decide), if_neg (by decide), if_pos signed]

theorem measure_of_quote (rest : List Char) :
    measure '"' rest = (stringEnd 1 rest).map fun length => (some .string, length) := by
  simp [measure, Text.isBlank, Text.blankRanges, startsName, isSign]

theorem measure_of_apostrophe (rest : List Char) :
    measure '\'' rest = (characterEnd rest).map fun length => (some .character, length) := by
  simp [measure, Text.isBlank, Text.blankRanges, startsName, isSign]

theorem isPair_cases {first second : Char} (paired : isPair first second = true) :
    (first = '=' ∨ first = '!' ∨ first = '&' ∨ first = '|') := by
  simp only [isPair, List.mem_cons, Prod.mk.injEq, List.not_mem_nil, or_false,
    decide_eq_true_eq] at paired
  rcases paired with ⟨rfl, _⟩ | ⟨rfl, _⟩ | ⟨rfl, _⟩ | ⟨rfl, _⟩ <;> simp

theorem measure_of_operator {c : Char} {rest : List Char} (isSingle : Single c)
    (notSign : isSign c rest = false) :
    measure c rest = .ok (some .operator, operatorLength c rest) := by
  simp [measure, isSingle.notBlank, isSingle.notName, isSingle.notDigit, notSign,
    isSingle.notString, isSingle.notCharacter]

theorem single_of_isPair {first second : Char} (paired : isPair first second = true) :
    Single first ∧ first ≠ '-' := by
  rcases isPair_cases paired with rfl | rfl | rfl | rfl <;>
    exact ⟨⟨by decide, by decide, by decide, by decide, by decide⟩, by decide⟩

theorem Whole.exists_cons {whole : List Char} (isWhole : Whole whole) :
    ∃ c others, whole = c :: others ∧ Text.isBlank c = false := by
  cases isWhole with
  | zero => exact ⟨_, _, rfl, rfl⟩
  | positive isDigit _ _ =>
      exact ⟨_, _, rfl, Bool.of_not_eq_true (not_isBlank_of_isDigit isDigit)⟩

theorem Form.exists_cons {kind : TokenKind} {word : List Char} (form : Form kind word) :
    ∃ c others, word = c :: others ∧ Text.isBlank c = false := by
  cases form with
  | identifier starts _ =>
      exact ⟨_, _, rfl, Bool.of_not_eq_true (not_isBlank_of_startsName starts)⟩
  | integer signed isWhole =>
      cases signed with
      | plus => exact isWhole.exists_cons
      | minus => exact ⟨_, _, rfl, rfl⟩
  | decimal signed isWhole _ _ =>
      cases signed with
      | plus =>
          rcases isWhole.exists_cons with ⟨c, others, rfl, notBlank⟩
          exact ⟨c, _, rfl, notBlank⟩
      | minus => exact ⟨_, _, rfl, rfl⟩
  | character _ => exact ⟨_, _, rfl, rfl⟩
  | string _ => exact ⟨_, _, rfl, rfl⟩
  | pair paired => exact ⟨_, _, rfl, (single_of_isPair paired).1.notBlank⟩
  | single isSingle => exact ⟨_, _, rfl, isSingle.notBlank⟩

theorem measure_of_signed {sign digits word rest : List Char} {c : Char} {kind : TokenKind}
    (signed : Sign sign) (starts : followedBy (digits ++ rest) Char.isDigit = true)
    (read : number sign.length (digits ++ rest) = .ok (some kind, sign.length + digits.length))
    (whole_eq : sign ++ digits = c :: word) :
    measure c (word ++ rest) = .ok (some kind, word.length + 1) := by
  cases signed with
  | plus =>
      rw [List.nil_append] at whole_eq
      rw [whole_eq] at starts read
      rw [measure_of_digit starts]
      simpa using read
  | minus =>
      rcases List.cons.inj (show '-' :: digits = c :: word from whole_eq) with ⟨rfl, rfl⟩
      rw [measure_of_minus starts, Nat.add_comm]
      exact read

/-- A zero may be followed by digits with a sign as without. -/
theorem Ends.zero_or_stops {sign digits rest : List Char} (signed : Sign sign)
    (isWhole : Whole digits) (ends : Ends (sign ++ digits) rest .integer) :
    digits = ['0'] ∨ followedBy rest Char.isDigit = false := by
  cases signed with
  | plus =>
      rcases ends.1 with zero | minusZero | stops
      · exact .inl zero
      · have isDigit := isWhole.starts rest
        rw [List.nil_append] at minusZero
        rw [minusZero] at isDigit
        cases isDigit
      · exact .inr stops
  | minus =>
      rcases ends.1 with zero | minusZero | stops
      · cases zero
      · exact .inl (List.cons.inj minusZero).2
      · exact .inr stops

/-- A token of some form at the start of a text is found if it ends there. -/
theorem measure_of_form {kind : TokenKind} {c : Char} {whole word rest : List Char}
    (form : Form kind whole) (whole_eq : whole = c :: word) (ends : Ends whole rest kind) :
    measure c (word ++ rest) = .ok (some kind, word.length + 1) := by
  cases form with
  | identifier starts continues =>
      cases whole_eq
      rw [measure, if_neg (not_isBlank_of_startsName starts), if_pos starts,
        takeWhile_append continues ends, Nat.add_comm]
  | @integer sign whole signed isWhole =>
      have read := number_integer sign.length isWhole (Ends.zero_or_stops signed isWhole ends)
        ends.2
      exact measure_of_signed signed (isWhole.starts rest) read whole_eq
  | @decimal sign whole digits signed isWhole notEmpty areDigits =>
      have read := number_decimal sign.length isWhole notEmpty areDigits ends
      have isDigit := isWhole.starts ('.' :: (digits ++ rest))
      rw [← List.cons_append, ← List.append_assoc] at read isDigit
      exact measure_of_signed signed isDigit read whole_eq
  | character isPiece =>
      cases whole_eq
      simp [measure_of_apostrophe, characterEnd_append isPiece, Except.map]
  | string arePieces =>
      cases whole_eq
      simp [measure_of_quote, stringEnd_append arePieces, Except.map]
      omega
  | @pair first second paired =>
      cases whole_eq
      rcases single_of_isPair paired with ⟨isSingle, notMinus⟩
      have notSign : isSign c (second :: rest) = false := by simp [isSign, notMinus]
      rw [List.cons_append, List.nil_append, measure_of_operator isSingle notSign]
      simp [operatorLength, paired]
  | single isSingle =>
      cases whole_eq
      rcases ends with ⟨notPaired, notSigned⟩
      have notSign : isSign c rest = false := by
        by_cases minus : c = '-'
        · subst minus
          simpa [isSign, followedBy] using notSigned rfl
        · simp [isSign, minus]
      have alone : (rest.head?.any (isPair c)) = false := notPaired c rfl
      rw [List.nil_append, measure_of_operator isSingle notSign]
      simp [operatorLength, alone]

end Lexeme

end GradualScript
