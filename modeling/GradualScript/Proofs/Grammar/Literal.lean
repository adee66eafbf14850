import Mathlib.Data.Nat.Digits.Defs
import GradualScript.Grammar.Expression
import GradualScript.Proofs.Grammar.Progress
import GradualScript.Proofs.Integer
import GradualScript.Proofs.Token.Decomposition

/-!
# What literals stand for

A literal is measured when a text is cut into tokens, and read when the tokens are parsed. The two
go through its text by rules of their own, but piece by piece alike: an escape is passed as one
piece and read as one character, and any other character is passed and read by itself. So what was
measured as a character or a string is read as one, and a whole number is refused only if it does
not fit into 64 bits.
-/

namespace GradualScript

namespace Lexeme

/-- Which character a piece of a literal stands for: an escape for the one that its letter names,
any other character for itself. -/
inductive Denotes (quote : Char) : List Char → Char → Prop
  | plain {c : Char} (notQuote : c ≠ quote) (notBackslash : c ≠ '\\')
      (sameLine : isLineBreak c = false) : Denotes quote [c] c
  | escape {letter c : Char} (named : Text.escape? letter = some c) :
      Denotes quote ['\\', letter] c

/-- Whether a text is made of pieces between quotes, and what the pieces stand for. -/
structure Quotes (quote : Char) (text : List Char) (pieces : List (List Char))
    (values : List Char) : Prop where
  text_eq : text = quote :: (pieces.flatten ++ [quote])
  denote : List.Forall₂ (Denotes quote) pieces values

/-- The number that a row of digits stands for: each digit counts ten times the one behind it. -/
def digitsValue (digits : List Char) : Nat :=
  Nat.ofDigits 10 (digits.reverse.map fun digit => digit.toNat - '0'.toNat)

/-- Which number a whole number stands for. -/
inductive Numeral : List Char → Int → Prop
  | positive {digits : List Char} (isWhole : Whole digits) : Numeral digits (digitsValue digits)
  | negative {digits : List Char} (isWhole : Whole digits) :
      Numeral ('-' :: digits) (-(digitsValue digits : Int))

section

variable {quote : Char} {piece : List Char}

theorem Piece.exists_denotes (isPiece : Piece quote piece) : ∃ c, Denotes quote piece c := by
  cases isPiece with
  | plain notQuote notBackslash sameLine => exact ⟨_, .plain notQuote notBackslash sameLine⟩
  | escape known =>
      rcases Option.isSome_iff_exists.mp known with ⟨c, named⟩
      exact ⟨c, .escape named⟩

theorem Denotes.isPiece {c : Char} (denotes : Denotes quote piece c) : Piece quote piece := by
  cases denotes with
  | plain notQuote notBackslash sameLine => exact .plain notQuote notBackslash sameLine
  | escape named => exact .escape (by simp [named])

theorem exists_denote {pieces : List (List Char)}
    (arePieces : ∀ piece ∈ pieces, Piece quote piece) :
    ∃ values, List.Forall₂ (Denotes quote) pieces values := by
  induction pieces with
  | nil => exact ⟨[], .nil⟩
  | cons piece pieces ih =>
      rcases List.forall_mem_cons.mp arePieces with ⟨isPiece, others⟩
      rcases isPiece.exists_denotes with ⟨c, denotes⟩
      rcases ih others with ⟨values, denote⟩
      exact ⟨c :: values, .cons denotes denote⟩

theorem arePieces_of_denote {pieces : List (List Char)} {values : List Char}
    (denote : List.Forall₂ (Denotes quote) pieces values) :
    ∀ piece ∈ pieces, Piece quote piece := by
  induction denote with
  | nil => simp
  | cons denotes _ ih => exact List.forall_mem_cons.mpr ⟨denotes.isPiece, ih⟩

/-- Escapes are replaced piece by piece. -/
theorem unescape_piece {c : Char} (denotes : Denotes quote piece c) (rest : List Char) :
    Text.unescape (piece ++ rest) = c :: Text.unescape rest := by
  cases denotes with
  | plain _ notBackslash _ =>
      cases rest with
      | nil => simp [Text.unescape]
      | cons next rest => simp [Text.unescape, notBackslash]
  | escape named => simp [Text.unescape, named]

theorem unescape_flatten {pieces : List (List Char)} {values : List Char}
    (denote : List.Forall₂ (Denotes quote) pieces values) :
    Text.unescape pieces.flatten = values := by
  induction denote with
  | nil => rfl
  | cons denotes _ ih => rw [List.flatten_cons, unescape_piece denotes, ih]

end

/-- Digits are read from the left, each time ten times what was read before and one digit more. -/
theorem ofDigitChars_eq_digitsValue (digits : List Char) :
    Nat.ofDigitChars 10 digits 0 = digitsValue digits := by
  induction digits using List.reverseRecOn with
  | nil => rfl
  | append_singleton digits digit ih =>
      simp only [digitsValue, Nat.ofDigitChars_append, Nat.ofDigitChars_cons, Nat.ofDigitChars_nil,
        List.reverse_append, List.reverse_cons, List.reverse_nil, List.nil_append,
        List.cons_append, List.map_cons, Nat.ofDigits_cons] at ih ⊢
      omega

namespace Form

variable {text : List Char}

theorem exists_quotes_character (form : Form .character text) :
    ∃ piece c, Quotes '\'' text [piece] [c] := by
  cases form with
  | @character piece isPiece =>
      rcases isPiece.exists_denotes with ⟨c, denotes⟩
      exact ⟨piece, c, by simp, .cons denotes .nil⟩

theorem exists_quotes_string (form : Form .string text) :
    ∃ pieces values, Quotes '"' text pieces values := by
  cases form with
  | string arePieces =>
      rcases exists_denote arePieces with ⟨values, denote⟩
      exact ⟨_, values, rfl, denote⟩

theorem exists_numeral (form : Form .integer text) : ∃ n, Numeral text n := by
  cases form with
  | integer signed isWhole =>
      cases signed with
      | plus => exact ⟨_, .positive isWhole⟩
      | minus => exact ⟨_, .negative isWhole⟩

end Form

end Lexeme

namespace Integer

theorem isNumeral_of_whole {digits : List Char} (isWhole : Lexeme.Whole digits) :
    isNumeral digits = true := by
  cases isWhole with
  | zero => rfl
  | positive isDigit _ areDigits => simp [isNumeral, isDigit, areDigits]

theorem ofText?_of_numeral {text : List Char} {n : Int} (numeral : Lexeme.Numeral text n) :
    ofText? text = ofInt? n := by
  cases numeral with
  | positive isWhole =>
      rw [ofText?, if_pos (isNumeral_of_whole isWhole), Lexeme.ofDigitChars_eq_digitsValue]
      · rintro digits rfl
        cases isWhole.starts []
      · rintro digits rfl
        cases isWhole.starts []
  | negative isWhole =>
      rw [ofText?, if_pos (isNumeral_of_whole isWhole), Lexeme.ofDigitChars_eq_digitsValue]

end Integer

/-- Quotes of one byte each are taken off. -/
theorem Text.unquote?_quoted {quote : Char} (narrow : quote.utf8Size = 1) (inner : List Char) :
    Text.unquote? (quote :: (inner ++ [quote])) = some inner := by
  have large : ¬Source.byteSize (quote :: (inner ++ [quote])) < 2 := by
    simp only [Source.byteSize_cons, Source.byteSize_append, narrow]
    omega
  have last : (quote :: (inner ++ [quote])).getLast? = some quote := by
    rw [← List.cons_append, List.getLast?_concat]
  rw [Text.unquote?, if_neg large, if_pos (by simp [last, Text.isNarrow, narrow]), List.tail_cons,
    List.dropLast_concat]

/-- The quotes of a literal of a text can be taken off. -/
theorem Token.not_splits_of_form {token : Token}
    (form : Lexeme.Form token.kind token.text.toList) : ¬token.Splits := by
  rintro ⟨isString | isCharacter, unquoted⟩
  · rw [isString] at form
    rcases form.exists_quotes_string with ⟨_, _, quotes⟩
    rw [quotes.text_eq, Text.unquote?_quoted rfl] at unquoted
    cases unquoted
  · rw [isCharacter] at form
    rcases form.exists_quotes_character with ⟨_, _, quotes⟩
    rw [quotes.text_eq, Text.unquote?_quoted rfl] at unquoted
    cases unquoted

/-! ## Literals among the tokens -/

namespace Parse

/-- Whether a token is read as the operand that is the given literal, and nothing else is passed,
wherever the token stands. -/
def ReadsAs (grammar : Grammar) (token : Token) (value : Literal) : Prop :=
  ∀ passed rest file, operand grammar ⟨passed, token :: rest, file⟩ =
    .ok (.literal token.span none value) ⟨token :: passed, rest, file⟩

/-- Whether an operand cannot start with a token, for a cause that lies in the token. -/
def Refuses (grammar : Grammar) (token : Token) (cause : Cause) : Prop :=
  ∀ passed rest file, operand grammar ⟨passed, token :: rest, file⟩ =
    .error (.reported (.located cause token.span.start)) ⟨token :: passed, rest, file⟩

variable {grammar : Grammar} {token : Token}

theorem readsAs_of_literal? {value : Literal} (found : literal? token = some (.ok value)) :
    ReadsAs grammar token value := by
  intro passed rest file
  rw [operand, operandWith, look_apply]
  simp only [found]
  rfl

theorem refuses_of_literal? {cause : Cause}
    (found : literal? token = some (.error (.reported (.located cause token.span.start)))) :
    Refuses grammar token cause := by
  intro passed rest file
  rw [operand, operandWith, look_apply]
  simp only [found]
  rfl

theorem quotedText?_eq {quote : Char} {pieces : List (List Char)} {values : List Char}
    (quotes : Lexeme.Quotes quote token.text.toList pieces values) (narrow : quote.utf8Size = 1) :
    quotedText? token = some values := by
  rw [quotedText?, quotes.text_eq, Text.unquote?_quoted narrow, Option.map_some,
    Lexeme.unescape_flatten quotes.denote]

theorem readsAs_string {pieces : List (List Char)} {values : List Char}
    (isString : token.kind = .string)
    (quotes : Lexeme.Quotes '"' token.text.toList pieces values) :
    ReadsAs grammar token (.string (String.ofList values)) := by
  apply readsAs_of_literal?
  simp [literal?, isString, quotedText?_eq quotes rfl]

theorem readsAs_character {piece : List Char} {c : Char} (isCharacter : token.kind = .character)
    (quotes : Lexeme.Quotes '\'' token.text.toList [piece] [c]) :
    ReadsAs grammar token (.character c) := by
  apply readsAs_of_literal?
  simp [literal?, isCharacter, quotedText?_eq quotes rfl]

theorem readsAs_integer {n : Int} {value : Int64} (isInteger : token.kind = .integer)
    (numeral : Lexeme.Numeral token.text.toList n) (fits : Integer.ofInt? n = some value) :
    ReadsAs grammar token (.integer value) := by
  apply readsAs_of_literal?
  simp [literal?, isInteger, Integer.ofText?_of_numeral numeral, fits]

theorem refuses_integer {n : Int} (isInteger : token.kind = .integer)
    (numeral : Lexeme.Numeral token.text.toList n) (overflows : Integer.ofInt? n = none) :
    Refuses grammar token (.unreadableNumber token.text) := by
  apply refuses_of_literal?
  simp [literal?, isInteger, Integer.ofText?_of_numeral numeral, overflows, unreadable]

end Parse

/-- Every literal of a text is read as what its token stands for. A character literal is one piece
between quotes and is read as one character. A string literal can be divided into pieces, and
however it is divided, these are the pieces it was measured by, and it is read as the characters
they stand for. A whole number is read as the number it stands for if 64 bits hold that, and refused
otherwise. -/
theorem literals_denote {source file : String} {tokens : List Token} {token : Token}
    (tokenized : tokenize source file = .ok tokens) (isToken : token ∈ tokens)
    (grammar : Grammar) :
    (token.kind = .character → ∃ piece c, Lexeme.Quotes '\'' token.text.toList [piece] [c] ∧
      Parse.ReadsAs grammar token (.character c)) ∧
    (token.kind = .string →
      (∃ pieces values, Lexeme.Quotes '"' token.text.toList pieces values) ∧
      ∀ pieces values, Lexeme.Quotes '"' token.text.toList pieces values →
        (∀ piece ∈ pieces, ∀ passed rest, Lexeme.stringEnd passed (piece ++ rest) =
          Lexeme.stringEnd (passed + piece.length) rest) ∧
        Parse.ReadsAs grammar token (.string (String.ofList values))) ∧
    (token.kind = .integer → ∃ n, Lexeme.Numeral token.text.toList n ∧
      (-2 ^ 63 ≤ n ∧ n < 2 ^ 63 →
        ∃ value : Int64, value.toInt = n ∧ Parse.ReadsAs grammar token (.integer value)) ∧
      (¬(-2 ^ 63 ≤ n ∧ n < 2 ^ 63) →
        Parse.Refuses grammar token (.unreadableNumber token.text))) := by
  have form := form_of_tokenize tokenized isToken
  refine ⟨fun isCharacter => ?_, fun isString => ?_, fun isInteger => ?_⟩
  · rw [isCharacter] at form
    rcases form.exists_quotes_character with ⟨piece, c, quotes⟩
    exact ⟨piece, c, quotes, Parse.readsAs_character isCharacter quotes⟩
  · rw [isString] at form
    refine ⟨form.exists_quotes_string, fun pieces values quotes => ⟨?_, ?_⟩⟩
    · intro piece isPiece
      exact Lexeme.stringEnd_piece (Lexeme.arePieces_of_denote quotes.denote piece isPiece)
    · exact Parse.readsAs_string isString quotes
  · rw [isInteger] at form
    rcases form.exists_numeral with ⟨n, numeral⟩
    refine ⟨n, numeral, fun fits => ?_, fun overflows => ?_⟩
    · rcases Integer.exists_ofInt? fits with ⟨value, value_eq, toInt_eq⟩
      exact ⟨value, toInt_eq, Parse.readsAs_integer isInteger numeral value_eq⟩
    · exact Parse.refuses_integer isInteger numeral (Integer.ofInt?_eq_none overflows)

/-- An escaped backslash does not start the escapes behind it, and the first whole number that needs
more than 64 bits is refused. -/
theorem literals_denote_backslashes :
    ∃ text letter large : Token,
      tokenize "\"\\\\\\n\\\"x\" '\\'' 9223372036854775808" "" = .ok [text, letter, large] ∧
      Parse.ReadsAs .standard text (.string "\\\n\"x") ∧
      (∃ c, Parse.ReadsAs .standard letter (.character c)) ∧
      Parse.Refuses .standard large (.unreadableNumber "9223372036854775808") := by
  have tokenized : tokenize "\"\\\\\\n\\\"x\" '\\'' 9223372036854775808" "" = .ok
      [⟨.string, "\"\\\\\\n\\\"x\"", ⟨0, ""⟩, ⟨9, ""⟩⟩, ⟨.character, "'\\''", ⟨10, ""⟩, ⟨14, ""⟩⟩,
        ⟨.integer, "9223372036854775808", ⟨15, ""⟩, ⟨34, ""⟩⟩] := by
    decide +kernel
  refine ⟨_, _, _, tokenized, ?_, ?_, ?_⟩
  · have quotes : Lexeme.Quotes '"' "\"\\\\\\n\\\"x\"".toList
        [['\\', '\\'], ['\\', 'n'], ['\\', '"'], ['x']] ['\\', '\n', '"', 'x'] := by
      refine ⟨rfl, .cons (.escape rfl) (.cons (.escape rfl) (.cons (.escape rfl) (.cons ?_ .nil)))⟩
      exact .plain (by decide) (by decide) rfl
    exact (((literals_denote tokenized (.head _) .standard).2.1 rfl).2 _ _ quotes).2
  · rcases (literals_denote tokenized (.tail _ (.head _)) .standard).1 rfl with ⟨_, c, _, reads⟩
    exact ⟨c, reads⟩
  · rcases (literals_denote tokenized (.tail _ (.tail _ (.head _))) .standard).2.2 rfl with
      ⟨n, numeral, _, refused⟩
    apply refused
    intro fits
    have unread : Integer.ofText? "9223372036854775808".toList = none := by decide
    rcases Integer.exists_ofInt? fits with ⟨value, found, _⟩
    rw [← Integer.ofText?_of_numeral numeral, unread] at found
    cases found

end GradualScript
