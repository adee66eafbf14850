import GradualScript.Proofs.Grammar.Literal
import GradualScript.Proofs.Token.Respacing
import GradualScript.Value.Basic

/-!
# Values that can be written and read back

Every whole number is read back from its own text, and every character and every string from a
literal in which the characters that may not stand there as they are have been escaped. A literal
never holds a backspace as it is, so nothing of it is taken back before it is read.
-/

namespace GradualScript

namespace Text

/-- How a character is written in a literal between quotes of a kind. -/
def escaped (quote c : Char) : List Char :=
  if c = '\x08' then ['\\', 'b']
  else if c = '\n' then ['\\', 'n']
  else if c = '\r' then ['\\', 'r']
  else if c = quote then ['\\', quote]
  else if c = '\\' then ['\\', '\\']
  else [c]

/-- The literal between quotes of a kind that stands for a text. -/
def inQuotes (quote : Char) (text : List Char) : String :=
  String.ofList (quote :: (text.flatMap (escaped quote) ++ [quote]))

section

variable {quote : Char} (isQuote : quote = '"' ∨ quote = '\'')
include isQuote

theorem escaped_denotes (c : Char) : Lexeme.Denotes quote (escaped quote c) c := by
  have named : escape? quote = some quote := by
    rcases isQuote with rfl | rfl <;> rfl
  fun_cases escaped quote c with
  | case1 isBackspace => exact .escape (isBackspace ▸ rfl)
  | case2 _ isNewline => exact .escape (isNewline ▸ rfl)
  | case3 _ _ isReturn => exact .escape (isReturn ▸ rfl)
  | case4 _ _ _ sameQuote => exact .escape (sameQuote ▸ named)
  | case5 _ _ _ _ isBackslash =>
      subst isBackslash
      exact .escape rfl
  | case6 _ notNewline notReturn notQuote notBackslash =>
      exact .plain notQuote notBackslash (by simp [Lexeme.isLineBreak, notNewline, notReturn])

theorem backspace_ne_quote : '\x08' ≠ quote := by
  rcases isQuote with rfl | rfl <;> decide

theorem backspace_not_mem_escaped (c : Char) : '\x08' ∉ escaped quote c := by
  fun_cases escaped quote c with
  | case6 notBackspace => simpa using Ne.symm notBackspace
  | _ => simp [backspace_ne_quote isQuote]

theorem inQuotes_quotes (text : List Char) :
    Lexeme.Quotes quote (inQuotes quote text).toList (text.map (escaped quote)) text := by
  constructor
  · simp [inQuotes, List.flatMap_def]
  · induction text with
    | nil => exact .nil
    | cons c text ih => exact .cons (escaped_denotes isQuote c) ih

theorem backspace_not_mem_inQuotes (text : List Char) :
    '\x08' ∉ (inQuotes quote text).toList := by
  simp [inQuotes, backspace_ne_quote isQuote, backspace_not_mem_escaped isQuote]

end

end Text

namespace Lexeme

/-! ## Whole numbers -/

theorem Whole.all_isDigit {digits : List Char} (isWhole : Whole digits) :
    digits.all Char.isDigit = true := by
  cases isWhole with
  | zero => rfl
  | positive isDigit _ areDigits => simp [isDigit, areDigits]

/-- Only zero starts with a zero. -/
theorem exists_toDigits {n : Nat} (positive : 0 < n) :
    ∃ first others, Nat.toDigits 10 n = first :: others ∧ first ≠ '0' := by
  induction n using Nat.strong_induction_on with
  | _ n ih =>
      by_cases small : n < 10
      · have notZero : ∀ digit < 10, 0 < digit → Nat.digitChar digit ≠ '0' := by decide
        exact ⟨_, _, Nat.toDigits_of_lt_base small, notZero n small positive⟩
      · -- the last digit comes behind, so the first one is that of the tenth part
        rcases ih (n / 10) (by omega) (by omega) with ⟨first, others, digits_eq, notZero⟩
        refine ⟨first, others ++ [Nat.digitChar (n % 10)], ?_, notZero⟩
        rw [Nat.toDigits_of_base_le (by decide) (by omega), digits_eq, List.cons_append]

theorem whole_toDigits (n : Nat) : Whole (Nat.toDigits 10 n) := by
  rcases Nat.eq_zero_or_pos n with rfl | positive
  · exact .zero
  · rcases exists_toDigits positive with ⟨first, others, digits_eq, notZero⟩
    have areDigits : ∀ c ∈ first :: others, c.isDigit = true := by
      intro c found
      rw [← digits_eq] at found
      exact Nat.isDigit_of_mem_toDigits (by decide) (by decide) found
    rcases List.forall_mem_cons.mp areDigits with ⟨isDigit, othersDigits⟩
    rw [digits_eq]
    exact .positive isDigit notZero (List.all_eq_true.mpr othersDigits)

theorem integer_numeral (n : Int) : Numeral (Text.integer n).toList n := by
  have value_eq : digitsValue (Nat.toDigits 10 n.natAbs) = n.natAbs := by
    rw [← ofDigitChars_eq_digitsValue, Nat.ofDigitChars_ten_toDigits]
  unfold Text.integer Text.natural
  split
  · have negated : n = -(digitsValue (Nat.toDigits 10 n.natAbs) : Int) := by omega
    have numeral := Numeral.negative (whole_toDigits n.natAbs)
    rw [← negated] at numeral
    simpa using numeral
  · have same : n = digitsValue (Nat.toDigits 10 n.natAbs) := by omega
    have numeral := Numeral.positive (whole_toDigits n.natAbs)
    rw [← same] at numeral
    simpa using numeral

section

variable {text : List Char} {values : List Char}

theorem Quotes.form_string {pieces : List (List Char)} (quotes : Quotes '"' text pieces values) :
    Form .string text := by
  rw [quotes.text_eq]
  exact .string (arePieces_of_denote quotes.denote)

theorem Quotes.form_character {piece : List Char} {c : Char}
    (quotes : Quotes '\'' text [piece] [c]) : Form .character text := by
  rw [quotes.text_eq, List.flatten_singleton]
  exact .character (arePieces_of_denote quotes.denote piece (.head _))

end

theorem Numeral.form {text : List Char} {n : Int} (numeral : Numeral text n) :
    Form .integer text := by
  cases numeral with
  | positive isWhole => exact .integer .plus isWhole
  | negative isWhole => exact .integer .minus isWhole

theorem Numeral.backspace_not_mem {text : List Char} {n : Int} (numeral : Numeral text n) :
    '\x08' ∉ text := by
  have none_among {digits : List Char} (isWhole : Whole digits) : '\x08' ∉ digits := by
    intro found
    exact absurd (List.all_eq_true.mp isWhole.all_isDigit _ found) (by decide)
  cases numeral with
  | positive isWhole => exact none_among isWhole
  | negative isWhole => simpa using none_among isWhole

end Lexeme

/-! ## Reading back -/

/-- A text that has the form of a token is that token and nothing else. -/
theorem tokenize_form {word : String} {kind : TokenKind} (form : Lexeme.Form kind word.toList)
    (clean : '\x08' ∉ word.toList) (file : String) :
    ∃ span, tokenize word file = .ok [⟨kind, word, span⟩] := by
  have woven : Lexeme.Woven (Draft.ofText word.toList).text [(kind, word.toList)] := by
    rw [Draft.text_ofText_of_clean clean]
    exact form.woven
  rcases tokenize_of_woven woven file with ⟨tokens, tokenized, same⟩
  rcases List.map_eq_singleton_iff.mp same with ⟨⟨found, text, span⟩, rfl, token_eq⟩
  rcases Prod.mk.inj token_eq with ⟨rfl, text_eq⟩
  have same_text : text = word := String.toList_inj.mp text_eq
  subst same_text
  exact ⟨span, tokenized⟩

/-- Whether a text is one token of a kind, and that token is read as a literal. -/
def ReadsBack (grammar : Grammar) (file text : String) (kind : TokenKind) (value : Literal) :
    Prop :=
  ∃ span, tokenize text file = .ok [⟨kind, text, span⟩] ∧
    Parse.ReadsAs grammar ⟨kind, text, span⟩ value

section

variable (grammar : Grammar) (file : String)

theorem integer_readsBack (n : Int64) :
    ReadsBack grammar file (Text.integer n.toInt) .integer (.integer n) := by
  have numeral := Lexeme.integer_numeral n.toInt
  rcases tokenize_form numeral.form numeral.backspace_not_mem file with ⟨span, tokenized⟩
  exact ⟨span, tokenized, Parse.readsAs_integer rfl numeral (Integer.ofInt?_toInt n)⟩

theorem string_readsBack (text : String) :
    ReadsBack grammar file (Text.inQuotes '"' text.toList) .string (.string text) := by
  have quotes := Text.inQuotes_quotes (.inl rfl) text.toList
  have clean := Text.backspace_not_mem_inQuotes (.inl rfl) text.toList
  rcases tokenize_form quotes.form_string clean file with ⟨span, tokenized⟩
  refine ⟨span, tokenized, ?_⟩
  have reads : Parse.ReadsAs grammar ⟨.string, Text.inQuotes '"' text.toList, span⟩
      (.string (String.ofList text.toList)) := Parse.readsAs_string rfl quotes
  rwa [String.ofList_toList] at reads

theorem character_readsBack (c : Char) :
    ReadsBack grammar file (Text.inQuotes '\'' [c]) .character (.character c) := by
  have quotes := Text.inQuotes_quotes (.inr rfl) [c]
  have clean := Text.backspace_not_mem_inQuotes (.inr rfl) [c]
  rcases tokenize_form quotes.form_character clean file with ⟨span, tokenized⟩
  exact ⟨span, tokenized, Parse.readsAs_character rfl quotes⟩

end

/-- Every whole number is read back from its text, and every string and every character from the
literal that is written for it. -/
theorem literals_read_back (grammar : Grammar) (file : String) :
    (∀ n : Int64, ReadsBack grammar file (Value.integer n).render .integer (.integer n)) ∧
    (∀ text : String,
      ReadsBack grammar file (Text.inQuotes '"' text.toList) .string (.string text)) ∧
    (∀ c : Char, ReadsBack grammar file (Text.inQuotes '\'' [c]) .character (.character c)) := by
  refine ⟨fun n => ?_, string_readsBack grammar file, character_readsBack grammar file⟩
  rw [Value.render, Value.pieces, String.join_cons, String.join_nil, String.append_empty]
  exact integer_readsBack grammar file n

example : Text.inQuotes '"' "é'\"\\\n\t".toList = "\"é'\\\"\\\\\\n\t\"" := by decide

end GradualScript
