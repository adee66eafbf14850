import GradualScript.Proofs.Token.Decomposition

/-!
# Tokens with spaces between them

A blank goes on with no token, and neither does the end of a text. So tokens that are written one
after the other with a space between them are found again, whatever stood between them before: the
minus sign of a number keeps its digits, a sign that would make an operator with the next one stays
alone, and a literal keeps the spaces in it.
-/

namespace GradualScript

namespace Lexeme

/-- Whether some token goes on with the character when it comes next. -/
def continuesToken (c : Char) : Bool :=
  continuesName c || c = '.' || c = '=' || c = '&' || c = '|'

theorem continuesToken_of_isDigit {c : Char} (isDigit : c.isDigit = true) :
    continuesToken c = true := by
  have alphanumeric : c.isAlphanum = true := Bool.or_eq_true_iff.mpr (.inr isDigit)
  simp [continuesToken, continuesName, alphanumeric]

theorem continuesToken_of_isPair {first second : Char} (paired : isPair first second = true) :
    continuesToken second = true := by
  simp only [isPair, List.mem_cons, Prod.mk.injEq, List.not_mem_nil, or_false,
    decide_eq_true_eq] at paired
  rcases paired with ⟨_, rfl⟩ | ⟨_, rfl⟩ | ⟨_, rfl⟩ | ⟨_, rfl⟩ <;> decide

theorem continuesToken_range {c : Char} (continues : continuesToken c = true) :
    38 ≤ c.toNat ∧ c.toNat ≤ 124 := by
  simp only [continuesToken, continuesName, Bool.or_eq_true, decide_eq_true_eq, or_assoc]
    at continues
  rcases continues with alphanumeric | rfl | rfl | rfl | rfl | rfl | rfl | rfl
  · rcases Bool.or_eq_true_iff.mp alphanumeric with letter | isDigit
    · have := startsName_range (Bool.or_eq_true_iff.mpr (.inl letter))
      omega
    · have := isDigit_range isDigit
      omega
  all_goals decide

theorem followedBy_mono {test other : Char → Bool} {rest : List Char}
    (weaker : ∀ c, test c = true → other c = true) (stops : followedBy rest other = false) :
    followedBy rest test = false := by
  cases rest with
  | nil => rfl
  | cons c rest =>
      apply Bool.of_not_eq_true
      intro passes
      have continues : other c = true := weaker c passes
      exact absurd stops (by simp [followedBy, continues])

/-- A token ends where no token goes on. -/
theorem ends_of_stops {kind : TokenKind} {rest : List Char}
    (stops : followedBy rest continuesToken = false) (word : List Char) : Ends word rest kind := by
  have noDigit : followedBy rest Char.isDigit = false :=
    followedBy_mono (fun _ => continuesToken_of_isDigit) stops
  cases kind with
  | identifier =>
      apply followedBy_mono _ stops
      intro c continues
      simp [continuesToken, continues]
  | integer =>
      refine ⟨.inr (.inr noDigit), ?_⟩
      -- a point goes on with a number, so the rest does not start with one
      rintro d others rfl
      cases stops
  | decimal => exact noDigit
  | character => trivial
  | string => trivial
  | operator =>
      refine ⟨?_, fun _ => noDigit⟩
      intro c _
      exact followedBy_mono (fun _ => continuesToken_of_isPair) stops

theorem ends_nil {kind : TokenKind} (word : List Char) : Ends word [] kind :=
  ends_of_stops rfl word

theorem ends_blank {kind : TokenKind} {c : Char} (blank : Text.isBlank c = true)
    (word rest : List Char) : Ends word (c :: rest) kind := by
  apply ends_of_stops
  apply Bool.of_not_eq_true
  intro continues
  have := continuesToken_range continues
  have := isBlank_range blank
  omega

theorem Form.woven {kind : TokenKind} {word : List Char} (form : Form kind word) :
    Woven word [(kind, word)] := by
  have noBlanks : ([] : List Char).all Text.isBlank = true := rfl
  simpa using Woven.token noBlanks form (ends_nil word) (.done noBlanks)

/-- Words of some form are found where they are written with spaces between them. -/
theorem woven_intercalate {words : List (TokenKind × List Char)}
    (forms : ∀ word ∈ words, Form word.1 word.2) :
    Woven ([' '].intercalate (words.map Prod.snd)) words := by
  induction words with
  | nil => exact .done rfl
  | cons word others ih =>
      rcases List.forall_mem_cons.mp forms with ⟨form, otherForms⟩
      cases others with
      | nil => simpa using form.woven
      | cons next others =>
          have noBlanks : ([] : List Char).all Text.isBlank = true := rfl
          have spaced := (ih otherForms).prepend (show [' '].all Text.isBlank = true from rfl)
          simpa using Woven.token noBlanks form (ends_blank rfl _ _) spaced

section

variable {text : List Char} {words : List (TokenKind × List Char)} {c : Char}

theorem Woven.mem_of_mem_word (woven : Woven text words) {word : TokenKind × List Char}
    (isWord : word ∈ words) (inWord : c ∈ word.2) : c ∈ text := by
  induction woven with
  | done => simp at isWord
  | token _ _ _ _ ih =>
      rcases List.mem_cons.mp isWord with rfl | isOther
      · simp [inWord]
      · simp [ih isOther]

theorem Woven.isBlank_or_mem_word (woven : Woven text words) (inText : c ∈ text) :
    Text.isBlank c = true ∨ ∃ word ∈ words, c ∈ word.2 := by
  induction woven with
  | done areBlank => exact .inl (List.all_eq_true.mp areBlank c inText)
  | token areBlank _ _ _ ih =>
      simp only [List.mem_append] at inText
      rcases inText with inBlanks | inWord | inRest
      · exact .inl (List.all_eq_true.mp areBlank c inBlanks)
      · exact .inr ⟨_, List.mem_cons_self, inWord⟩
      · apply (ih inRest).imp_right
        rintro ⟨word, isWord, inWord⟩
        exact ⟨word, List.mem_cons_of_mem _ isWord, inWord⟩

end

end Lexeme

/-- No backspace is kept. -/
theorem Draft.backspace_not_mem_text (text : List Char) : '\x08' ∉ (ofText text).text := by
  have none_kept (offset : Nat) (kept : List Glyph) (clean : '\x08' ∉ kept.map Glyph.char) :
      '\x08' ∉ (keep offset kept text).map Glyph.char := by
    induction text generalizing offset kept with
    | nil => simpa [keep] using clean
    | cons c rest ih =>
        unfold keep
        split
        · apply ih
          rw [List.map_tail]
          exact fun found => clean (List.mem_of_mem_tail found)
        · rename_i notBackspace
          apply ih
          simpa [Ne.symm notBackspace] using clean
  exact none_kept 0 [] (by simp)

/-! ## Whole texts -/

variable {source file : String} {tokens : List Token}

/-- Where what is kept of a text is made of tokens, they are the tokens of the text. -/
theorem tokenize_of_woven {words : List (TokenKind × List Char)}
    (woven : Lexeme.Woven (Draft.ofText source.toList).text words) (file : String) :
    ∃ tokens, tokenize source file = .ok tokens ∧
      tokens.map (fun token => (token.kind, token.text.toList)) = words := by
  rcases Lexeme.split_of_woven woven with ⟨lexemes, divided, rfl⟩
  have tokenized : tokenize source file =
      .ok ((Draft.ofText source.toList).place file (Draft.ofText source.toList).glyphs lexemes) := by
    simp [tokenize, Draft.tokens, divided]
  exact ⟨_, tokenized, Draft.map_place ..⟩

theorem backspace_not_mem_of_tokenize (tokenized : tokenize source file = .ok tokens)
    {token : Token} (isToken : token ∈ tokens) : '\x08' ∉ token.text.toList := by
  intro found
  apply Draft.backspace_not_mem_text source.toList
  exact (woven_of_tokenize tokenized).mem_of_mem_word (List.mem_map_of_mem isToken) found

/-- The tokens of a text, written one after the other with a space between them, make a text that
has the same tokens again. -/
theorem tokenize_respaced (tokenized : tokenize source file = .ok tokens) (name : String) :
    ∃ again, tokenize (" ".intercalate (tokens.map Token.text)) name = .ok again ∧
      again.length = tokens.length ∧
      again.map Token.kind = tokens.map Token.kind ∧
      again.map Token.text = tokens.map Token.text := by
  have joined : (" ".intercalate (tokens.map Token.text)).toList =
      [' '].intercalate ((tokens.map fun token => (token.kind, token.text.toList)).map Prod.snd) := by
    simp [String.toList_intercalate, Function.comp_def]
  have woven := Lexeme.woven_intercalate (woven_of_tokenize tokenized).forms
  rw [← joined] at woven
  have clean : '\x08' ∉ (" ".intercalate (tokens.map Token.text)).toList := by
    intro found
    rcases woven.isBlank_or_mem_word found with blank | ⟨word, isWord, inWord⟩
    · exact absurd blank (by decide)
    · rcases List.mem_map.mp isWord with ⟨token, isToken, rfl⟩
      exact backspace_not_mem_of_tokenize tokenized isToken inWord
  rw [← Draft.text_ofText_of_clean clean] at woven
  rcases tokenize_of_woven woven name with ⟨again, tokenizedAgain, same⟩
  refine ⟨again, tokenizedAgain, ?_, ?_, ?_⟩
  · simpa using congrArg List.length same
  · simpa [Function.comp_def] using congrArg (List.map Prod.fst) same
  · simpa [Function.comp_def] using congrArg (List.map (String.ofList ∘ Prod.snd)) same

/-- Zeros, a minus sign and the signs of operators stay apart, and a string keeps its spaces and its
escaped quote. -/
theorem tokenize_respaced_signs :
    ∃ tokens again, tokenize "00-1x-1=!==+\x08- 1.\"a  \\\"-1\"'\\''" "" = .ok tokens ∧
      tokenize "0 0 -1 x-1 = != = - 1 . \"a  \\\"-1\" '\\''" "" = .ok again ∧
      again.length = 12 ∧ again.map Token.kind = tokens.map Token.kind ∧
      again.map Token.text = tokens.map Token.text := by
  have evaluated : (tokenize "00-1x-1=!==+\x08- 1.\"a  \\\"-1\"'\\''" "").toOption.map
      (·.map Token.text) = some ["0", "0", "-1", "x-1", "=", "!=", "=", "-", "1", ".",
        "\"a  \\\"-1\"", "'\\''"] := by
    decide +kernel
  cases tokenized : tokenize "00-1x-1=!==+\x08- 1.\"a  \\\"-1\"'\\''" "" with
  | error diagnostic =>
      rw [tokenized] at evaluated
      cases evaluated
  | ok tokens =>
      rw [tokenized] at evaluated
      have texts : tokens.map Token.text = _ := Option.some.inj evaluated
      have count := congrArg List.length texts
      rcases tokenize_respaced tokenized "" with ⟨again, tokenizedAgain, length_eq, kinds, words⟩
      rw [texts] at tokenizedAgain
      exact ⟨tokens, again, rfl, tokenizedAgain, by simpa [length_eq] using count, kinds, words⟩

end GradualScript
