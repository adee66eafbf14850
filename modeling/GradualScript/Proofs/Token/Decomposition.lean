import GradualScript.Proofs.Token.Forms
import GradualScript.Proofs.Token.Spans
import GradualScript.Token.Scanner

/-!
# Texts as blanks and tokens

A text that is cut into tokens is nothing but these tokens, in order, and blanks around and between
them. Each token has the form of its kind and goes as far as it can, and there is only one such way
to cut a text. The cutting goes by characters; a scanner that goes by bytes takes the same tokens,
and never has to split a character or to look past the end.
-/

namespace GradualScript

namespace Lexeme

/-- Whether a text is made of tokens of the given kinds and texts, with blanks around and between
them, where each token goes as far as it can. -/
inductive Woven : List Char → List (TokenKind × List Char) → Prop
  | done {blanks : List Char} (areBlank : blanks.all Text.isBlank = true) : Woven blanks []
  | token {blanks word rest : List Char} {kind : TokenKind}
      {others : List (TokenKind × List Char)} (areBlank : blanks.all Text.isBlank = true)
      (form : Form kind word) (ends : Ends word rest kind) (further : Woven rest others) :
      Woven (blanks ++ (word ++ rest)) ((kind, word) :: others)

theorem Woven.forms {text : List Char} {words : List (TokenKind × List Char)}
    (woven : Woven text words) : ∀ word ∈ words, Form word.1 word.2 := by
  induction woven with
  | done => simp
  | token _ form _ _ ih =>
      intro word isWord
      rcases List.mem_cons.mp isWord with rfl | isOther
      · exact form
      · exact ih word isOther

/-- The kinds and texts of the lexemes that are no blanks. -/
def words (lexemes : List Lexeme) : List (TokenKind × List Char) :=
  lexemes.filterMap fun lexeme => lexeme.kind.map (·, lexeme.text)

theorem words_blank (text : List Char) (lexemes : List Lexeme) :
    words (⟨none, text⟩ :: lexemes) = words lexemes :=
  rfl

theorem words_token (kind : TokenKind) (text : List Char) (lexemes : List Lexeme) :
    words (⟨some kind, text⟩ :: lexemes) = (kind, text) :: words lexemes :=
  rfl

theorem Woven.prepend {blanks text : List Char} {tokens : List (TokenKind × List Char)}
    (woven : Woven text tokens) (areBlank : blanks.all Text.isBlank = true) :
    Woven (blanks ++ text) tokens := by
  cases woven with
  | done others => exact .done (by simp [areBlank, others])
  | token others form ends further =>
      rw [← List.append_assoc]
      exact .token (by simp [areBlank, others]) form ends further

/-! ## Cutting -/

/-- What is cut off a text when its first part is known. -/
theorem take_drop_of_append {c : Char} {rest piece after : List Char}
    (text_eq : c :: rest = piece ++ after) (notEmpty : piece ≠ []) :
    c :: rest.take (piece.length - 1) = piece ∧ rest.drop (piece.length - 1) = after := by
  rcases List.exists_cons_of_ne_nil notEmpty with ⟨first, others, rfl⟩
  rcases List.cons.inj text_eq with ⟨rfl, rfl⟩
  simp

/-- What is measured is a stretch at the start of the text. -/
theorem exists_word_of_measure {c : Char} {rest : List Char} {kind : Option TokenKind}
    {length : Nat} (measured : measure c rest = .ok (kind, length)) :
    ∃ word after, c :: rest = word ++ after ∧ word.length = length ∧ word ≠ [] := by
  cases kind with
  | none =>
      rcases measure_blanks measured with ⟨blanks, after, text_eq, length_eq, notEmpty, _⟩
      exact ⟨blanks, after, text_eq, length_eq, notEmpty⟩
  | some kind =>
      rcases measure_form measured with ⟨word, after, text_eq, length_eq, form, _⟩
      rcases form.exists_cons with ⟨first, more, word_eq, _⟩
      exact ⟨word, after, text_eq, length_eq, word_eq ▸ List.cons_ne_nil _ _⟩

theorem split_woven {text : List Char} {lexemes : List Lexeme}
    (divided : split text = .ok lexemes) : Woven text (words lexemes) := by
  fun_induction split text generalizing lexemes with
  | case1 =>
      cases divided
      exact .done rfl
  | case2 => cases divided
  | case3 => cases divided
  | case4 c rest kind length measured others dividedOthers ih =>
      cases divided
      have further := ih dividedOthers
      cases kind with
      | none =>
          rcases measure_blanks measured with ⟨blanks, after, text_eq, rfl, notEmpty, areBlank, _⟩
          rcases take_drop_of_append text_eq notEmpty with ⟨taken, dropped⟩
          rw [words_blank, text_eq]
          rw [dropped] at further
          exact further.prepend areBlank
      | some kind =>
          rcases measure_form measured with ⟨word, after, text_eq, rfl, form, ends⟩
          rcases form.exists_cons with ⟨first, more, word_eq, _⟩
          rcases take_drop_of_append text_eq (word_eq ▸ List.cons_ne_nil _ _) with ⟨taken, dropped⟩
          rw [words_token, text_eq, taken]
          rw [dropped] at further
          exact .token (show ([] : List Char).all Text.isBlank = true from rfl) form ends further

theorem split_append {c : Char} {piece rest : List Char} {kind : Option TokenKind}
    {lexemes : List Lexeme} (measured : measure c (piece ++ rest) = .ok (kind, piece.length + 1))
    (divided : split rest = .ok lexemes) :
    split (c :: piece ++ rest) = .ok (⟨kind, c :: piece⟩ :: lexemes) := by
  rw [List.cons_append, split, measured]
  simp [divided]

theorem split_of_blanks {blanks rest : List Char} {lexemes : List Lexeme}
    (areBlank : blanks.all Text.isBlank = true) (stops : followedBy rest Text.isBlank = false)
    (divided : split rest = .ok lexemes) :
    ∃ more, split (blanks ++ rest) = .ok more ∧ words more = words lexemes := by
  cases blanks with
  | nil => exact ⟨lexemes, divided, rfl⟩
  | cons c blanks =>
      exact ⟨_, split_append (measure_of_blanks areBlank stops) divided, words_blank _ _⟩

/-- Where a text is made of blanks and tokens that go as far as they can, it is cut into them. -/
theorem split_of_woven {text : List Char} {tokens : List (TokenKind × List Char)}
    (woven : Woven text tokens) : ∃ lexemes, split text = .ok lexemes ∧ words lexemes = tokens := by
  induction woven with
  | @done blanks areBlank =>
      have divided : split [] = .ok [] := by rw [split]
      rcases split_of_blanks areBlank rfl divided with ⟨more, dividedAll, same⟩
      rw [List.append_nil] at dividedAll
      exact ⟨more, dividedAll, same⟩
  | @token blanks word rest kind others areBlank form ends _ ih =>
      rcases ih with ⟨lexemes, divided, same⟩
      rcases form.exists_cons with ⟨c, more, rfl, notBlank⟩
      have dividedToken := split_append (measure_of_form form rfl ends) divided
      have stops : followedBy (c :: more ++ rest) Text.isBlank = false := notBlank
      rcases split_of_blanks areBlank stops dividedToken with ⟨all, dividedAll, sameAll⟩
      refine ⟨all, dividedAll, ?_⟩
      rw [sameAll, words_token, same]

end Lexeme

theorem Draft.map_place (draft : Draft) (file : String) (glyphs : List Glyph)
    (lexemes : List Lexeme) :
    (draft.place file glyphs lexemes).map (fun token => (token.kind, token.text.toList)) =
      Lexeme.words lexemes := by
  induction lexemes generalizing glyphs with
  | nil => rfl
  | cons lexeme others ih =>
      rcases lexeme with ⟨_ | kind, text⟩
      · rw [Lexeme.words_blank, place]
        exact ih _
      · rw [Lexeme.words_token, place, List.map_cons, ih, String.toList_ofList]

/-! ## Scanning -/

namespace Glyph

theorem dropBytes?_append (before glyphs : List Glyph) :
    dropBytes? (Source.byteSize (before.map Glyph.char)) (before ++ glyphs) = some glyphs := by
  induction before with
  | nil => simp [dropBytes?]
  | cons glyph before ih =>
      have positive := glyph.char.utf8Size_pos
      rw [List.map_cons, Source.byteSize_cons, List.cons_append]
      generalize size_eq : glyph.char.utf8Size + Source.byteSize (before.map Glyph.char) = size
      rcases size with _ | count
      · omega
      rw [dropBytes?, if_neg (by omega), ← ih]
      congr 1
      omega

theorem takeBytes?_append (word glyphs : List Glyph) :
    takeBytes? (Source.byteSize (word.map Glyph.char)) (word ++ glyphs) =
      some (word.map Glyph.char) := by
  induction word with
  | nil => simp [takeBytes?]
  | cons glyph word ih =>
      have positive := glyph.char.utf8Size_pos
      rw [List.map_cons, Source.byteSize_cons, List.cons_append]
      generalize size_eq : glyph.char.utf8Size + Source.byteSize (word.map Glyph.char) = size
      rcases size with _ | count
      · omega
      have left : count + 1 - glyph.char.utf8Size = Source.byteSize (word.map Glyph.char) := by
        omega
      rw [takeBytes?, if_neg (by omega), left, ih, Option.map_some]

end Glyph

/-- Lexemes are placed one by one. -/
theorem Draft.place_cons (draft : Draft) (file : String) (word glyphs : List Glyph)
    (kind : Option TokenKind) (lexemes : List Lexeme) :
    draft.place file (word ++ glyphs) (⟨kind, word.map Glyph.char⟩ :: lexemes) =
      draft.place file (word ++ glyphs) [⟨kind, word.map Glyph.char⟩] ++
        draft.place file glyphs lexemes := by
  cases kind <;> simp [place]

theorem Draft.originByte_append (draft : Draft) (before glyphs : List Glyph) :
    draft.originByte (Source.byteSize (before.map Glyph.char)) (before ++ glyphs) =
      draft.originOf glyphs := by
  induction before with
  | nil =>
      cases glyphs with
      | nil => rfl
      | cons glyph glyphs => simp [originByte, originOf, glyph.char.utf8Size_pos]
  | cons glyph before ih =>
      rw [List.map_cons, Source.byteSize_cons, List.cons_append, originByte, if_neg (by omega),
        Nat.add_sub_cancel_left, ih]

namespace Scanner

/-- The size in bytes of the first characters of a text; none if it has fewer characters. -/
def sizeOfFirst? (count : Nat) (text : List Char) : Option Nat :=
  if count ≤ text.length then some (Source.byteSize (text.take count)) else none

/-- Goes on by one lexeme: measures it in the text that is left, and passes its bytes if it is
blanks, or takes them as a token. -/
def step? (scanner : Scanner) : Option Scanner :=
  match scanner.rest? with
  | some (c :: rest) =>
    match Lexeme.measure c rest with
    | .ok (kind, length) => do
      let size ← sizeOfFirst? length (c :: rest)
      match kind with
      | none => some (scanner.move size)
      | some kind => scanner.take? kind size
    | .error _ => none
  | _ => none

/-- Goes on lexeme by lexeme until nothing is left; none if that takes more steps. -/
def scan? (scanner : Scanner) : Nat → Option Scanner
  | 0 => if scanner.atEnd then some scanner else none
  | steps + 1 =>
    if scanner.atEnd then some scanner else scanner.step?.bind fun next => next.scan? steps

section

variable {draft : Draft} {file : String} {before word glyphs : List Glyph} {tokens : List Token}

theorem rest?_eq (kept : draft.glyphs = before ++ glyphs) :
    rest? ⟨draft, file, Source.byteSize (before.map Glyph.char), tokens⟩ =
      some (glyphs.map Glyph.char) := by
  rw [rest?, kept, Glyph.dropBytes?_append, Option.map_some]

theorem take?_eq (kept : draft.glyphs = before ++ word ++ glyphs) (kind : TokenKind) :
    take? ⟨draft, file, Source.byteSize (before.map Glyph.char), tokens⟩ kind
        (Source.byteSize (word.map Glyph.char)) =
      some ⟨draft, file, Source.byteSize ((before ++ word).map Glyph.char), tokens ++
        [⟨kind, String.ofList (word.map Glyph.char), .ofByte (draft.originOf (word ++ glyphs)) file,
          .ofByte (draft.originOf glyphs) file⟩]⟩ := by
  have stop_eq : draft.originByte (Source.byteSize ((before ++ word).map Glyph.char))
      draft.glyphs = draft.originOf glyphs := by
    rw [kept, Draft.originByte_append]
  rw [List.append_assoc] at kept
  have start_eq : draft.originByte (Source.byteSize (before.map Glyph.char)) draft.glyphs =
      draft.originOf (word ++ glyphs) := by
    rw [kept, Draft.originByte_append]
  have left : Glyph.dropBytes? (Source.byteSize (before.map Glyph.char)) draft.glyphs =
      some (word ++ glyphs) := by
    rw [kept, Glyph.dropBytes?_append]
  have offset_eq : Source.byteSize (before.map Glyph.char) +
      Source.byteSize (word.map Glyph.char) =
        Source.byteSize ((before ++ word).map Glyph.char) := by
    rw [List.map_append, Source.byteSize_append]
  simp [-List.map_append, take?, left, Glyph.takeBytes?_append, writtenAt, start_eq, offset_eq,
    stop_eq, move]

theorem not_atEnd_of_kept (kept : draft.glyphs = before ++ word ++ glyphs) (notEmpty : word ≠ []) :
    ¬atEnd ⟨draft, file, Source.byteSize (before.map Glyph.char), tokens⟩ := by
  have positive : 0 < Source.byteSize (word.map Glyph.char) :=
    Source.byteSize_pos (mt List.map_eq_nil_iff.mp notEmpty)
  simp only [atEnd, Draft.text, kept, List.map_append, Source.byteSize_append, decide_eq_true_eq]
  omega

/-- A step goes over the first lexeme of what is left, and takes it if it is a token. -/
theorem step?_eq {c : Char} {rest : List Char} {kind : Option TokenKind}
    (kept : draft.glyphs = before ++ word ++ glyphs)
    (left : (word ++ glyphs).map Glyph.char = c :: rest)
    (measured : Lexeme.measure c rest = .ok (kind, word.length)) :
    step? ⟨draft, file, Source.byteSize (before.map Glyph.char), tokens⟩ =
      some ⟨draft, file, Source.byteSize ((before ++ word).map Glyph.char),
        tokens ++ draft.place file (word ++ glyphs) [⟨kind, word.map Glyph.char⟩]⟩ := by
  have looked := @rest?_eq _ file _ _ tokens (kept.trans (List.append_assoc ..))
  have size_eq : sizeOfFirst? word.length (c :: rest) =
      some (Source.byteSize (word.map Glyph.char)) := by
    rw [← left, sizeOfFirst?, if_pos (by simp), ← List.map_take, List.take_left]
  rw [left] at looked
  unfold step?
  rw [looked]
  simp only [measured, size_eq, Option.bind_eq_bind, Option.bind_some]
  cases kind with
  | none =>
      have passed : Source.byteSize ((before ++ word).map Glyph.char) =
          Source.byteSize (before.map Glyph.char) + Source.byteSize (word.map Glyph.char) := by
        rw [List.map_append, Source.byteSize_append]
      simp [-List.map_append, move, passed, Draft.place]
  | some kind => simp [-List.map_append, take?_eq kept, Draft.place]

/-- A scanner goes on to the end of a text that can be divided, and takes the tokens that are placed
in what was left. -/
theorem scan?_eq {text : List Char} {lexemes : List Lexeme} {steps : Nat}
    (divided : Lexeme.split text = .ok lexemes) (kept : draft.glyphs = before ++ glyphs)
    (left : glyphs.map Glyph.char = text) (enough : lexemes.length ≤ steps) :
    scan? ⟨draft, file, Source.byteSize (before.map Glyph.char), tokens⟩ steps =
      some ⟨draft, file, Source.byteSize draft.text,
        tokens ++ draft.place file glyphs lexemes⟩ := by
  fun_induction Lexeme.split text generalizing lexemes before glyphs tokens steps with
  | case1 =>
      cases divided
      have empty : glyphs = [] := List.map_eq_nil_iff.mp left
      subst empty
      rw [List.append_nil] at kept
      have isEnd : atEnd ⟨draft, file, Source.byteSize (before.map Glyph.char), tokens⟩ = true :=
        decide_eq_true (Nat.le_of_eq (by rw [Draft.text, kept]))
      cases steps <;> simp [scan?, isEnd, Draft.place, Draft.text, kept]
  | case2 => cases divided
  | case3 => cases divided
  | case4 c rest kind length measured others dividedOthers ih =>
      cases divided
      rcases Lexeme.exists_word_of_measure measured with ⟨word, after, text_eq, rfl, notEmpty⟩
      rcases Lexeme.take_drop_of_append text_eq notEmpty with ⟨taken, dropped⟩
      rw [text_eq] at left
      rcases List.map_eq_append_iff.mp left with ⟨first, last, rfl, rfl, rfl⟩
      have parts : draft.glyphs = before ++ first ++ last := by rw [List.append_assoc, kept]
      rw [List.length_map] at measured
      rcases steps with _ | steps
      · cases enough
      rw [taken, scan?, if_neg (not_atEnd_of_kept parts (mt List.map_eq_nil_iff.mpr notEmpty)),
        step?_eq parts (left.trans text_eq.symm) measured, Option.bind_some,
        ih dividedOthers parts dropped.symm (Nat.le_of_succ_le_succ enough), List.append_assoc,
        ← Draft.place_cons]

end

end Scanner

/-! ## Whole texts -/

variable {source file : String} {tokens : List Token}

theorem woven_of_tokenize (tokenized : tokenize source file = .ok tokens) :
    Lexeme.Woven (Draft.ofText source.toList).text
      (tokens.map fun token => (token.kind, token.text.toList)) := by
  unfold tokenize Draft.tokens at tokenized
  split at tokenized
  · cases tokenized
  · rename_i lexemes divided
    cases tokenized
    rw [Draft.map_place]
    exact Lexeme.split_woven divided

/-- Each token of a text has the form of its kind. -/
theorem form_of_tokenize (tokenized : tokenize source file = .ok tokens) {token : Token}
    (isToken : token ∈ tokens) : Lexeme.Form token.kind token.text.toList :=
  (woven_of_tokenize tokenized).forms _ (List.mem_map_of_mem isToken)

/-- A text of which tokens are taken is, after its backspaces have been applied, made of these
tokens and blanks around and between them; each token has the form of its kind and goes as far as it
can, and no other tokens make up the text in this way. A scanner that measures what is left and goes
by bytes comes to the end of the text, and takes them. -/
theorem tokenize_lossless (tokenized : tokenize source file = .ok tokens) :
    (∀ words, Lexeme.Woven (Draft.ofText source.toList).text words ↔
      words = tokens.map fun token => (token.kind, token.text.toList)) ∧
    ∃ lexemes scanner, Lexeme.split (Draft.ofText source.toList).text = .ok lexemes ∧
      (∀ steps ≥ lexemes.length, (Scanner.ofText source.toList file).scan? steps = some scanner) ∧
      scanner.atEnd = true ∧ scanner.tokens = tokens := by
  have woven := woven_of_tokenize tokenized
  unfold tokenize Draft.tokens at tokenized
  split at tokenized
  · cases tokenized
  rename_i lexemes divided
  cases tokenized
  rw [Draft.map_place] at woven ⊢
  refine ⟨fun words => ⟨fun otherwise => ?_, fun same => same ▸ woven⟩, lexemes, _, divided,
    fun steps enough => Scanner.scan?_eq divided (List.nil_append _).symm rfl enough, ?_, ?_⟩
  · rcases Lexeme.split_of_woven otherwise with ⟨others, dividedAgain, rfl⟩
    rw [divided] at dividedAgain
    cases dividedAgain
    rfl
  · exact decide_eq_true (Nat.le_refl _)
  · rfl

/-- A name may hold a minus sign, a point after a fraction is an operator, and a zero stands
alone. -/
theorem tokenize_lossless_zero :
    ∃ tokens, tokenize "a-1+\x08=-0.5.)-07" "" = .ok tokens ∧
      Lexeme.Woven "a-1=-0.5.)-07".toList
        [(.identifier, "a-1".toList), (.operator, "=".toList), (.decimal, "-0.5".toList),
          (.operator, ".".toList), (.operator, ")".toList), (.integer, "-0".toList),
          (.integer, "7".toList)] := by
  have evaluated : (tokenize "a-1+\x08=-0.5.)-07" "").toOption.map
      (·.map fun token => (token.kind, token.text.toList)) =
        some [(.identifier, "a-1".toList), (.operator, "=".toList), (.decimal, "-0.5".toList),
          (.operator, ".".toList), (.operator, ")".toList), (.integer, "-0".toList),
          (.integer, "7".toList)] := by
    decide +kernel
  have kept : (Draft.ofText "a-1+\x08=-0.5.)-07".toList).text = "a-1=-0.5.)-07".toList := by
    decide +kernel
  cases tokenized : tokenize "a-1+\x08=-0.5.)-07" "" with
  | error diagnostic =>
      rw [tokenized] at evaluated
      cases evaluated
  | ok tokens =>
      rw [tokenized] at evaluated
      refine ⟨tokens, rfl, ?_⟩
      rw [← kept]
      exact ((tokenize_lossless tokenized).1 _).mpr (Option.some.inj evaluated).symm

end GradualScript
