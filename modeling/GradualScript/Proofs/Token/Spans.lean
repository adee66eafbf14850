import Mathlib.Data.List.Induction
import GradualScript.Proofs.Source.Line
import GradualScript.Token.Tokenize

/-!
# Tokens stand where they were written

A backspace takes back a character that may have been written long before it, so what is kept of a
text is not a stretch of it. But what was written from one kept character up to another is a text of
its own: the characters kept before it stay, so no backspace in it reaches them, and what it comes
to by itself is what is kept of it in the whole. So the text between the ends of a token comes to
the text of the token, and tokens stand one after the other, as long as the text is not longer than
offsets can tell.
-/

namespace GradualScript

namespace Source

/-- Whether an offset lies between two characters of a text, or at one of its ends. -/
def IsBoundary (text : List Char) (offset : Nat) : Prop :=
  ∃ before after, text = before ++ after ∧ byteSize before = offset

/-- Whether a text reads `slice` from one offset up to another. -/
def IsSlice (text : List Char) (start stop : Nat) (slice : List Char) : Prop :=
  ∃ before after, text = before ++ slice ++ after ∧ byteSize before = start ∧
    byteSize (before ++ slice) = stop

theorem byteSize_pos {text : List Char} (notEmpty : text ≠ []) : 0 < byteSize text := by
  cases text with
  | nil => exact absurd rfl notEmpty
  | cons c rest => exact Nat.add_pos_left c.utf8Size_pos _

theorem IsBoundary.le {text : List Char} {offset : Nat} (boundary : IsBoundary text offset) :
    offset ≤ byteSize text := by
  rcases boundary with ⟨before, after, rfl, rfl⟩
  rw [byteSize_append]
  exact Nat.le_add_right _ _

namespace IsSlice

variable {text slice : List Char} {start stop : Nat}

theorem start_boundary (isSlice : IsSlice text start stop slice) : IsBoundary text start := by
  rcases isSlice with ⟨before, after, rfl, starts, _⟩
  exact ⟨before, slice ++ after, List.append_assoc .., starts⟩

theorem stop_boundary (isSlice : IsSlice text start stop slice) : IsBoundary text stop := by
  rcases isSlice with ⟨before, after, rfl, _, stops⟩
  exact ⟨before ++ slice, after, rfl, stops⟩

theorem stop_eq (isSlice : IsSlice text start stop slice) : stop = start + byteSize slice := by
  rcases isSlice with ⟨before, after, _, rfl, rfl⟩
  exact byteSize_append _ _

end IsSlice

end Source

namespace Draft

open Source

/-! ## What is kept of a part -/

theorem keep_append (offset : Nat) (kept : List Glyph) (first second : List Char) :
    keep offset kept (first ++ second) =
      keep (offset + byteSize first) (keep offset kept first).reverse second := by
  induction first generalizing offset kept with
  | nil => simp [keep]
  | cons c rest ih =>
      rw [List.cons_append, keep, keep, byteSize_cons, ← Nat.add_assoc]
      split
      · exact ih _ _
      · exact ih _ _

theorem keep_concat (offset : Nat) (text : List Char) (c : Char) :
    keep offset [] (text ++ [c]) =
      if c = '\x08' then (keep offset [] text).dropLast
      else keep offset [] text ++ [⟨c, offset + byteSize text⟩] := by
  rw [keep_append, keep]
  split
  · simp [keep]
  · simp [keep]

/-- A kept character divides the text: what is kept before it comes from what was written before
it, and what is kept after it from what was written after it. -/
theorem exists_of_keep_eq {text : List Char} {offset : Nat} {before after : List Glyph}
    {glyph : Glyph} (kept : keep offset [] text = before ++ glyph :: after) :
    ∃ earlier later, text = earlier ++ glyph.char :: later ∧
      glyph.origin = offset + byteSize earlier ∧ keep offset [] earlier = before ∧
      keep glyph.origin [] (glyph.char :: later) = glyph :: after := by
  induction text using List.reverseRecOn generalizing after with
  | nil => simp [keep] at kept
  | append_singleton text c ih =>
      rw [keep_concat] at kept
      split at kept
      · -- the backspace takes back what was kept last, which is not `glyph`
        rename_i isBackspace
        rcases List.eq_nil_or_concat (keep offset [] text) with empty | ⟨others, last, whole⟩
        · simp [empty] at kept
        rw [List.concat_eq_append] at whole
        rw [whole, List.dropLast_concat] at kept
        subst kept
        rw [List.append_assoc, List.cons_append] at whole
        rcases ih whole with ⟨earlier, later, rfl, origin_eq, first, second⟩
        refine ⟨earlier, later ++ [c], by simp, origin_eq, first, ?_⟩
        rw [← List.cons_append, keep_concat, if_pos isBackspace, second, ← List.cons_append,
          List.dropLast_concat]
      · rename_i notBackspace
        rcases List.eq_nil_or_concat after with rfl | ⟨others, last, rfl⟩
        · rcases List.append_inj' kept rfl with ⟨first, same⟩
          cases same
          refine ⟨text, [], rfl, rfl, first, ?_⟩
          simp [keep, notBackspace]
        · rw [List.concat_eq_append, ← List.cons_append, ← List.append_assoc] at kept
          rcases List.append_inj' kept rfl with ⟨whole, same⟩
          rcases ih whole with ⟨earlier, later, rfl, origin_eq, first, second⟩
          refine ⟨earlier, later ++ [c], by simp, origin_eq, first, ?_⟩
          rw [← List.cons_append, keep_concat, if_neg notBackspace, second, List.concat_eq_append,
            ← List.cons_append, ← same, origin_eq, byteSize_append, Nat.add_assoc]

/-- What is kept does not depend on where the text stands. -/
theorem map_char_keep (text : List Char) {offset other : Nat} {kept others : List Glyph}
    (same : kept.map Glyph.char = others.map Glyph.char) :
    (keep offset kept text).map Glyph.char = (keep other others text).map Glyph.char := by
  induction text generalizing offset other kept others with
  | nil => simp [keep, same]
  | cons c rest ih =>
      rw [keep, keep]
      split
      · apply ih
        rw [List.map_tail, List.map_tail, same]
      · apply ih
        rw [List.map_cons, List.map_cons, same]

/-- All of a text without backspaces is kept. -/
theorem text_ofText_of_clean {text : List Char} (clean : '\x08' ∉ text) :
    (ofText text).text = text := by
  have all (offset : Nat) (kept : List Glyph) :
      (keep offset kept text).map Glyph.char = (kept.map Glyph.char).reverse ++ text := by
    induction text generalizing offset kept with
    | nil => simp [keep]
    | cons c rest ih =>
        rcases not_or.mp (mt List.mem_cons.mpr clean) with ⟨notFirst, notLater⟩
        rw [keep, if_neg (Ne.symm notFirst), ih notLater]
        simp
  exact all 0 []

/-- In a text without backspaces, a character stands where the text before it ends. -/
theorem originAfter_of_clean {before after : List Char} (clean : '\x08' ∉ before ++ after) :
    (ofText (before ++ after)).originAfter before.length = byteSize before := by
  have kept : (ofText (before ++ after)).glyphs.map Glyph.char = before ++ after :=
    text_ofText_of_clean clean
  rcases List.map_eq_append_iff.mp kept with ⟨first, second, glyphs_eq, first_eq, second_eq⟩
  have dropped : (ofText (before ++ after)).glyphs.drop before.length = second := by
    rw [glyphs_eq, ← first_eq, List.length_map, List.drop_left]
  rw [originAfter, dropped]
  cases second with
  | nil =>
      have noRest : after = [] := second_eq.symm
      simp [noRest, originOf, ofText]
  | cons glyph others =>
      rcases exists_of_keep_eq glyphs_eq with ⟨earlier, later, text_eq, origin_eq, keptEarlier, _⟩
      -- what was written before the kept character is all kept, so it is `before`
      have earlier_clean : '\x08' ∉ earlier := by
        intro found
        apply clean
        rw [text_eq]
        exact List.mem_append_left _ found
      have earlier_eq : earlier = before := by
        rw [← text_ofText_of_clean earlier_clean, ← first_eq, ← keptEarlier]
        rfl
      simp [originOf, origin_eq, earlier_eq]

/-- What was written from a kept character up to a later one, or up to the end, comes by itself to
what is kept from the one up to the other. -/
theorem exists_slice {text : List Char} {before word rest : List Glyph}
    (glyphs : (ofText text).glyphs = before ++ word ++ rest) (notEmpty : word ≠ []) :
    ∃ slice, IsSlice text ((ofText text).originOf (word ++ rest)) ((ofText text).originOf rest)
      slice ∧ (ofText slice).text = word.map Glyph.char := by
  rcases List.exists_cons_of_ne_nil notEmpty with ⟨glyph, others, rfl⟩
  have part {whole : List Char} (kept : keep 0 [] whole = before ++ (glyph :: others)) :
      ∃ earlier slice, whole = earlier ++ slice ∧ byteSize earlier = glyph.origin ∧
        (ofText slice).text = (glyph :: others).map Glyph.char := by
    rcases exists_of_keep_eq kept with ⟨earlier, later, rfl, origin_eq, _, inner⟩
    refine ⟨earlier, glyph.char :: later, rfl, by omega, ?_⟩
    rw [← inner]
    exact map_char_keep _ rfl
  cases rest with
  | nil =>
      rw [List.append_nil] at glyphs
      rcases part glyphs with ⟨earlier, slice, rfl, start_eq, comes⟩
      exact ⟨slice, ⟨earlier, [], by simp, start_eq, rfl⟩, comes⟩
  | cons next rest =>
      rcases exists_of_keep_eq glyphs with ⟨front, back, rfl, origin_eq, kept, _⟩
      rcases part kept with ⟨earlier, slice, rfl, start_eq, comes⟩
      refine ⟨slice, ⟨earlier, next.char :: back, by simp, start_eq, ?_⟩, comes⟩
      exact (Nat.zero_add _ ▸ origin_eq).symm

theorem originOf_le {text : List Char} {before middle rest : List Glyph}
    (glyphs : (ofText text).glyphs = before ++ middle ++ rest) :
    (ofText text).originOf (middle ++ rest) ≤ (ofText text).originOf rest := by
  by_cases empty : middle = []
  · subst empty
    exact Nat.le_refl _
  · rcases exists_slice glyphs empty with ⟨slice, isSlice, _⟩
    exact isSlice.stop_eq ▸ Nat.le_add_right _ _

/-- In a text that offsets can tell, what is kept has the offset at which it was written. -/
theorem ofByte_originOf {text : List Char} {before glyphs : List Glyph}
    (short : byteSize text < Position.offsetLimit)
    (kept : (ofText text).glyphs = before ++ glyphs) (file : String) :
    Position.ofByte ((ofText text).originOf glyphs) file =
      ⟨(ofText text).originOf glyphs, file⟩ := by
  have fits := originOf_le (kept.trans (List.append_nil _).symm)
  rw [List.append_nil] at fits
  exact Position.ofByte_of_lt (Nat.lt_of_le_of_lt fits short) file

end Draft

/-! ## Tokens -/

/-- The lexemes of a text, one after the other, are the text. -/
theorem Lexeme.flatten_split {text : List Char} {lexemes : List Lexeme}
    (divided : split text = .ok lexemes) :
    (lexemes.map Lexeme.text).flatten = text ∧ ∀ lexeme ∈ lexemes, lexeme.text ≠ [] := by
  fun_induction split text generalizing lexemes with
  | case1 =>
      cases divided
      simp
  | case2 => cases divided
  | case3 => cases divided
  | case4 c rest kind length _ others divided_others ih =>
      cases divided
      rcases ih divided_others with ⟨flatten_eq, notEmpty⟩
      refine ⟨?_, List.forall_mem_cons.mpr ⟨List.cons_ne_nil _ _, notEmpty⟩⟩
      rw [List.map_cons, List.flatten_cons, flatten_eq, List.cons_append, List.take_append_drop]

/-- The tokens among lexemes that are written one after the other, the first one at a byte. -/
def Lexeme.laid (file : String) (index : Nat) : List Lexeme → List Token
  | [] => []
  | lexeme :: others =>
    let stop := index + Source.byteSize lexeme.text
    match lexeme.kind with
    | none => laid file stop others
    | some kind =>
      ⟨kind, String.ofList lexeme.text, .ofByte index file, .ofByte stop file⟩ ::
        laid file stop others

/-- Past the last offset, lexemes are placed as at the start of a text. -/
theorem Lexeme.laid_add_offsetLimit (file : String) (index : Nat) (lexemes : List Lexeme) :
    laid file (index + Position.offsetLimit) lexemes = laid file index lexemes := by
  induction lexemes generalizing index with
  | nil => rfl
  | cons lexeme others ih =>
      have stop_eq : index + Position.offsetLimit + Source.byteSize lexeme.text =
          index + Source.byteSize lexeme.text + Position.offsetLimit := by
        omega
      simp only [laid, stop_eq, ih, Position.ofByte_add_offsetLimit]

namespace Draft

open Source

variable {text : List Char} {file : String} {token : Token}

/-- In a text without backspaces, lexemes are placed by the sizes of those before them. -/
theorem place_of_clean {before after : List Char} {lexemes : List Lexeme}
    (clean : '\x08' ∉ text) (text_eq : text = before ++ after)
    (covers : (lexemes.map Lexeme.text).flatten = after) :
    (ofText text).place file ((ofText text).glyphs.drop before.length) lexemes =
      Lexeme.laid file (byteSize before) lexemes := by
  induction lexemes generalizing before after with
  | nil => rfl
  | cons lexeme others ih =>
      rw [List.map_cons, List.flatten_cons] at covers
      subst covers
      have further := text_eq.trans (List.append_assoc ..).symm
      have start_eq := originAfter_of_clean (text_eq ▸ clean)
      have stop_eq := originAfter_of_clean (further ▸ clean)
      rw [← text_eq, originAfter] at start_eq
      rw [← further, originAfter, List.length_append, ← List.drop_drop, byteSize_append] at stop_eq
      have later := ih further rfl
      rw [List.length_append, ← List.drop_drop, byteSize_append] at later
      rcases lexeme with ⟨kind, word⟩
      cases kind <;> simp only [place, Lexeme.laid, start_eq, stop_eq, later]

/-- Whether a token is a stretch of what is kept, from where it was written up to where what follows
was written. -/
def Marks (draft : Draft) (file : String) (token : Token) : Prop :=
  ∃ before word rest, draft.glyphs = before ++ word ++ rest ∧ word ≠ [] ∧
    word.map Glyph.char = token.text.toList ∧
    token.span = ⟨⟨draft.originOf (word ++ rest), file⟩, ⟨draft.originOf rest, file⟩⟩

theorem Marks.file_eq {draft : Draft} (marks : draft.Marks file token) :
    token.span.start.file = file ∧ token.span.stop.file = file := by
  rcases marks with ⟨_, _, _, _, _, _, span_eq⟩
  rw [span_eq]
  exact ⟨rfl, rfl⟩

/-- What was written from the start of a token to its end comes to the text of the token. -/
theorem Marks.exists_slice (marks : (ofText text).Marks file token) :
    ∃ slice, IsSlice text token.span.start.offset token.span.stop.offset slice ∧ slice ≠ [] ∧
      (ofText slice).text = token.text.toList := by
  rcases marks with ⟨before, word, rest, glyphs, word_ne, text_eq, span_eq⟩
  rcases Draft.exists_slice glyphs word_ne with ⟨slice, isSlice, comes⟩
  refine ⟨slice, span_eq ▸ isSlice, ?_, comes.trans text_eq⟩
  rintro rfl
  exact word_ne (List.map_eq_nil_iff.mp comes.symm)

theorem Marks.forward (marks : (ofText text).Marks file token) :
    token.span.start.offset < token.span.stop.offset := by
  rcases marks.exists_slice with ⟨slice, isSlice, slice_ne, _⟩
  rw [isSlice.stop_eq]
  exact Nat.lt_add_of_pos_right (byteSize_pos slice_ne)

/-- Lexemes that make up what is kept from some character on are placed in order from there. -/
theorem place_marks {before glyphs : List Glyph} {lexemes : List Lexeme}
    (short : byteSize text < Position.offsetLimit)
    (kept : (ofText text).glyphs = before ++ glyphs)
    (covers : (lexemes.map Lexeme.text).flatten = glyphs.map Glyph.char)
    (notEmpty : ∀ lexeme ∈ lexemes, lexeme.text ≠ []) :
    (∀ token ∈ (ofText text).place file glyphs lexemes, (ofText text).Marks file token ∧
      (ofText text).originOf glyphs ≤ token.span.start.offset) ∧
    ((ofText text).place file glyphs lexemes).Pairwise fun first second =>
      first.span.stop.offset ≤ second.span.start.offset := by
  induction lexemes generalizing before glyphs with
  | nil => simp [place]
  | cons lexeme others ih =>
      rcases List.forall_mem_cons.mp notEmpty with ⟨lexeme_ne, others_ne⟩
      rw [List.map_cons, List.flatten_cons] at covers
      rcases List.map_eq_append_iff.mp covers.symm with ⟨word, rest, rfl, word_eq, rest_eq⟩
      have dropped : (word ++ rest).drop lexeme.text.length = rest := by
        rw [← word_eq, List.length_map, List.drop_left]
      have parts : (ofText text).glyphs = before ++ word ++ rest := by
        rw [List.append_assoc, kept]
      rcases ih parts rest_eq.symm others_ne with ⟨marked, ordered⟩
      have later : ∀ token ∈ (ofText text).place file rest others,
          (ofText text).Marks file token ∧
            (ofText text).originOf (word ++ rest) ≤ token.span.start.offset := by
        intro token found
        exact ⟨(marked token found).1, Nat.le_trans (originOf_le parts) (marked token found).2⟩
      simp only [place, dropped, ofByte_originOf short kept, ofByte_originOf short parts]
      cases lexeme.kind with
      | none => exact ⟨later, ordered⟩
      | some kind =>
          have marks : (ofText text).Marks file ⟨kind, String.ofList lexeme.text,
              ⟨(ofText text).originOf (word ++ rest), file⟩,
              ⟨(ofText text).originOf rest, file⟩⟩ := by
            refine ⟨before, word, rest, parts, ?_, ?_, rfl⟩
            · rintro rfl
              exact lexeme_ne word_eq.symm
            · rw [word_eq, String.toList_ofList]
          refine ⟨List.forall_mem_cons.mpr ⟨⟨marks, Nat.le_refl _⟩, later⟩, ?_⟩
          refine List.pairwise_cons.mpr ⟨fun token found => ?_, ordered⟩
          exact (marked token found).2

end Draft

theorem tokenize_of_clean {source : String} {lexemes : List Lexeme} (file : String)
    (clean : '\x08' ∉ source.toList) (divided : Lexeme.split source.toList = .ok lexemes) :
    tokenize source file = .ok (Lexeme.laid file 0 lexemes) := by
  have covers := (Lexeme.flatten_split divided).1
  have placed := @Draft.place_of_clean _ file _ _ _ clean (List.nil_append _).symm covers
  rw [tokenize, Draft.tokens, Draft.text_ofText_of_clean clean, divided]
  exact congrArg Except.ok placed

/-- The tokens of a text stand in it one after the other. -/
theorem tokenize_marks {source file : String} {tokens : List Token}
    (short : Source.byteSize source.toList < Position.offsetLimit)
    (tokenized : tokenize source file = .ok tokens) :
    (∀ token ∈ tokens, (Draft.ofText source.toList).Marks file token) ∧
    tokens.Pairwise fun first second => first.span.stop.offset ≤ second.span.start.offset := by
  unfold tokenize Draft.tokens at tokenized
  split at tokenized
  · cases tokenized
  rename_i lexemes divided
  cases tokenized
  rcases Lexeme.flatten_split divided with ⟨covers, notEmpty⟩
  rcases Draft.place_marks short (List.nil_append _).symm covers notEmpty with ⟨marked, ordered⟩
  exact ⟨fun token found => (marked token found).1, ordered⟩

/-- Each token of a text that offsets can tell starts and ends between characters of the text as it
was written, what was written from its start to its end comes to the text of the token once the
backspaces in it have been applied, and it ends before the next one starts. -/
theorem tokenize_spans {source file : String} {tokens : List Token}
    (short : Source.byteSize source.toList < Position.offsetLimit)
    (tokenized : tokenize source file = .ok tokens) :
    (∀ token ∈ tokens,
      token.span.start.file = file ∧ token.span.stop.file = file ∧
      Source.IsBoundary source.toList token.span.start.offset ∧
      Source.IsBoundary source.toList token.span.stop.offset ∧
      token.span.stop.offset ≤ Source.byteSize source.toList ∧
      token.span.start.offset < token.span.stop.offset ∧
      ∃ slice, Source.IsSlice source.toList token.span.start.offset token.span.stop.offset slice ∧
        (Draft.ofText slice).text = token.text.toList ∧
        ('\x08' ∉ slice → slice = token.text.toList)) ∧
    tokens.Pairwise fun first second => first.span.stop.offset ≤ second.span.start.offset := by
  rcases tokenize_marks short tokenized with ⟨marked, ordered⟩
  refine ⟨fun token found => ?_, ordered⟩
  have marks := marked token found
  rcases marks.file_eq with ⟨start_file, stop_file⟩
  rcases marks.exists_slice with ⟨slice, isSlice, _, comes⟩
  refine ⟨start_file, stop_file, isSlice.start_boundary, isSlice.stop_boundary,
    isSlice.stop_boundary.le, marks.forward, slice, isSlice, comes, fun clean => ?_⟩
  rw [← comes, Draft.text_ofText_of_clean clean]

/-- A name is kept of `al+\bb`, after a backspace with nothing to take back and one that takes back
a character of two bytes. -/
theorem tokenize_spans_erased :
    ∃ name number, tokenize "\x08é\x08al+\x08b 1\x082" "" = .ok [name, number] ∧
      name.text = "alb" ∧ name.span = ⟨⟨4, ""⟩, ⟨9, ""⟩⟩ ∧
      number.text = "2" ∧ number.span = ⟨⟨12, ""⟩, ⟨13, ""⟩⟩ ∧
      name.span.stop.offset ≤ number.span.start.offset ∧
      ∃ slice, Source.IsSlice "\x08é\x08al+\x08b 1\x082".toList 4 9 slice ∧
        (Draft.ofText slice).text = "alb".toList := by
  have evaluated : (tokenize "\x08é\x08al+\x08b 1\x082" "").toOption =
      some [⟨.identifier, "alb", ⟨4, ""⟩, ⟨9, ""⟩⟩, ⟨.integer, "2", ⟨12, ""⟩, ⟨13, ""⟩⟩] := by
    decide +kernel
  cases tokenized : tokenize "\x08é\x08al+\x08b 1\x082" "" with
  | error diagnostic =>
      rw [tokenized] at evaluated
      cases evaluated
  | ok tokens =>
      rcases tokenize_spans (by decide) tokenized with ⟨stand, ordered⟩
      rw [tokenized] at evaluated
      cases evaluated
      rcases stand _ List.mem_cons_self with ⟨_, _, _, _, _, _, slice, isSlice, comes, _⟩
      refine ⟨_, _, rfl, rfl, rfl, rfl, rfl, ?_, slice, isSlice, comes⟩
      exact (List.pairwise_cons.mp ordered).1 _ List.mem_cons_self

end GradualScript
