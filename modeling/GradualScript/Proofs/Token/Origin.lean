import GradualScript.Proofs.Grammar.Progress
import GradualScript.Proofs.Program.Places
import GradualScript.Proofs.Source.Line
import GradualScript.Token.Tokenize

/-!
# Where tokens come from

Every kept character was written somewhere in the text, so every place that reading a text into
tokens speaks of lies in the text: where a token starts and ends, and where a literal cannot be
read.
-/

namespace GradualScript

/-- Whether a place is in the source text called `file`, or just past its end. -/
structure Position.Inside (source file : String) (position : Position) : Prop where
  file_eq : position.file = file
  offset_le : position.offset ≤ Source.byteSize source.toList

theorem Position.Inside.ofByte {source file : String} {index : Nat}
    (fits : index ≤ Source.byteSize source.toList) :
    (Position.ofByte index file).Inside source file :=
  ⟨rfl, Nat.le_trans (offset_ofByte_le _ _) fits⟩

namespace Draft

/-- What is kept was written in what has been read. -/
theorem origin_le_of_mem_keep {text : List Char} {offset : Nat} {kept : List Glyph}
    (earlier : ∀ glyph ∈ kept, glyph.origin ≤ offset) {glyph : Glyph}
    (found : glyph ∈ keep offset kept text) :
    glyph.origin ≤ offset + Source.byteSize text := by
  induction text generalizing offset kept with
  | nil => exact earlier glyph (List.mem_reverse.mp found)
  | cons c rest ih =>
      rw [Source.byteSize_cons, ← Nat.add_assoc]
      unfold keep at found
      split at found
      · refine ih (fun other mem => ?_) found
        exact Nat.le_add_right_of_le (earlier other (List.mem_of_mem_tail mem))
      · refine ih (fun other mem => ?_) found
        rcases List.mem_cons.mp mem with rfl | mem
        · exact Nat.le_add_right _ _
        · exact Nat.le_add_right_of_le (earlier other mem)

variable {draft : Draft} {glyphs : List Glyph}

/-- Whether all that is kept was written in the text. -/
def Bounded (draft : Draft) : Prop :=
  ∀ glyph ∈ draft.glyphs, glyph.origin ≤ draft.writtenSize

theorem ofText_bounded (text : List Char) : (ofText text).Bounded := by
  intro glyph found
  have bound := origin_le_of_mem_keep (by simp) found
  rwa [Nat.zero_add] at bound

theorem Bounded.originOf_le (bounded : draft.Bounded) (suffix : glyphs <:+ draft.glyphs) :
    draft.originOf glyphs ≤ draft.writtenSize := by
  cases glyphs with
  | nil => exact Nat.le_refl _
  | cons glyph others => exact bounded glyph (suffix.mem (List.mem_cons_self ..))

theorem Bounded.place_within {places : Position → Prop} {file : String} (bounded : draft.Bounded)
    (inside : ∀ index ≤ draft.writtenSize, places (.ofByte index file))
    (suffix : glyphs <:+ draft.glyphs) (lexemes : List Lexeme) :
    ∀ token ∈ draft.place file glyphs lexemes, token.Within places := by
  induction lexemes generalizing glyphs with
  | nil => simp [place]
  | cons lexeme others ih =>
      have later : glyphs.drop lexeme.text.length <:+ draft.glyphs :=
        (List.drop_suffix _ _).trans suffix
      unfold place
      cases lexeme.kind with
      | none => exact ih later
      | some kind =>
          intro token found
          rcases List.mem_cons.mp found with rfl | found
          · exact ⟨inside _ (bounded.originOf_le suffix), inside _ (bounded.originOf_le later)⟩
          · exact ih later token found

end Draft

/-! ## Literals that cannot be read -/

namespace Lexeme

variable {α β : Type}

/-- Whether nothing but lexing is to blame where reading a text fails. -/
def Lexical : Except Slip α → Prop
  | .ok _ => True
  | .error slip => slip.cause.phase = .lexing

theorem Lexical.map {outcome : Except Slip α} (lexical : Lexical outcome) (f : α → β) :
    Lexical (outcome.map f) := by
  cases outcome with
  | ok value => trivial
  | error slip => exact lexical

theorem stringEnd_lexical (passed : Nat) (text : List Char) : Lexical (stringEnd passed text) := by
  fun_induction stringEnd passed text with
  | case1 | case2 | case4 | case6 => rfl
  | case5 => trivial
  | case3 | case7 => assumption

theorem closeCharacter_lexical (passed : Nat) (text : List Char) :
    Lexical (closeCharacter passed text) := by
  fun_cases closeCharacter passed text with
  | case1 | case3 => rfl
  | case2 => trivial

theorem characterEnd_lexical (text : List Char) : Lexical (characterEnd text) := by
  fun_cases characterEnd text with
  | case1 | case2 | case4 | case5 | case6 => rfl
  | case3 | case7 => exact closeCharacter_lexical _ _

theorem number_lexical (sign : Nat) (text : List Char) : Lexical (number sign text) := by
  fun_cases number sign text with
  | case1 => rfl
  | case2 => trivial

theorem measure_lexical (c : Char) (rest : List Char) : Lexical (measure c rest) := by
  fun_cases measure c rest with
  | case3 | case4 => exact number_lexical _ _
  | case5 => exact (stringEnd_lexical 1 rest).map _
  | case6 => exact (characterEnd_lexical rest).map _
  | _ => trivial

theorem split_lexical (text : List Char) : Lexical (split text) := by
  fun_induction split text with
  | case1 | case4 => trivial
  | case2 c rest slip failed =>
      have lexical := measure_lexical c rest
      rwa [failed] at lexical
  | case3 c rest kind length measured slip failed lexical => rwa [failed] at lexical

end Lexeme

/-! ## Whole texts -/

variable {source file : String}

/-- The tokens of a text stand in it. -/
theorem tokenize_within {tokens : List Token} (tokenized : tokenize source file = .ok tokens) :
    ∀ token ∈ tokens, token.Within (Position.Inside source file) := by
  unfold tokenize Draft.tokens at tokenized
  split at tokenized
  · cases tokenized
  · cases tokenized
    exact (Draft.ofText_bounded _).place_within (fun _ => .ofByte) List.suffix_rfl _

/-- A text that has no tokens has a literal in it that cannot be read. -/
theorem tokenize_blames {diagnostic : Diagnostic}
    (failed : tokenize source file = .error diagnostic) :
    (Halt.reported diagnostic).Blames .lexing (Position.Inside source file) := by
  unfold tokenize Draft.tokens at failed
  split at failed
  · rename_i slip unread
    cases failed
    have lexical := Lexeme.split_lexical (Draft.ofText source.toList).text
    rw [unread] at lexical
    refine ⟨_, _, rfl, lexical, .ofByte ?_⟩
    exact (Draft.ofText_bounded _).originOf_le (List.drop_suffix _ _)
  · cases failed

end GradualScript
