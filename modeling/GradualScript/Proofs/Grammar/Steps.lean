import GradualScript.Grammar.Parse

/-!
# When single steps succeed

For each of the steps that parsers are made of, when it succeeds, with what value, and where it
leaves the cursor.
-/

namespace GradualScript

namespace Cursor

theorem exists_of_isAt {cursor : Cursor} {text : String} (isAt : cursor.isAt text = true) :
    ∃ token rest, cursor.ahead = token :: rest ∧ token.reads text = true := by
  rcases cursor with ⟨passed, _ | ⟨token, rest⟩, file⟩
  · cases isAt
  · exact ⟨token, rest, rfl, isAt⟩

end Cursor

namespace Parse

variable {α β : Type} {cursor after : Cursor}

theorem pure_eq_ok_iff {value result : α} :
    (pure value : Parse α) cursor = .ok result after ↔ value = result ∧ cursor = after := by
  change EStateM.Result.ok value cursor = .ok result after ↔ _
  rw [EStateM.Result.ok.injEq]

theorem look_apply (next : Cursor → Parse α) (cursor : Cursor) :
    (get >>= next) cursor = next cursor cursor :=
  rfl

theorem look_eq_ok_iff {next : Cursor → Parse α} {result : α} :
    (get >>= next) cursor = .ok result after ↔ next cursor cursor = .ok result after :=
  .rfl

theorem bind_eq_ok_iff {step : Parse α} {next : α → Parse β} {result : β} :
    (step >>= next) cursor = .ok result after ↔
      ∃ value middle, step cursor = .ok value middle ∧ next value middle = .ok result after := by
  change EStateM.bind step next cursor = _ ↔ _
  unfold EStateM.bind
  cases step cursor with
  | ok value middle =>
      constructor
      · intro ran
        exact ⟨value, middle, rfl, ran⟩
      · rintro ⟨_, _, same, ran⟩
        cases same
        exact ran
  | error halt middle => simp

theorem map_eq_ok_iff {change : α → β} {step : Parse α} {result : β} :
    (change <$> step) cursor = .ok result after ↔
      ∃ value, step cursor = .ok value after ∧ change value = result := by
  change EStateM.map change step cursor = _ ↔ _
  unfold EStateM.map
  cases step cursor with
  | ok value middle =>
      simp only [EStateM.Result.ok.injEq]
      constructor
      · rintro ⟨rfl, rfl⟩
        exact ⟨value, ⟨rfl, rfl⟩, rfl⟩
      · rintro ⟨_, ⟨rfl, rfl⟩, same⟩
        exact ⟨same, rfl⟩
  | error halt middle => simp

theorem next_eq_ok_iff {token : Token} :
    next cursor = .ok token after ↔
      ∃ rest, cursor.ahead = token :: rest ∧
        after = ⟨token :: cursor.passed, rest, cursor.file⟩ := by
  rcases cursor with ⟨passed, _ | ⟨first, rest⟩, file⟩
  · constructor
    · intro ran
      cases ran
    · simp
  · constructor
    · intro ran
      cases ran
      exact ⟨rest, rfl, rfl⟩
    · rintro ⟨_, same, rfl⟩
      cases same
      rfl

theorem guarded_eq_ok_iff {condition : Prop} [Decidable condition] {step : Parse α}
    {message : String} {result : α} :
    (if condition then step else fail message) cursor = .ok result after ↔
      condition ∧ step cursor = .ok result after := by
  split
  · rename_i holds
    simp [holds]
  · rename_i fails
    refine ⟨fun ran => ?_, fun both => absurd both.1 fails⟩
    cases ran

theorem require_eq_ok_iff {text : String} {token : Token} :
    require text cursor = .ok token after ↔
      ∃ rest, cursor.ahead = token :: rest ∧ token.reads text = true ∧
        after = ⟨token :: cursor.passed, rest, cursor.file⟩ := by
  rw [require, look_eq_ok_iff, guarded_eq_ok_iff, next_eq_ok_iff]
  constructor
  · rintro ⟨isAt, rest, ahead, rfl⟩
    exact ⟨rest, ahead, by simpa [Cursor.isAt, ahead] using isAt, rfl⟩
  · rintro ⟨rest, ahead, reads, rfl⟩
    exact ⟨by simpa [Cursor.isAt, ahead] using reads, rest, ahead, rfl⟩

theorem requireKind_eq_ok_iff {kind : TokenKind} {message : String} {token : Token} :
    requireKind kind message cursor = .ok token after ↔
      ∃ rest, cursor.ahead = token :: rest ∧ token.kind = kind ∧
        after = ⟨token :: cursor.passed, rest, cursor.file⟩ := by
  rw [requireKind, look_eq_ok_iff, guarded_eq_ok_iff, next_eq_ok_iff]
  constructor
  · rintro ⟨isAt, rest, ahead, rfl⟩
    exact ⟨rest, ahead, by simpa [Cursor.isAtKind, ahead] using isAt, rfl⟩
  · rintro ⟨rest, ahead, isKind, rfl⟩
    exact ⟨by simpa [Cursor.isAtKind, ahead] using isKind, rest, ahead, rfl⟩

theorem typeName_eq_ok_iff {name : String} :
    typeName cursor = .ok name after ↔
      ∃ token rest, cursor.ahead = token :: rest ∧ token.kind = .identifier ∧ name = token.text ∧
        after = ⟨token :: cursor.passed, rest, cursor.file⟩ := by
  simp only [typeName, bind_eq_ok_iff, requireKind_eq_ok_iff, pure_eq_ok_iff]
  constructor
  · rintro ⟨token, _, ⟨rest, ahead, isName, rfl⟩, rfl, rfl⟩
    exact ⟨token, rest, ahead, isName, rfl, rfl⟩
  · rintro ⟨token, rest, ahead, isName, rfl, rfl⟩
    exact ⟨token, _, ⟨rest, ahead, isName, rfl⟩, rfl, rfl⟩

theorem spanSince_eq_ok_iff {start : Position} {span : Span} :
    spanSince start cursor = .ok span after ↔ cursor.spanSince start = span ∧ cursor = after := by
  rw [spanSince, look_eq_ok_iff, pure_eq_ok_iff]

theorem accept_eq (text : String) (cursor : Cursor) :
    accept text cursor =
      if cursor.isAt text then .ok true (cursor.skip 1) else .ok false cursor := by
  change (if cursor.isAt text then modify (·.skip 1) >>= fun _ => pure true
    else pure false : Parse Bool) cursor = _
  split <;> rfl

/-- A choice by the next token, which is passed in one case. -/
theorem accept_eq_ok_iff {text : String} {yes no : Parse α} {result : α} :
    (accept text >>= fun found => if found then yes else no) cursor = .ok result after ↔
      (∃ token rest, cursor.ahead = token :: rest ∧ token.reads text = true ∧
        yes ⟨token :: cursor.passed, rest, cursor.file⟩ = .ok result after) ∨
      cursor.isAt text = false ∧ no cursor = .ok result after := by
  rw [bind_eq_ok_iff, accept_eq]
  rcases cursor with ⟨passed, _ | ⟨token, rest⟩, file⟩
  · simp [Cursor.isAt]
  · cases reads : token.reads text with
    | false => simp [Cursor.isAt, reads]
    | true =>
        simp only [Cursor.isAt, List.head?_cons, Option.any_some, reads, if_true, Cursor.skip,
          List.cons.injEq, Bool.true_eq_false, false_and, or_false]
        constructor
        · rintro ⟨_, _, same, ran⟩
          cases same
          exact ⟨token, rest, ⟨rfl, rfl⟩, reads, ran⟩
        · rintro ⟨_, _, ⟨rfl, rfl⟩, _, ran⟩
          exact ⟨true, _, rfl, ran⟩

end Parse

end GradualScript
