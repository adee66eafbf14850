import GradualScript.Proofs.Grammar.Steps
import GradualScript.Proofs.Program.Places
import GradualScript.Text.Unquote

/-!
# What parsing steps can come to

A parsing step either gives a value and leaves the last of the tokens that were ahead, or reports
something at a place that it has from the tokens, or stops at a literal whose quotes cannot be taken
off. It never runs out of budget: repetitions and nesting pass a token each, and the budget is
larger than the number of tokens.

`Parse.Safe` puts this together with what is known of the value, in the form that chains of steps
need: a bound on the tokens ahead for which it holds, and the least number of tokens that the step
passes.
-/

namespace GradualScript

/-- Whether a token stands at certain places. -/
def Token.Within (places : Position → Prop) (token : Token) : Prop :=
  places token.span.start ∧ places token.span.stop

/-- Whether the quotes of a literal cannot be taken off without cutting through a character. -/
def Token.Splits (token : Token) : Prop :=
  (token.kind = .string ∨ token.kind = .character) ∧ Text.unquote? token.text.toList = none

/-- Whether all tokens of a cursor, and the start of its text, are at certain places. -/
structure Cursor.Within (places : Position → Prop) (cursor : Cursor) : Prop where
  passed : ∀ token ∈ cursor.passed, token.Within places
  ahead : ∀ token ∈ cursor.ahead, token.Within places
  origin : places ⟨0, cursor.file⟩

namespace Cursor

variable {places : Position → Prop} {cursor : Cursor}

theorem Within.endOfTokens (within : cursor.Within places) : places cursor.endOfTokens := by
  unfold Cursor.endOfTokens
  split
  · rename_i token found
    rw [Option.orElse_eq_orElse, Option.orElse_eq_or] at found
    rcases Option.or_eq_some_iff.mp found with last | ⟨_, first⟩
    · exact (within.ahead token (List.mem_of_getLast? last)).2
    · exact (within.passed token (List.mem_of_mem_head? first)).2
  · exact within.origin

theorem Within.position (within : cursor.Within places) : places cursor.position := by
  unfold Cursor.position
  split
  · rename_i token rest ahead
    exact (within.ahead token (by simp [ahead])).1
  · exact within.endOfTokens

theorem Within.skip (within : cursor.Within places) (count : Nat) :
    (cursor.skip count).Within places ∧ (cursor.skip count).ahead <:+ cursor.ahead := by
  induction count generalizing cursor with
  | zero => exact ⟨within, List.suffix_rfl⟩
  | succ count ih =>
      unfold Cursor.skip
      split
      · exact ⟨within, List.suffix_rfl⟩
      · rename_i token rest ahead
        have first := within.ahead
        rw [ahead] at first
        rcases List.forall_mem_cons.mp first with ⟨token_within, rest_within⟩
        have moved : Within places ⟨token :: cursor.passed, rest, cursor.file⟩ :=
          ⟨List.forall_mem_cons.mpr ⟨token_within, within.passed⟩, rest_within, within.origin⟩
        rcases ih moved with ⟨skipped, suffix⟩
        refine ⟨skipped, ?_⟩
        rw [ahead]
        exact suffix.trans (List.suffix_cons token rest)

end Cursor

namespace Parse

variable {α β : Type} {places : Position → Prop} {bound least : Nat} {good : α → Prop}

/-- What a step that starts at a cursor may come to. -/
inductive Lands (places : Position → Prop) (least : Nat) (good : α → Prop) (cursor : Cursor) :
    EStateM.Result Halt Cursor α → Prop
  | ok {value : α} {after : Cursor} (within : after.Within places)
      (suffix : after.ahead <:+ cursor.ahead)
      (shorter : after.ahead.length + least ≤ cursor.ahead.length) (holds : good value) :
      Lands places least good cursor (.ok value after)
  | error {halt : Halt} {after : Cursor} (blames : halt.Blames .parsing places) :
      Lands places least good cursor (.error halt after)
  | severed {token : Token} {after : Cursor} (member : token ∈ cursor.ahead)
      (splits : token.Splits) : Lands places least good cursor (.error .severed after)

/-- Whether a step, at cursors with fewer than `bound` tokens ahead, gives a good value after at
least `least` tokens, or else reports something at a place or finds a literal that it cannot cut. -/
def Safe (places : Position → Prop) (bound least : Nat) (step : Parse α) (good : α → Prop) :
    Prop :=
  ∀ cursor : Cursor, cursor.Within places → cursor.ahead.length < bound →
    Lands places least good cursor (step cursor)

theorem Lands.mono {fewer : Nat} {weaker : α → Prop} {earlier cursor : Cursor}
    {result : EStateM.Result Halt Cursor α} (lands : Lands places least good cursor result)
    (later : cursor.ahead <:+ earlier.ahead)
    (leasts : cursor.ahead.length + fewer ≤ earlier.ahead.length + least)
    (implies : ∀ value, good value → weaker value) : Lands places fewer weaker earlier result := by
  cases lands with
  | ok within suffix shorter holds =>
      exact .ok within (suffix.trans later) (by omega) (implies _ holds)
  | error blames => exact .error blames
  | severed member splits => exact .severed (later.subset member) splits

/-- A safe step passes as many tokens as it says. -/
theorem Safe.passes {step : Parse α} {cursor after : Cursor} {value : α}
    (safe : Safe (fun _ => True) bound least step good) (inside : cursor.ahead.length < bound)
    (ran : step cursor = .ok value after) : after.ahead.length + least ≤ cursor.ahead.length := by
  have within : cursor.Within fun _ => True :=
    ⟨fun _ _ => ⟨trivial, trivial⟩, fun _ _ => ⟨trivial, trivial⟩, trivial⟩
  have lands := safe cursor within inside
  rw [ran] at lands
  cases lands with
  | ok _ _ shorter _ => exact shorter

/-- A safe step leaves the last of the tokens that were ahead. -/
theorem Safe.leaves {step : Parse α} {cursor after : Cursor} {value : α}
    (safe : ∀ bound, Safe (fun _ => True) bound least step good)
    (ran : step cursor = .ok value after) : after.ahead <:+ cursor.ahead := by
  have within : cursor.Within fun _ => True :=
    ⟨fun _ _ => ⟨trivial, trivial⟩, fun _ _ => ⟨trivial, trivial⟩, trivial⟩
  have lands := safe _ cursor within (Nat.lt_succ_self _)
  rw [ran] at lands
  cases lands with
  | ok _ suffix _ _ => exact suffix

theorem Safe.shorter {step : Parse α} {cursor after : Cursor} {value : α}
    (safe : ∀ bound, Safe (fun _ => True) bound least step good)
    (ran : step cursor = .ok value after) : after.ahead.length + least ≤ cursor.ahead.length :=
  (safe _).passes (Nat.lt_succ_self _) ran

namespace Safe

theorem mono {smaller fewer : Nat} {weaker : α → Prop} {step : Parse α}
    (safe : Safe places bound least step good) (bounds : smaller ≤ bound) (leasts : fewer ≤ least)
    (implies : ∀ value, good value → weaker value) : Safe places smaller fewer step weaker := by
  intro cursor within inside
  exact (safe cursor within (by omega)).mono List.suffix_rfl (by omega) implies

theorem narrow {smaller : Nat} {step : Parse α} (safe : Safe places bound least step good)
    (bounds : smaller ≤ bound) : Safe places smaller least step good :=
  safe.mono bounds (Nat.le_refl _) fun _ holds => holds

theorem fewer {step : Parse α} (safe : Safe places bound least step good) :
    Safe places bound 0 step good :=
  safe.mono (Nat.le_refl _) (Nat.zero_le _) fun _ holds => holds

theorem pure {value : α} (holds : good value) :
    Safe places bound 0 (Pure.pure value : Parse α) good := by
  intro cursor within _
  exact .ok within List.suffix_rfl (Nat.le_refl _) holds

theorem bind {other : β → Prop} {step : Parse α} {next : α → Parse β}
    (first : Safe places bound least step good)
    (rest : ∀ value, good value → Safe places (bound - least) 0 (next value) other) :
    Safe places bound least (step >>= next) other := by
  intro cursor within inside
  have landed := first cursor within inside
  change Lands places least other cursor (EStateM.bind step next cursor)
  unfold EStateM.bind
  generalize step cursor = result at landed ⊢
  cases landed with
  | error blames => exact .error blames
  | severed member splits => exact .severed member splits
  | ok middle suffix shorter holds =>
      exact (rest _ holds _ middle (by omega)).mono suffix (by omega) fun _ otherHolds => otherHolds

/-- Two steps, where it does not matter how many tokens they pass. -/
theorem seq {other : β → Prop} {step : Parse α} {next : α → Parse β}
    (first : Safe places bound least step good)
    (rest : ∀ value, good value → Safe places (bound - least) 0 (next value) other) :
    Safe places bound 0 (step >>= next) other :=
  (first.bind rest).fewer

/-- A step after a look at the cursor. -/
theorem look {next : Cursor → Parse α}
    (each : ∀ cursor : Cursor, cursor.Within places → Safe places bound least (next cursor) good) :
    Safe places bound least (get >>= next) good := by
  intro cursor within inside
  exact each cursor within cursor within inside

theorem ite {condition : Prop} [Decidable condition] {left right : Parse α}
    (leftSafe : Safe places bound least left good)
    (rightSafe : Safe places bound least right good) :
    Safe places bound least (if condition then left else right) good := by
  split
  · exact leftSafe
  · exact rightSafe

theorem report {cause : Cause} {position : Position} (parsing : cause.phase = .parsing)
    (placed : places position) :
    Safe places bound least (Parse.report (.located cause position) : Parse α) good := by
  intro cursor _ _
  exact .error ⟨cause, position, rfl, parsing, placed⟩

theorem fail (message : String) : Safe places bound least (Parse.fail message : Parse α) good := by
  refine look fun cursor within => ?_
  unfold Cursor.mismatch
  split
  · rename_i token rest ahead
    exact report rfl (within.ahead token (by simp [ahead])).1
  · exact report rfl within.endOfTokens

theorem skip (count : Nat) {step : Parse α} (safe : Safe places bound least step good) :
    Safe places bound least (modify (·.skip count) >>= fun _ => step) good := by
  intro cursor within inside
  rcases within.skip count with ⟨skipped, suffix⟩
  have shorter := suffix.length_le
  exact (safe _ skipped (by omega)).mono suffix (by omega) fun _ holds => holds

theorem next : Safe places bound 1 Parse.next (Token.Within places) := by
  intro cursor within inside
  rcases cursor with ⟨passed, _ | ⟨token, rest⟩, file⟩
  · exact fail "a token" _ within inside
  · rcases within.skip 1 with ⟨skipped, suffix⟩
    exact .ok skipped suffix (by simp [Cursor.skip]) (within.ahead token (by simp))

theorem require (text : String) : Safe places bound 1 (Parse.require text) (Token.Within places) :=
  look fun _ _ => ite next (fail _)

theorem requireKind (kind : TokenKind) (message : String) :
    Safe places bound 1 (Parse.requireKind kind message) (Token.Within places) :=
  look fun _ _ => ite next (fail message)

theorem typeName : Safe places bound 1 Parse.typeName fun _ => True :=
  (requireKind _ _).bind fun _ _ => pure trivial

theorem spanSince {start : Position} (placed : places start) :
    Safe places bound 0 (Parse.spanSince start) fun span => places span.start := by
  refine look fun cursor _ => pure ?_
  unfold Cursor.spanSince
  split <;> exact placed

/-- A choice by the next token, which is passed in one case. -/
theorem accept {text : String} {yes no : Parse α}
    (yesSafe : Safe places (bound - 1) least yes good) (noSafe : Safe places bound least no good) :
    Safe places bound least (Parse.accept text >>= fun found => if found then yes else no)
      good := by
  intro cursor within inside
  have bind_eq : (Parse.accept text >>= fun found => if found then yes else no) cursor =
      if cursor.isAt text then yes (cursor.skip 1) else no cursor := by
    change EStateM.bind _ _ cursor = _
    rw [EStateM.bind, accept_eq]
    cases cursor.isAt text <;> rfl
  rw [bind_eq]
  split
  · rename_i found
    rcases cursor with ⟨passed, _ | ⟨token, rest⟩, file⟩
    · cases found
    · rcases within.skip 1 with ⟨skipped, suffix⟩
      simp only [Cursor.skip, List.length_cons] at skipped suffix inside ⊢
      refine (yesSafe _ skipped (by simp only; omega)).mono suffix ?_ fun _ holds => holds
      simp only [List.length_cons]
      omega
  · exact noSafe cursor within inside

theorem optional {step : Parse α} (safe : Safe places bound least step good) :
    Safe places bound least (some <$> step) fun found => ∀ value ∈ found, good value := by
  refine bind safe fun value holds => pure ?_
  simpa using holds

theorem onlyAfter {text : String} {step : Parse α} (safe : Safe places (bound - 1) 0 step good) :
    Safe places bound 0 (Parse.onlyAfter text step) fun found => ∀ value ∈ found, good value := by
  exact accept safe.optional (pure (by simp))

/-- The number of steps that a repetition may take is larger than the number of tokens ahead. -/
theorem bounded {step : Nat → Parse α}
    (each : ∀ budget, Safe places (min bound budget) least (step budget) good) :
    Safe places bound least (Parse.bounded step) good := by
  intro cursor within inside
  exact each (cursor.ahead.length + 1) cursor within (by omega)

theorem exhausted {step : Parse α} (none : bound = 0) : Safe places bound least step good := by
  intro cursor _ inside
  omega

theorem separatedWithin {item : Parse α} (safe : Safe places bound 0 item good) (budget : Nat) :
    Safe places (min bound budget) 0 (Parse.separatedWithin item budget) fun items =>
      ∀ value ∈ items, good value := by
  induction budget with
  | zero => exact exhausted (by omega)
  | succ budget ih =>
      have head : Safe places (min bound (budget + 1)) 0 item good := safe.narrow (by omega)
      have tail := ih.narrow (show min bound (budget + 1) - 0 - 1 ≤ min bound budget by omega)
      refine head.seq fun first holds => accept ?_ (pure (by simpa using holds))
      refine tail.seq fun rest hold => pure ?_
      exact List.forall_mem_cons.mpr ⟨holds, hold⟩

theorem itemsUntil {closer : String} {item : Parse α} (safe : Safe places bound 0 item good) :
    Safe places bound 0 (Parse.itemsUntil closer item) fun items =>
      ∀ value ∈ items, good value := by
  have close (items : List α) (hold : ∀ value ∈ items, good value) :
      Safe places bound 0 (Parse.require closer >>= fun _ => Pure.pure items) fun items =>
        ∀ value ∈ items, good value :=
    (Safe.require closer).seq fun _ _ => pure hold
  have empty : Safe places bound 0 (Pure.pure [] : Parse (List α)) fun items =>
      ∀ value ∈ items, good value := pure (by simp)
  exact look fun cursor _ => ite (empty.seq close) ((bounded (separatedWithin safe)).seq close)

theorem whileAtWithin {starts : List String} {item : Parse α}
    (safe : Safe places bound 1 item good) (budget : Nat) :
    Safe places (min bound budget) 0 (Parse.whileAtWithin starts item budget) fun items =>
      ∀ value ∈ items, good value := by
  induction budget with
  | zero => exact exhausted (by omega)
  | succ budget ih =>
      refine look fun cursor _ => ite ?_ (pure (by simp))
      have head : Safe places (min bound (budget + 1)) 1 item good := safe.narrow (by omega)
      have tail := ih.narrow (show min bound (budget + 1) - 1 ≤ min bound budget by omega)
      refine head.seq fun first holds => tail.seq fun rest hold => pure ?_
      exact List.forall_mem_cons.mpr ⟨holds, hold⟩

end Safe

end Parse

end GradualScript
