import GradualScript.Grammar.Expression
import GradualScript.Proofs.Grammar.Unrolling
import GradualScript.Proofs.Grammar.Written

/-!
# How far a parsing step looks ahead

A step that meets a token it does not expect has passed tokens that could all have been passed in a
good text, and it has not looked past the token that it met. `Parse.Foresees` says this of a step in
the form that chains of steps need, with the tokens that the step can be completed in front of:

* a step that reads something reads the same whatever comes behind, if the next token stays the same
  or may follow the step;
* a step that gets stuck gets stuck in the same way wherever the same token is met, and from the
  tokens that it passed it can be brought to an end;
* from no token at all it can be brought to an end too, in a way that may come after the step
  before.

So a chain of steps in which each may come after the one before has foresight as a whole.
-/

namespace GradualScript

/-- Whether the grammar has met a token, or the end, that it does not expect. -/
def Cause.isUnexpected : Cause → Bool
  | .unexpectedToken _ _ | .unexpectedEnd _ => true
  | _ => false

/-- Whether a token that is no literal after all is reported, and not as unexpected. -/
def Token.Legible (token : Token) : Prop :=
  ∀ halt, Parse.literal? token = some (.error halt) →
    ∃ cause position, halt = .reported (.located cause position) ∧ cause.isUnexpected = false

namespace Token

/-- A keyword or a name. -/
def word (text : String) : Token := ⟨.identifier, text, ⟨.null, .null⟩⟩

/-- A sign. -/
def sign (text : String) : Token := ⟨.operator, text, ⟨.null, .null⟩⟩

end Token

namespace Written

/-- Whether the first token is written as one of the texts. -/
def Headed (texts : List String) (tokens : List Token) : Prop := startsWithAny tokens texts = true

/-- Whether the first token, if there is one, is not written as one of the texts. -/
def Apart (texts : List String) (tokens : List Token) : Prop := startsWithAny tokens texts = false

/-- Whatever the tokens are. -/
def Anything (_ : List Token) : Prop := True

/-- Whether a token is the first. -/
def Begins (token : Token) (tokens : List Token) : Prop := tokens.head? = some token

end Written

/-- The cursor after some tokens, with others ahead. -/
def Cursor.past (cursor : Cursor) (consumed others : List Token) : Cursor :=
  ⟨consumed.reverse ++ cursor.passed, others, cursor.file⟩

theorem Cursor.past_past (cursor : Cursor) (first second middle others : List Token) :
    (cursor.past first middle).past second others = cursor.past (first ++ second) others := by
  simp [Cursor.past]

theorem Cursor.isAt_past {cursor : Cursor} {others : List Token}
    (same : others.head? = cursor.ahead.head?) (text : String) :
    (cursor.past [] others).isAt text = cursor.isAt text := by
  rw [Cursor.isAt, Cursor.isAt, ← same]
  rfl

theorem Cursor.isAtAny_past {cursor : Cursor} {others : List Token}
    (same : others.head? = cursor.ahead.head?) (texts : List String) :
    (cursor.past [] others).isAtAny texts = cursor.isAtAny texts := by
  rw [Cursor.isAtAny, Cursor.isAtAny, funext (Cursor.isAt_past same)]

theorem Cursor.isDone_past {cursor : Cursor} {others : List Token}
    (same : others.head? = cursor.ahead.head?) :
    (cursor.past [] others).isDone = cursor.isDone := by
  change others.isEmpty = cursor.ahead.isEmpty
  rw [← Bool.coe_iff_coe, List.isEmpty_iff, List.isEmpty_iff, ← List.head?_eq_none_iff, same,
    List.head?_eq_none_iff]

theorem Cursor.position_past {cursor : Cursor} {others : List Token}
    (same : others.head? = cursor.ahead.head?) :
    (cursor.past [] others).position = cursor.position := by
  rcases cursor with ⟨passed, _ | ⟨token, rest⟩, file⟩
  · rw [List.head?_eq_none_iff.mp same]
    rfl
  · rcases others with _ | ⟨first, others⟩
    · cases same
    · cases same
      rfl

namespace Parse

open Written

variable {α β : Type}

/-- Whether a step that has `others` behind some tokens reads a value and passes these tokens. -/
def Reads (step : Parse α) (cursor : Cursor) (consumed : List Token) (value : α)
    (others : List Token) : Prop :=
  step (cursor.past [] (consumed ++ others)) = .ok value (cursor.past consumed others)

/-- Whether a step that has `others` behind some tokens passes these tokens and finds there that
`message` does not hold. -/
def Rejects (step : Parse α) (cursor : Cursor) (consumed : List Token) (message : String)
    (others : List Token) : Prop :=
  step (cursor.past [] (consumed ++ others)) =
    .error (.reported ((cursor.past consumed others).mismatch message))
      (cursor.past consumed others)

/-- Whether a step finds something wrong that is not an unexpected token or end. -/
def Faults (step : Parse α) (cursor : Cursor) : Prop :=
  ∃ cause position after, step cursor = .error (.reported (.located cause position)) after ∧
    cause.isUnexpected = false

/-- What a step comes to at a cursor, and at the cursors with the same tokens up to that point. The
step passes `least` tokens at least, and is complete in front of `follow`. -/
inductive Outlook (step : Parse α) (least : Nat) (follow : List Token → Prop) (cursor : Cursor) :
    Prop
  | reads (value : α) {consumed rest : List Token} (ahead : cursor.ahead = consumed ++ rest)
      (enough : least ≤ consumed.length)
      (persists : ∀ others, others.head? = rest.head? ∨ follow others →
        step.Reads cursor consumed value others)
  | stuck (message : String) {consumed rest : List Token}
      (ahead : cursor.ahead = consumed ++ rest)
      (persists : ∀ others, others.head? = rest.head? →
        step.Rejects cursor consumed message others)
      (completes : consumed ≠ [] → ∃ more value, ∀ others, follow others →
        step.Reads cursor (consumed ++ more) value others)
  | faults (found : step.Faults cursor)

/-- Whether a step can be brought to an end from no token, with tokens as in `lead` in front of
tokens as in `follow`. -/
def Starts (lead : List Token → Prop) (step : Parse α) (follow : List Token → Prop)
    (cursor : Cursor) : Prop :=
  ∃ more value, ∀ others, follow others →
    lead (more ++ others) ∧ step.Reads cursor more value others

/-- Whether a step sees what is wrong with the tokens as soon as it meets it, at cursors with fewer
than `bound` tokens ahead. -/
structure Foresees (bound least : Nat) (lead : List Token → Prop) (step : Parse α)
    (follow : List Token → Prop) : Prop where
  outlook : ∀ cursor : Cursor, cursor.ahead.length < bound →
    (∀ token ∈ cursor.ahead, token.Legible) → Outlook step least follow cursor
  starts : ∀ cursor : Cursor, Starts lead step follow cursor

section

variable {bound least more : Nat} {lead middle follow : List Token → Prop} {step : Parse α}
  {onward : α → Parse β} {cursor : Cursor}

theorem Reads.bind {first second others : List Token} {value : α} {result : β}
    (reads : step.Reads cursor first value (second ++ others))
    (goesOn : (onward value).Reads (cursor.past first []) second result others) :
    (step >>= onward).Reads cursor (first ++ second) result others := by
  unfold Reads at *
  change EStateM.bind step onward _ = _
  rw [List.append_assoc, EStateM.bind, reads]
  rw [Cursor.past_past, Cursor.past_past, List.append_nil] at goesOn
  exact goesOn

theorem Rejects.bind_first {consumed others : List Token} {message : String}
    (rejects : step.Rejects cursor consumed message others) (onward : α → Parse β) :
    (step >>= onward).Rejects cursor consumed message others := by
  unfold Rejects at *
  change EStateM.bind step onward _ = _
  rw [EStateM.bind, rejects]

theorem Rejects.bind_second {first second others : List Token} {value : α} {message : String}
    (reads : step.Reads cursor first value (second ++ others))
    (rejects : (onward value).Rejects (cursor.past first []) second message others) :
    (step >>= onward).Rejects cursor (first ++ second) message others := by
  unfold Reads at reads
  unfold Rejects at *
  change EStateM.bind step onward _ = _
  rw [List.append_assoc, EStateM.bind, reads]
  rw [Cursor.past_past, Cursor.past_past, List.append_nil] at rejects
  exact rejects

theorem Faults.bind_first (faults : step.Faults cursor) (onward : α → Parse β) :
    (step >>= onward).Faults cursor := by
  rcases faults with ⟨cause, position, after, ran, isOther⟩
  refine ⟨cause, position, after, ?_, isOther⟩
  change EStateM.bind step onward cursor = _
  rw [EStateM.bind, ran]

theorem Faults.bind_second {consumed rest : List Token} {value : α}
    (ahead : cursor.ahead = consumed ++ rest) (reads : step.Reads cursor consumed value rest)
    (faults : (onward value).Faults (cursor.past consumed rest)) :
    (step >>= onward).Faults cursor := by
  rcases faults with ⟨cause, position, after, ran, isOther⟩
  refine ⟨cause, position, after, ?_, isOther⟩
  have start : cursor.past [] (consumed ++ rest) = cursor := by
    rw [← ahead]
    rfl
  unfold Reads at reads
  rw [start] at reads
  change EStateM.bind step onward cursor = _
  rw [EStateM.bind, reads]
  exact ran

theorem head?_append_eq {first second third : List Token} (same : second.head? = third.head?) :
    (first ++ second).head? = (first ++ third).head? := by
  rw [List.head?_append, List.head?_append, same]

/-- Two steps, the second of which may come after the first. If the second may pass nothing, what
follows it may follow the first. -/
theorem Outlook.bind (first : Outlook step least middle cursor)
    (rest : ∀ value consumed rest, cursor.ahead = consumed ++ rest → least ≤ consumed.length →
      Outlook (onward value) more follow (cursor.past consumed rest))
    (starts : ∀ value after, Starts middle (onward value) follow after)
    (fits : more = 0 → ∀ others, follow others → middle others) :
    Outlook (step >>= onward) (least + more) follow cursor := by
  cases first with
  | faults found => exact .faults (found.bind_first onward)
  | @stuck message consumed rest ahead persists completes =>
      refine .stuck message ahead (fun others same => (persists others same).bind_first onward) ?_
      intro notFirst
      rcases completes notFirst with ⟨added, value, reads⟩
      rcases starts value (cursor.past (consumed ++ added) []) with ⟨further, result, goesOn⟩
      refine ⟨added ++ further, result, fun others follows => ?_⟩
      rcases goesOn others follows with ⟨leads, nextReads⟩
      rw [← List.append_assoc]
      exact (reads _ leads).bind nextReads
  | @reads value consumed middleRest ahead enough persists =>
      cases rest value consumed middleRest ahead enough with
      | faults found => exact .faults (.bind_second ahead (persists _ (.inl rfl)) found)
      | @stuck message passed rest nextAhead nextPersists nextCompletes =>
          have nextAhead : middleRest = passed ++ rest := nextAhead
          subst nextAhead
          refine .stuck message (by rw [ahead, List.append_assoc]) ?_ ?_
          · intro others same
            exact .bind_second (persists _ (.inl (head?_append_eq same))) (nextPersists others same)
          · intro notFirst
            -- The first step goes on as before if the second has passed a token, and otherwise
            -- because the second can start after it.
            rcases passed with _ | ⟨token, passed⟩
            · rcases starts value (cursor.past consumed []) with ⟨further, result, goesOn⟩
              refine ⟨further, result, fun others follows => ?_⟩
              rcases goesOn others follows with ⟨leads, nextReads⟩
              rw [List.append_nil]
              exact (persists _ (.inr leads)).bind nextReads
            · rcases nextCompletes (List.cons_ne_nil _ _) with ⟨added, result, nextReads⟩
              refine ⟨added, result, fun others follows => ?_⟩
              have firstReads := persists ((token :: passed ++ added) ++ others) (.inl rfl)
              rw [List.append_assoc]
              exact firstReads.bind (nextReads others follows)
      | @reads result passed rest nextAhead nextEnough nextPersists =>
          have nextAhead : middleRest = passed ++ rest := nextAhead
          subst nextAhead
          refine .reads result (by rw [ahead, List.append_assoc]) ?_ ?_
          · rw [List.length_append]
            exact Nat.add_le_add enough nextEnough
          · intro others fine
            refine (persists _ ?_).bind (nextPersists others fine)
            rcases passed with _ | ⟨token, passed⟩
            · rcases fine with same | follows
              · exact .inl same
              · exact .inr (fits (Nat.le_zero.mp nextEnough) others follows)
            · exact .inl rfl

theorem Outlook.fewer {fewer : Nat} (outlook : Outlook step least follow cursor)
    (le : fewer ≤ least) : Outlook step fewer follow cursor := by
  cases outlook with
  | reads value ahead enough persists => exact .reads value ahead (Nat.le_trans le enough) persists
  | stuck message ahead persists completes => exact .stuck message ahead persists completes
  | faults found => exact .faults found

/-- A choice that is made by the next token. A step that may pass nothing makes the same choice in
front of what may follow it. -/
theorem Outlook.look {branch : Cursor → Parse α}
    (chosen : Outlook (branch cursor) least follow cursor)
    (same : ∀ others, others.head? = cursor.ahead.head? →
      branch (cursor.past [] others) = branch cursor)
    (idle : least = 0 → ∀ others, follow others → branch (cursor.past [] others) = branch cursor) :
    Outlook (get >>= branch) least follow cursor := by
  have kept {consumed rest others : List Token} (ahead : cursor.ahead = consumed ++ rest)
      (notFirst : consumed ≠ []) :
      branch (cursor.past [] (consumed ++ others)) = branch cursor := by
    refine same _ ?_
    rcases consumed with _ | ⟨token, consumed⟩
    · exact absurd rfl notFirst
    · rw [ahead]
      rfl
  cases chosen with
  | faults found => exact .faults found
  | @stuck message consumed rest ahead persists completes =>
      refine .stuck message ahead (fun others sameHead => ?_) ?_
      · have sameBranch := same (consumed ++ others) (by rw [ahead, head?_append_eq sameHead])
        have rejects := persists others sameHead
        rw [← sameBranch] at rejects
        exact rejects
      · intro notFirst
        rcases completes notFirst with ⟨added, value, reads⟩
        refine ⟨added, value, fun others follows => ?_⟩
        have read := reads others follows
        have sameBranch := @kept consumed rest (added ++ others) ahead notFirst
        rw [← List.append_assoc] at sameBranch
        rw [← sameBranch] at read
        exact read
  | @reads value consumed rest ahead enough persists =>
      refine .reads value ahead enough fun others fine => ?_
      have sameBranch : branch (cursor.past [] (consumed ++ others)) = branch cursor := by
        rcases consumed with _ | ⟨token, consumed⟩
        · rcases fine with sameHead | follows
          · exact same _ (by rw [ahead]; exact sameHead)
          · exact idle (Nat.le_zero.mp enough) others follows
        · exact kept ahead (List.cons_ne_nil _ _)
      have read := persists others fine
      rw [← sameBranch] at read
      exact read

/-- A choice that is made by the next token, of a step that passes it. -/
theorem Outlook.choice {branch : Cursor → Parse α}
    (chosen : Outlook (branch cursor) 1 follow cursor)
    (same : ∀ others, others.head? = cursor.ahead.head? →
      branch (cursor.past [] others) = branch cursor) :
    Outlook (get >>= branch) 1 follow cursor :=
  chosen.look same fun none => absurd none Nat.one_ne_zero

theorem Starts.bind (first : Starts lead step middle cursor)
    (rest : ∀ value after, Starts middle (onward value) follow after) :
    Starts lead (step >>= onward) follow cursor := by
  rcases first with ⟨added, value, reads⟩
  rcases rest value (cursor.past added []) with ⟨further, result, goesOn⟩
  refine ⟨added ++ further, result, fun others follows => ?_⟩
  rcases goesOn others follows with ⟨leads, nextReads⟩
  rcases reads _ leads with ⟨firstLeads, firstReads⟩
  rw [List.append_assoc]
  exact ⟨firstLeads, firstReads.bind nextReads⟩

theorem Starts.look {branch : Cursor → Parse α} (starts : Starts lead step follow cursor)
    (chosen : ∀ others, lead others → branch (cursor.past [] others) = step) :
    Starts lead (get >>= branch) follow cursor := by
  rcases starts with ⟨added, value, reads⟩
  refine ⟨added, value, fun others follows => ?_⟩
  rcases reads others follows with ⟨leads, read⟩
  rw [← chosen _ leads] at read
  exact ⟨leads, read⟩

theorem Starts.pure (value : α) : Starts follow (Pure.pure value : Parse α) follow cursor :=
  ⟨[], value, fun _ follows => ⟨follows, rfl⟩⟩

theorem Starts.after {wider : List Token → Prop} (starts : Starts lead step follow cursor)
    (implies : ∀ tokens, lead tokens → wider tokens) : Starts wider step follow cursor := by
  rcases starts with ⟨added, value, reads⟩
  refine ⟨added, value, fun others follows => ?_⟩
  exact ⟨implies _ (reads others follows).1, (reads others follows).2⟩

theorem Outlook.fail (message : String) :
    Outlook (Parse.fail message : Parse α) least follow cursor :=
  .stuck message (List.nil_append _).symm (fun _ _ => rfl) fun notFirst => absurd rfl notFirst

theorem next_reads (token : Token) (others : List Token) :
    next.Reads cursor [token] token others := rfl

theorem Outlook.next {token : Token} {rest : List Token} (ahead : cursor.ahead = token :: rest) :
    Outlook Parse.next 1 follow cursor :=
  .reads token (show cursor.ahead = [token] ++ rest from ahead) (Nat.le_refl 1) fun others _ =>
    next_reads token others

namespace Foresees

theorem narrow {smaller : Nat} (foresees : Foresees bound least lead step follow)
    (le : smaller ≤ bound) : Foresees smaller least lead step follow :=
  ⟨fun cursor inside => foresees.outlook cursor (Nat.lt_of_lt_of_le inside le), foresees.starts⟩

/-- A step that gets stuck can be completed from the tokens that it passed, also if there are
none. -/
theorem completes {consumed : List Token} (foresees : Foresees bound least lead step follow)
    (passed : consumed ≠ [] → ∃ added value, ∀ others, follow others →
      step.Reads cursor (consumed ++ added) value others) :
    ∃ added value, ∀ others, follow others →
      step.Reads cursor (consumed ++ added) value others := by
  by_cases first : consumed = []
  · rcases foresees.starts cursor with ⟨added, value, reads⟩
    rw [first]
    exact ⟨added, value, fun others follows => (reads others follows).2⟩
  · exact passed first

/-- The same in terms of more tokens that it may start with. -/
theorem after {wider : List Token → Prop} (foresees : Foresees bound least lead step follow)
    (implies : ∀ tokens, lead tokens → wider tokens) : Foresees bound least wider step follow := by
  exact ⟨foresees.outlook, fun cursor => (foresees.starts cursor).after implies⟩

/-- The same in front of which it is enough that the first token may come. -/
theorem leading {token : Token} (foresees : Foresees bound least (Begins token) step follow)
    (leads : ∀ others, lead (token :: others)) : Foresees bound least lead step follow := by
  refine foresees.after fun tokens begins => ?_
  rcases tokens with _ | ⟨first, others⟩
  · cases begins
  · cases begins
    exact leads others

/-- What a step sees after some tokens. -/
theorem outlook_past {consumed rest : List Token} (foresees : Foresees bound least lead step follow)
    (ahead : cursor.ahead = consumed ++ rest)
    (inside : cursor.ahead.length < bound + consumed.length)
    (legible : ∀ token ∈ cursor.ahead, token.Legible) :
    Outlook step least follow (cursor.past consumed rest) := by
  rw [ahead] at inside legible
  rw [List.length_append, Nat.add_comm] at inside
  exact foresees.outlook _ (Nat.lt_of_add_lt_add_right inside) fun token found =>
    legible token (List.mem_append_right _ found)

theorem bind (first : Foresees bound least lead step middle)
    (rest : ∀ value, Foresees (bound - least) more middle (onward value) follow)
    (fits : more = 0 → ∀ others, follow others → middle others) :
    Foresees bound (least + more) lead (step >>= onward) follow := by
  refine ⟨fun cursor inside legible => ?_, fun cursor => ?_⟩
  · refine (first.outlook cursor inside legible).bind ?_ (fun value => (rest value).starts) fits
    intro value consumed _ ahead enough
    exact (rest value).outlook_past ahead (by omega) legible
  · exact (first.starts cursor).bind fun value => (rest value).starts

/-- Two steps, the second of which passes a token. -/
theorem seq (first : Foresees bound least lead step middle)
    (rest : ∀ value, Foresees (bound - least) 1 middle (onward value) follow) :
    Foresees bound 1 lead (step >>= onward) follow := by
  have both := first.bind rest fun none => absurd none Nat.one_ne_zero
  refine ⟨fun cursor inside legible => ?_, both.starts⟩
  exact (both.outlook cursor inside legible).fewer (Nat.le_add_left 1 least)

/-- Two steps, the second of which may pass nothing. -/
theorem last (first : Foresees bound least lead step middle)
    (rest : ∀ value, Foresees (bound - least) 0 middle (onward value) follow)
    (fits : ∀ others, follow others → middle others) :
    Foresees bound least lead (step >>= onward) follow :=
  first.bind rest fun _ => fits

/-- To foresee what comes from no token is to be able to start. -/
theorem zero (starts : ∀ cursor, Starts lead step follow cursor) :
    Foresees 0 least lead step follow :=
  ⟨fun _ inside => absurd inside (Nat.not_lt_zero _), starts⟩

theorem pure (value : α) : Foresees bound 0 follow (Pure.pure value) follow := by
  refine ⟨fun cursor _ _ => ?_, fun cursor => .pure value⟩
  exact .reads value (List.nil_append _).symm (Nat.le_refl 0) fun _ _ => rfl

theorem spanSince (start : Position) :
    Foresees bound 0 follow (Parse.spanSince start) follow := by
  refine ⟨fun cursor _ _ => ?_, fun cursor => ?_⟩
  · exact .reads (cursor.spanSince start) (List.nil_append _).symm (Nat.le_refl 0) fun _ _ => rfl
  · exact ⟨[], cursor.spanSince start, fun _ follows => ⟨follows, rfl⟩⟩

/-- The end of a rule: a value that knows its span. -/
theorem spanned (start : Position) (value : Span → α) :
    Foresees bound 0 follow (Parse.spanSince start >>= fun span => Pure.pure (value span)) follow :=
  (spanSince start).last (fun _ => pure _) fun _ follows => follows

end Foresees

end

/-! ## Single tokens -/

section

variable {bound least : Nat} {lead follow : List Token → Prop} {step yes no : Parse α}

namespace Foresees

theorem next (token : Token) : Foresees bound 1 (Begins token) Parse.next Anything := by
  refine ⟨fun cursor _ _ => ?_, fun cursor => ⟨[token], token, fun _ _ => ⟨rfl, rfl⟩⟩⟩
  rcases ahead : cursor.ahead with _ | ⟨first, rest⟩
  · refine .stuck "a token" (show cursor.ahead = [] ++ [] from ahead) ?_ ?_
    · intro others same
      rw [List.head?_eq_none_iff.mp same]
      rfl
    · exact fun notFirst => absurd rfl notFirst
  · exact .next ahead

theorem guarded {test : Cursor → Bool} {token : Token} (message : String)
    (byHead : ∀ (cursor : Cursor) others, others.head? = cursor.ahead.head? →
      test (cursor.past [] others) = test cursor)
    (passes : ∀ (cursor : Cursor) others, others.head? = some token →
      test (cursor.past [] others) = true) :
    Foresees bound 1 (Begins token)
      (get >>= fun cursor => if test cursor = true then Parse.next else fail message) Anything := by
  refine ⟨fun cursor inside legible => ?_, fun cursor => ?_⟩
  · refine .choice ?_ fun others same => ?_
    · split
      · exact (next token).outlook cursor inside legible
      · exact .fail message
    · simp only [byHead cursor others same]
  · refine ((@next bound token).starts cursor).look fun others begins => ?_
    simp only [passes cursor others begins, if_true]

theorem require {text : String} (token : Token) (reads : token.reads text = true) :
    Foresees bound 1 (Begins token) (Parse.require text) Anything := by
  refine guarded _ (fun cursor others same => Cursor.isAt_past same text) ?_
  intro cursor others begins
  simp [Cursor.isAt, Cursor.past, begins, reads]

theorem requireKind {kind : TokenKind} (token : Token) (isKind : token.kind = kind)
    (message : String) :
    Foresees bound 1 (Begins token) (Parse.requireKind kind message) Anything := by
  refine guarded message (fun cursor others same => ?_) ?_
  · rw [Cursor.isAtKind, Cursor.isAtKind, ← same]
    rfl
  · intro cursor others begins
    simp [Cursor.isAtKind, Cursor.past, begins, isKind]

/-- The end of a rule: a last token, and a value that knows its span. -/
theorem closing {text : String} (token : Token) (reads : token.reads text = true)
    (start : Position) (value : Span → α) :
    Foresees bound 1 (Begins token) (Parse.require text >>= fun _ =>
      Parse.spanSince start >>= fun span => Pure.pure (value span)) follow :=
  (require token reads).last (fun _ => (spanned start value).after fun _ _ => trivial)
    fun _ _ => trivial

theorem typeName : Foresees bound 1 (Begins (.word "x")) Parse.typeName Anything :=
  (requireKind (.word "x") rfl _).last (fun _ => pure _) fun _ _ => trivial

end Foresees

/-- A choice by the next token, which is passed in one case, is a look at it. -/
theorem accept_choice (text : String) (yes no : Parse α) :
    (accept text >>= fun found => if found then yes else no) =
      get >>= fun cursor => if cursor.isAt text = true then next >>= fun _ => yes else no := by
  funext cursor
  change EStateM.bind _ _ cursor = (if cursor.isAt text = true then _ else no : Parse α) cursor
  rw [EStateM.bind, accept_eq]
  rcases cursor with ⟨passed, _ | ⟨token, rest⟩, file⟩
  · rfl
  · cases Cursor.isAt ⟨passed, token :: rest, file⟩ text <;> rfl

theorem Starts.accept {text : String} {cursor : Cursor} (left : Starts lead no follow cursor)
    (leads : ∀ tokens, lead tokens → startsWith tokens text = false) :
    Starts lead (Parse.accept text >>= fun found => if found then yes else no) follow cursor := by
  rw [accept_choice]
  refine left.look fun others leading => ?_
  have notAt : (cursor.past [] others).isAt text = false := leads others leading
  simp only [notAt, Bool.false_eq_true, if_false]

/-- What goes on after a token that is passed. -/
theorem Outlook.passing {onward : Token → Parse α}
    (foresees : ∀ token, Foresees (bound - 1) least lead (onward token) follow) {cursor : Cursor}
    {token : Token} {rest : List Token} (ahead : cursor.ahead = token :: rest)
    (inside : cursor.ahead.length < bound) (legible : ∀ token ∈ cursor.ahead, token.Legible) :
    Outlook (Parse.next >>= onward) 1 follow cursor := by
  have wide (token : Token) : Foresees (bound - 1) least Anything (onward token) follow :=
    (foresees token).after fun _ _ => trivial
  refine Outlook.fewer (.bind (.next ahead) ?_ (fun token => (wide token).starts)
    fun _ _ _ => trivial) (Nat.le_add_right 1 least)
  intro token consumed rest ahead enough
  exact (wide token).outlook_past ahead (by omega) legible

namespace Foresees

/-- A choice by the next token. The step can be completed without that token. -/
theorem accept (text : String)
    (taken : ∀ {cursor : Cursor} {token rest}, cursor.ahead = token :: rest →
      cursor.ahead.length < bound → (∀ token ∈ cursor.ahead, token.Legible) →
      Outlook (Parse.next >>= fun _ => yes) 1 follow cursor)
    (left : Foresees bound least lead no follow) (le : least ≤ 1)
    (leads : ∀ tokens, lead tokens → startsWith tokens text = false)
    (idle : least = 0 → ∀ others, follow others → startsWith others text = false) :
    Foresees bound least lead (Parse.accept text >>= fun found => if found then yes else no)
      follow := by
  rw [accept_choice]
  refine ⟨fun cursor inside legible => ?_, fun cursor => ?_⟩
  · cases isAt : cursor.isAt text with
    | true =>
        rcases Cursor.exists_of_isAt isAt with ⟨token, rest, ahead, _⟩
        have chosen := taken ahead inside legible
        refine Outlook.fewer (.choice ?_ fun others same => ?_) le
        · rw [isAt, if_pos rfl]
          exact chosen
        · simp only [Cursor.isAt_past same]
    | false =>
        refine .look ?_ ?_ ?_
        · rw [isAt, if_neg Bool.false_ne_true]
          exact left.outlook cursor inside legible
        · intro others same
          simp only [Cursor.isAt_past same]
        · intro none others follows
          have notAt : (cursor.past [] others).isAt text = false := idle none others follows
          simp only [notAt, isAt]
  · rw [← accept_choice]
    exact (left.starts cursor).accept leads

theorem onlyAfter {text : String} {middle : List Token → Prop}
    (foresees : Foresees (bound - 1) least lead step middle)
    (fits : ∀ others, follow others → middle others)
    (idle : ∀ others, follow others → startsWith others text = false) :
    Foresees bound 0 follow (Parse.onlyAfter text step) follow := by
  have found : Foresees (bound - 1) least lead (step >>= fun value => Pure.pure (some value))
      follow :=
    foresees.last (fun value => (pure _).after fits) fits
  exact accept text (.passing fun _ => found) (pure none) (Nat.zero_le 1) idle fun _ => idle

end Foresees

end

/-! ## Lists of items -/

section

variable {bound : Nat} {lead follow : List Token → Prop} {item : Parse α} {good : α → Prop}

namespace Foresees

theorem separated (safe : ∀ bound, Safe (fun _ => True) bound 0 item good)
    (foresees : Foresees bound 1 lead item follow) :
    Foresees bound 1 lead (Parse.separated item) fun others =>
      follow others ∧ startsWith others "," = false := by
  induction bound with
  | zero =>
      refine zero fun cursor => ?_
      rw [separated_unroll safe]
      refine (foresees.starts cursor).bind fun first after => ?_
      exact ((Starts.pure [first]).accept fun _ follows => follows.2).after fun _ follows =>
        follows.1
  | succ bound ih =>
      have more := ih (foresees.narrow (Nat.le_succ bound))
      rw [separated_unroll safe]
      refine foresees.last (fun first => ?_) fun _ follows => follows.1
      have others := (more.narrow (Nat.pred_le bound)).last (fun others => pure (first :: others))
        fun _ follows => follows
      have goesOn := accept "," (.passing fun _ => others) (pure [first]) (Nat.zero_le 1)
        (fun _ follows => follows.2) fun _ _ follows => follows.2
      exact goesOn.after fun _ follows => follows.1

theorem itemsUntil {closer : String} (token : Token) (reads : token.reads closer = true)
    (safe : ∀ bound, Safe (fun _ => True) bound 0 item good)
    (foresees : Foresees bound 1 lead item follow)
    (closes : ∀ others, follow (token :: others) ∧ token.reads "," = false) :
    Foresees bound 1 (Begins token) (Parse.itemsUntil closer item) Anything := by
  have close (bound : Nat) (items : List α) : Foresees bound 1 (Begins token)
      (Parse.require closer >>= fun _ => Pure.pure items) Anything :=
    (require token reads).last (fun _ => pure items) fun _ _ => trivial
  have empty : Foresees bound 1 (Begins token)
      (Pure.pure [] >>= fun items => Parse.require closer >>= fun _ => Pure.pure items)
      Anything :=
    (pure []).seq (close _)
  have full := (separated safe foresees).seq fun items => (close _ items).leading closes
  refine ⟨fun cursor inside legible => ?_, fun cursor => ?_⟩
  · refine .choice ?_ fun others same => ?_
    · simp only
      split
      · exact empty.outlook cursor inside legible
      · exact full.outlook cursor inside legible
    · simp only [Cursor.isAt_past same]
  · refine (empty.starts cursor).look fun others begins => ?_
    have isAt : (cursor.past [] others).isAt closer = true := by
      simp [Cursor.isAt, Cursor.past, show others.head? = some token from begins, reads]
    simp only [isAt, if_true]

theorem whileAt {starts : List String} (safe : ∀ bound, Safe (fun _ => True) bound 1 item good)
    (foresees : Foresees bound 1 lead item Anything)
    (apart : ∀ others, follow others → Apart starts others) :
    Foresees bound 0 follow (Parse.whileAt starts item) follow := by
  have stops (cursor : Cursor) : Starts follow (Parse.whileAt starts item) follow cursor := by
    rw [whileAt_unroll safe]
    refine (Starts.pure []).look fun others follows => ?_
    have notAt : (cursor.past [] others).isAtAny starts = false := apart others follows
    simp only [notAt, Bool.false_eq_true, if_false]
  induction bound with
  | zero => exact zero stops
  | succ bound ih =>
      have more := ih (foresees.narrow (Nat.le_succ bound))
      refine ⟨fun cursor inside legible => ?_, stops⟩
      rw [whileAt_unroll safe]
      cases isAt : cursor.isAtAny starts with
      | true =>
          refine Outlook.fewer (.choice ?_ fun others same => ?_) (Nat.zero_le 1)
          · rw [isAt, if_pos rfl]
            have goesOn := foresees.last (fun first => (more.last (fun others =>
              pure (first :: others)) fun _ follows => follows).after fun _ _ => trivial)
              fun _ _ => trivial
            exact goesOn.outlook cursor inside legible
          · simp only [Cursor.isAtAny_past same]
      | false =>
          refine .look ?_ ?_ ?_
          · rw [isAt, if_neg Bool.false_ne_true]
            exact (pure []).outlook cursor inside legible
          · intro others same
            simp only [Cursor.isAtAny_past same]
          · intro _ others follows
            have notAt : (cursor.past [] others).isAtAny starts = false := apart others follows
            simp only [notAt, isAt]

end Foresees

end

end Parse

end GradualScript
