import GradualScript.Grammar.Expression
import GradualScript.Proofs.Grammar.Steps

/-!
# Where a step looks

Whether a parsing step succeeds, and with what, depends on the tokens ahead alone. The tokens passed
before count for the end of a span only, and there only the last of them; a step that passes a token
before it asks for a span does not see what was passed before.
-/

namespace GradualScript

namespace Cursor

/-- Whether two cursors have the same tokens ahead. -/
def Alike (left right : Cursor) : Prop := left.ahead = right.ahead

/-- Whether two cursors have the same tokens ahead, and the same token behind. -/
def Twins (left right : Cursor) : Prop :=
  left.ahead = right.ahead ∧ left.passed.head? = right.passed.head?

variable {left right : Cursor}

theorem Twins.alike (twins : left.Twins right) : left.Alike right := twins.1

theorem Twins.spanSince (twins : left.Twins right) (start : Position) :
    left.spanSince start = right.spanSince start := by
  have last := twins.2
  unfold Cursor.spanSince
  generalize left.passed = leftPassed at last ⊢
  generalize right.passed = rightPassed at last ⊢
  cases leftPassed <;> cases rightPassed <;> simp_all

theorem Alike.isAt (alike : left.Alike right) (text : String) :
    left.isAt text = right.isAt text := by
  unfold Cursor.isAt
  rw [show left.ahead = right.ahead from alike]

/-- Passing a token makes twins. -/
theorem twins_skip {token : Token} {rest : List Token} (alike : left.Alike right)
    (next : left.ahead = token :: rest) : (left.skip 1).Twins (right.skip 1) := by
  have rightNext : right.ahead = token :: rest := Eq.trans (Eq.symm alike) next
  constructor <;> simp [Cursor.skip, next, rightNext]

theorem alike_skip (alike : left.Alike right) (count : Nat) :
    (left.skip count).Alike (right.skip count) := by
  induction count generalizing left right with
  | zero => exact alike
  | succ count ih =>
      have same : left.ahead = right.ahead := alike
      unfold Cursor.skip
      rw [← same]
      split
      · exact alike
      · exact ih rfl

end Cursor

namespace Parse

variable {α β : Type} {before middle after : Cursor → Cursor → Prop}

/-- Whether a step that succeeds at a cursor succeeds in the same way at a related one, and leaves
related cursors behind. -/
def Echoes (before after : Cursor → Cursor → Prop) (step : Parse α) : Prop :=
  ∀ left right value leftAfter, before left right → step left = .ok value leftAfter →
    ∃ rightAfter, step right = .ok value rightAfter ∧ after leftAfter rightAfter

/-- Whether a step sees the tokens ahead and the last token passed. -/
abbrev Local (step : Parse α) : Prop := step.Echoes Cursor.Twins Cursor.Twins

/-- Whether a step sees the tokens ahead only, and passes one. -/
abbrev Fresh (step : Parse α) : Prop := step.Echoes Cursor.Alike Cursor.Twins

theorem Fresh.local {step : Parse α} (fresh : step.Fresh) : step.Local := by
  intro left right value leftAfter twins ran
  exact fresh left right value leftAfter twins.alike ran

namespace Echoes

theorem pure (value : α) : Echoes before before (Pure.pure value : Parse α) := by
  intro left right _ _ related ran
  cases ran
  exact ⟨right, rfl, related⟩

theorem throw (halt : Halt) : Echoes before after (throw halt : Parse α) := by
  intro left right _ _ _ ran
  cases ran

theorem fail (message : String) : Echoes before after (Parse.fail message : Parse α) := by
  intro left right _ _ _ ran
  cases ran

theorem bind {step : Parse α} {next : α → Parse β} (first : step.Echoes before middle)
    (rest : ∀ value, (next value).Echoes middle after) : (step >>= next).Echoes before after := by
  intro left right result leftAfter related ran
  change EStateM.bind step next left = _ at ran
  unfold EStateM.bind at ran
  split at ran
  · rename_i value leftMiddle stepped
    rcases first left right value leftMiddle related stepped with
      ⟨rightMiddle, other, relatedMiddle⟩
    rcases rest value _ _ _ _ relatedMiddle ran with ⟨rightAfter, last, relatedAfter⟩
    refine ⟨rightAfter, ?_, relatedAfter⟩
    change EStateM.bind step next right = _
    unfold EStateM.bind
    rw [other]
    exact last
  · cases ran

/-- A choice that is made by a look at the tokens ahead. -/
theorem look {next : Cursor → Parse α} (alike : ∀ left right, before left right → left.Alike right)
    (same : ∀ left right : Cursor, left.Alike right → next left = next right)
    (each : ∀ cursor, (next cursor).Echoes before after) : (get >>= next).Echoes before after := by
  intro left right value leftAfter related ran
  change next left left = _ at ran
  rcases each left left right value leftAfter related ran with ⟨rightAfter, other, relatedAfter⟩
  refine ⟨rightAfter, ?_, relatedAfter⟩
  change next right right = _
  rw [← same left right (alike left right related)]
  exact other

theorem bounded {step : Nat → Parse α} (alike : ∀ left right, before left right → left.Alike right)
    (each : ∀ budget, (step budget).Echoes before after) :
    (Parse.bounded step).Echoes before after := by
  intro left right value leftAfter related ran
  have same : left.ahead = right.ahead := alike left right related
  unfold Parse.bounded at ran ⊢
  rw [← same]
  exact each _ left right value leftAfter related ran

end Echoes

theorem next_fresh : next.Fresh := by
  intro left right token leftAfter alike ran
  rcases next_eq_ok_iff.mp ran with ⟨rest, ahead, rfl⟩
  have rightAhead : right.ahead = token :: rest := Eq.trans (Eq.symm alike) ahead
  exact ⟨_, next_eq_ok_iff.mpr ⟨rest, rightAhead, rfl⟩, rfl, rfl⟩

theorem require_fresh (text : String) : (require text).Fresh := by
  refine .look (fun _ _ alike => alike) ?_ fun cursor => ?_
  · intro left right alike
    rw [alike.isAt]
  · split
    · exact next_fresh
    · exact .fail _

theorem spanSince_local (start : Position) : (spanSince start).Local := by
  intro left right value leftAfter twins ran
  cases ran
  refine ⟨right, ?_, twins⟩
  rw [twins.spanSince]
  rfl

theorem accept_local (text : String) : (accept text).Local := by
  intro left right found leftAfter twins ran
  rw [accept_eq] at ran
  rw [accept_eq, ← twins.alike.isAt]
  split at ran
  · rename_i isAt
    cases ran
    rcases Cursor.exists_of_isAt isAt with ⟨token, rest, ahead, _⟩
    exact ⟨_, by simp [isAt], Cursor.twins_skip twins.alike ahead⟩
  · rename_i notAt
    cases ran
    exact ⟨_, by simp [notAt], twins⟩

theorem skip_echoes (count : Nat) :
    Echoes Cursor.Twins Cursor.Alike (modify (·.skip count) : Parse Unit) := by
  intro left right _ leftAfter twins ran
  cases ran
  exact ⟨_, rfl, Cursor.alike_skip twins.alike count⟩

theorem separatedWithin_local {item : Parse α} (itemLocal : item.Local) (budget : Nat) :
    (separatedWithin item budget).Local := by
  induction budget with
  | zero => exact .throw _
  | succ budget ih =>
      refine .bind itemLocal fun first => .bind (accept_local ",") fun more => ?_
      split
      · exact .bind ih fun rest => .pure _
      · exact .pure _

theorem itemsUntil_local {item : Parse α} (itemLocal : item.Local) (closer : String) :
    (itemsUntil closer item).Local := by
  have close (items : List α) : (require closer >>= fun _ => pure items).Local :=
    .bind (require_fresh closer).local fun _ => .pure items
  refine .look (fun _ _ twins => twins.alike) ?_ fun cursor => ?_
  · intro left right alike
    rw [alike.isAt]
  · simp only
    split
    · exact .bind (.pure []) close
    · refine .bind (.bounded (fun _ _ twins => twins.alike) ?_) close
      exact separatedWithin_local itemLocal

/-! ## Expressions -/

section

variable {expression : Parse Expr} (exprLocal : expression.Local)

include exprLocal

theorem named_fresh : (named expression).Fresh := by
  refine .bind next_fresh fun token => .bind (accept_local "(") fun isCall => ?_
  split
  · refine .bind (itemsUntil_local exprLocal ")") fun arguments => ?_
    exact .bind (spanSince_local _) fun span => .pure _
  · refine .bind (accept_local "[") fun isElement => ?_
    split
    · refine .bind exprLocal fun offset => .bind (require_fresh "]").local fun _ => ?_
      exact .bind (spanSince_local _) fun span => .pure _
    · exact .pure _

theorem groupWith_fresh : (groupWith expression).Fresh := by
  refine .bind (require_fresh "(") fun opener => .bind exprLocal fun inner => ?_
  refine .bind (require_fresh ")").local fun _ => .bind (spanSince_local _) fun span => ?_
  exact .pure _

theorem operandWith_fresh : (operandWith expression).Fresh := by
  refine .look (fun _ _ alike => alike) ?_ fun cursor => ?_
  · intro left right alike
    rw [show left.ahead = right.ahead from alike]
  · split
    · exact .fail _
    · split
      · refine .bind next_fresh fun _ => ?_
        split
        · exact .pure _
        · exact .throw _
      · split
        · exact named_fresh exprLocal
        · split
          · exact groupWith_fresh exprLocal
          · exact .fail _

end

theorem operationWith_local {expression : Power → Parse Expr}
    (fresh : ∀ power, (expression power).Fresh) (grammar : Grammar) (left : Expr) (power : Power) :
    (operationWith grammar expression left power).Local := by
  refine .look (fun _ _ twins => twins.alike) ?_ fun cursor => ?_
  · intro left right alike
    simp only [Grammar.operatorAt?, show left.ahead = right.ahead from alike]
  · split
    · exact .fail _
    · exact .bind (skip_echoes _) fun _ => .bind (fresh power) fun right => .pure _

theorem chainWithin_local {expression : Power → Parse Expr}
    (fresh : ∀ power, (expression power).Fresh) (grammar : Grammar) (power : Power) (budget : Nat)
    (left : Expr) : (chainWithin grammar expression power budget left).Local := by
  induction budget generalizing left with
  | zero => exact .throw _
  | succ budget ih =>
      refine .look (fun _ _ twins => twins.alike) ?_ fun cursor => ?_
      · intro left right alike
        simp only [Grammar.operatorAt?, show left.ahead = right.ahead from alike]
      · split
        · exact .pure _
        · simp only
          split
          · exact .bind (operationWith_local fresh grammar left _) ih
          · exact .pure _

theorem expressionWithin_fresh (grammar : Grammar) (budget : Nat) (power : Power) :
    (expressionWithin grammar budget power).Fresh := by
  induction budget generalizing power with
  | zero => exact .throw _
  | succ budget ih =>
      refine .bind (operandWith_fresh (ih .loosest).local) fun left => ?_
      refine .bounded (fun _ _ twins => twins.alike) fun count => ?_
      exact chainWithin_local ih grammar power count left

/-- What an expression is does not depend on what was passed before it. -/
theorem anyExpression_fresh (grammar : Grammar) : (anyExpression grammar).Fresh :=
  .bounded (fun _ _ alike => alike) fun budget => expressionWithin_fresh grammar budget .loosest

end Parse

end GradualScript
