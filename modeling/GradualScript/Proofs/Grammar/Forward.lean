import GradualScript.Proofs.Grammar.Unrolling

/-!
# The grammar always makes progress

A parsing step only ever passes tokens: wherever it ends, with a value or with a failure, the cursor
has moved over some of the tokens ahead, never back and never past the last one. `Parse.Forward`
says this of a step, and it holds of whatever is put together from steps of which it holds.

Together with the number of tokens that a rule passes at least (`Parse.Safe`) this is progress: a
rule that reads something has passed a token. So a repetition takes no more steps than there are
tokens ahead, whatever they are.
-/

namespace GradualScript

/-- Whether a cursor becomes another one when some of the tokens ahead are passed. -/
def Cursor.Precedes (cursor after : Cursor) : Prop :=
  ∃ moved, cursor.ahead = moved ++ after.ahead ∧ after.passed = moved.reverse ++ cursor.passed ∧
    after.file = cursor.file

namespace Cursor.Precedes

theorem refl (cursor : Cursor) : cursor.Precedes cursor := ⟨[], rfl, rfl, rfl⟩

theorem trans {first second third : Cursor} (near : first.Precedes second)
    (far : second.Precedes third) : first.Precedes third := by
  obtain ⟨moved, ahead, passed, file⟩ := near
  obtain ⟨more, aheadMore, passedMore, fileMore⟩ := far
  refine ⟨moved ++ more, ?_, ?_, fileMore.trans file⟩
  · rw [ahead, aheadMore, List.append_assoc]
  · rw [passedMore, passed, List.reverse_append, List.append_assoc]

theorem skip (cursor : Cursor) (count : Nat) : cursor.Precedes (cursor.skip count) := by
  induction count generalizing cursor with
  | zero => exact refl cursor
  | succ count ih =>
      unfold Cursor.skip
      split
      · exact refl cursor
      · rename_i token rest ahead
        have once : cursor.Precedes ⟨token :: cursor.passed, rest, cursor.file⟩ :=
          ⟨[token], ahead, rfl, rfl⟩
        exact once.trans (ih _)

end Cursor.Precedes

namespace Parse

variable {α β : Type}

/-- Where a step that starts at a cursor may have left it. -/
inductive Moved (cursor : Cursor) : EStateM.Result Halt Cursor α → Prop
  | ok {value : α} {after : Cursor} (onward : cursor.Precedes after) : Moved cursor (.ok value after)
  | error {halt : Halt} {after : Cursor} (onward : cursor.Precedes after) :
      Moved cursor (.error halt after)

/-- Whether a step, however it ends, has only passed tokens. -/
def Forward (step : Parse α) : Prop := ∀ cursor, Moved cursor (step cursor)

theorem Moved.after {cursor middle : Cursor} {result : EStateM.Result Halt Cursor α}
    (moved : Moved middle result) (onward : cursor.Precedes middle) : Moved cursor result := by
  cases moved with
  | ok more => exact .ok (onward.trans more)
  | error more => exact .error (onward.trans more)

namespace Forward

theorem pure (value : α) : Forward (Pure.pure value : Parse α) := fun cursor => .ok (.refl cursor)

theorem throw (halt : Halt) : Forward (throw halt : Parse α) := fun cursor => .error (.refl cursor)

theorem bind {step : Parse α} {next : α → Parse β} (first : step.Forward)
    (rest : ∀ value, (next value).Forward) : (step >>= next).Forward := by
  intro cursor
  have moved := first cursor
  change Moved cursor (EStateM.bind step next cursor)
  unfold EStateM.bind
  generalize step cursor = result at moved ⊢
  cases moved with
  | error onward => exact .error onward
  | ok onward => exact (rest _ _).after onward

/-- A step after a look at the cursor. -/
theorem look {next : Cursor → Parse α} (each : ∀ cursor, (next cursor).Forward) :
    (get >>= next).Forward := fun cursor => each cursor cursor

theorem ite {condition : Prop} [Decidable condition] {yes no : Parse α} (yesForward : yes.Forward)
    (noForward : no.Forward) : Forward (if condition then yes else no) := by
  split
  · exact yesForward
  · exact noForward

theorem skip (count : Nat) : Forward (modify (·.skip count) : Parse Unit) := fun cursor =>
  .ok (.skip cursor count)

theorem bounded {step : Nat → Parse α} (each : ∀ budget, (step budget).Forward) :
    (Parse.bounded step).Forward := fun cursor => each (cursor.ahead.length + 1) cursor

theorem fail (message : String) : Forward (Parse.fail message : Parse α) := look fun _ => throw _

theorem next : Parse.next.Forward := by
  refine look fun cursor => ?_
  split
  · exact (skip 1).bind fun _ => pure _
  · exact fail _

theorem accept (text : String) : (Parse.accept text).Forward :=
  look fun _ => ite ((skip 1).bind fun _ => pure _) (pure _)

theorem require (text : String) : (Parse.require text).Forward := look fun _ => ite next (fail _)

theorem requireKind (kind : TokenKind) (message : String) :
    (Parse.requireKind kind message).Forward :=
  look fun _ => ite next (fail _)

theorem typeName : Parse.typeName.Forward := (requireKind _ _).bind fun _ => pure _

theorem spanSince (start : Position) : (Parse.spanSince start).Forward := look fun _ => pure _

theorem optional {step : Parse α} (forward : step.Forward) : Forward (some <$> step) :=
  bind forward fun _ => pure _

theorem onlyAfter (text : String) {step : Parse α} (forward : step.Forward) :
    (Parse.onlyAfter text step).Forward :=
  (accept text).bind fun _ => ite forward.optional (pure _)

theorem separatedWithin {item : Parse α} (forward : item.Forward) (budget : Nat) :
    (Parse.separatedWithin item budget).Forward := by
  induction budget with
  | zero => exact throw _
  | succ budget ih =>
      refine forward.bind fun first => (accept ",").bind fun _ => ite ?_ (pure _)
      exact ih.bind fun _ => pure _

theorem itemsUntil (closer : String) {item : Parse α} (forward : item.Forward) :
    (Parse.itemsUntil closer item).Forward := by
  have close (items : List α) :
      Forward (Parse.require closer >>= fun _ => (Pure.pure items : Parse (List α))) :=
    (require closer).bind fun _ => pure _
  refine look fun cursor => ite ?_ ?_
  · exact (pure []).bind close
  · exact (bounded (separatedWithin forward)).bind close

theorem whileAtWithin (starts : List String) {item : Parse α} (forward : item.Forward)
    (budget : Nat) : (Parse.whileAtWithin starts item budget).Forward := by
  induction budget with
  | zero => exact throw _
  | succ budget ih =>
      exact look fun _ => ite (forward.bind fun _ => ih.bind fun _ => pure _) (pure _)

end Forward

variable {grammar : Grammar}

/-! ## Expressions -/

section

variable {expression : Parse Expr} (forward : expression.Forward)

include forward

theorem listWith_forward : (listWith expression).Forward := by
  refine (Forward.require "[").bind fun _ => (Forward.itemsUntil "]" forward).bind fun _ => ?_
  exact (Forward.spanSince _).bind fun _ => .pure _

theorem groupWith_forward : (groupWith expression).Forward := by
  refine (Forward.require "(").bind fun _ => forward.bind fun _ => ?_
  exact (Forward.require ")").bind fun _ => (Forward.spanSince _).bind fun _ => .pure _

theorem named_forward : (named expression).Forward := by
  refine Forward.next.bind fun token => (Forward.accept "(").bind fun _ => .ite ?_ ?_
  · refine (Forward.itemsUntil ")" forward).bind fun _ => ?_
    exact (Forward.spanSince _).bind fun _ => .pure _
  · refine (Forward.accept "[").bind fun _ => .ite ?_ (.pure _)
    refine forward.bind fun _ => (Forward.require "]").bind fun _ => ?_
    exact (Forward.spanSince _).bind fun _ => .pure _

theorem operandWith_forward : (operandWith expression).Forward := by
  refine .look fun cursor => ?_
  split
  · exact .fail _
  · split
    · refine Forward.next.bind fun _ => ?_
      split
      · exact .pure _
      · exact .throw _
    · exact .ite (named_forward forward) (.ite (groupWith_forward forward) (.fail _))

end

section

variable {expression : Power → Parse Expr} (forward : ∀ power, (expression power).Forward)

include forward

theorem operationWith_forward (left : Expr) (power : Power) :
    (operationWith grammar expression left power).Forward := by
  refine .look fun cursor => ?_
  split
  · exact .fail _
  · exact (Forward.skip _).bind fun _ => (forward power).bind fun _ => .pure _

theorem chainWithin_forward (power : Power) (budget : Nat) (left : Expr) :
    (chainWithin grammar expression power budget left).Forward := by
  induction budget generalizing left with
  | zero => exact .throw _
  | succ budget ih =>
      refine .look fun cursor => ?_
      split
      · exact .pure _
      · exact .ite ((operationWith_forward forward left _).bind ih) (.pure _)

end

theorem expressionWithin_forward (budget : Nat) (power : Power) :
    (expressionWithin grammar budget power).Forward := by
  induction budget generalizing power with
  | zero => exact .throw _
  | succ budget ih =>
      refine (operandWith_forward (ih .loosest)).bind fun left => .bounded fun count => ?_
      exact chainWithin_forward ih power count left

theorem expression_forward (power : Power) : (expression grammar power).Forward :=
  .bounded fun budget => expressionWithin_forward budget power

theorem anyExpression_forward : (anyExpression grammar).Forward := expression_forward .loosest

/-! ## Statements -/

theorem plainStatement_forward : (plainStatement grammar).Forward := by
  refine .look fun cursor => anyExpression_forward.bind fun expr => ?_
  refine (Forward.accept "=").bind fun _ => .ite (.ite ?_ (.throw _)) ?_
  · refine anyExpression_forward.bind fun _ => (Forward.require ";").bind fun _ => ?_
    exact (Forward.spanSince _).bind fun _ => .pure _
  · exact (Forward.require ";").bind fun _ => (Forward.spanSince _).bind fun _ => .pure _

theorem declaration_forward : (declaration grammar).Forward := by
  refine (Forward.require _).bind fun _ => (Forward.requireKind _ _).bind fun _ => ?_
  refine (Forward.onlyAfter ":" .typeName).bind fun _ => ?_
  refine (Forward.onlyAfter "=" anyExpression_forward).bind fun _ => ?_
  exact (Forward.require ";").bind fun _ => (Forward.spanSince _).bind fun _ => .pure _

theorem result_forward : (result grammar).Forward := by
  refine (Forward.require _).bind fun _ => anyExpression_forward.bind fun _ => ?_
  exact (Forward.require ";").bind fun _ => (Forward.spanSince _).bind fun _ => .pure _

section

variable {statement : Parse Stmt} (forward : statement.Forward)

include forward

theorem blockWith_forward (terminators : List String) :
    (blockWith statement terminators).Forward := by
  refine .bounded fun budget => ?_
  induction budget with
  | zero => exact .throw _
  | succ budget ih =>
      refine .look fun _ => .ite (.pure _) (.ite (.fail _) ?_)
      exact forward.bind fun _ => ih.bind fun _ => .pure _

theorem branchWith_forward : (branchWith grammar statement).Forward := by
  refine (Forward.require _).bind fun keyword => anyExpression_forward.bind fun condition => ?_
  refine (Forward.require "DO").bind fun _ => ?_
  refine (blockWith_forward forward _).bind fun thenBody => (Forward.accept "ELSE").bind fun _ => ?_
  have close (elseBody : List Stmt) : Forward (do
      let _ ← require "END"
      return Stmt.branch (← spanSince keyword.span.start) condition thenBody elseBody) :=
    (Forward.require "END").bind fun _ => (Forward.spanSince _).bind fun _ => .pure _
  refine .ite ?_ ?_
  · exact (blockWith_forward forward _).bind close
  · exact (Forward.pure []).bind close

theorem casesWithin_forward (budget : Nat) : (casesWithin grammar statement budget).Forward := by
  induction budget with
  | zero => exact .throw _
  | succ budget ih =>
      refine .look fun _ => .ite ?_ ?_
      · refine Forward.next.bind fun _ => anyExpression_forward.bind fun _ => ?_
        refine (Forward.require ":").bind fun _ => (blockWith_forward forward _).bind fun _ => ?_
        exact (Forward.spanSince _).bind fun _ => ih.bind fun _ => .pure _
      · refine (Forward.require "DEFAULT").bind fun _ => ?_
        refine (blockWith_forward forward _).bind fun _ => ?_
        exact (Forward.spanSince _).bind fun _ => .pure _

theorem switchWith_forward : (switchWith grammar statement).Forward := by
  refine (Forward.require _).bind fun _ => anyExpression_forward.bind fun _ => ?_
  refine (Forward.bounded (casesWithin_forward forward)).bind fun _ => ?_
  exact (Forward.require "END").bind fun _ => (Forward.spanSince _).bind fun _ => .pure _

theorem loopWith_forward : (loopWith grammar statement).Forward := by
  refine (Forward.require _).bind fun _ => anyExpression_forward.bind fun _ => ?_
  refine (Forward.require "DO").bind fun _ => (blockWith_forward forward _).bind fun _ => ?_
  exact (Forward.require "END").bind fun _ => (Forward.spanSince _).bind fun _ => .pure _

theorem statementWith_forward : (statementWith grammar statement).Forward := by
  refine .look fun cursor => ?_
  split
  · exact declaration_forward
  · exact branchWith_forward forward
  · exact switchWith_forward forward
  · exact loopWith_forward forward
  · exact result_forward
  · exact plainStatement_forward

end

theorem statement_forward : (statement grammar).Forward := by
  refine .bounded fun budget => ?_
  induction budget with
  | zero => exact .throw _
  | succ budget ih => exact statementWith_forward ih

/-! ## Programs -/

theorem global_forward : (global grammar).Forward := by
  refine Forward.next.bind fun keyword => (Forward.requireKind _ _).bind fun name => ?_
  refine (Forward.require ":").bind fun _ => Forward.typeName.bind fun type => ?_
  have close (initializer : Option Expr) : Forward (do
      let _ ← require ";"
      return (⟨← spanSince keyword.span.start, name.text, type,
        keyword.text = "LIST" || keyword.text = "VAR", initializer, none⟩ : Global)) :=
    (Forward.require ";").bind fun _ => (Forward.spanSince _).bind fun _ => .pure _
  refine .ite ?_ (.ite ?_ ?_)
  · refine (Forward.require "=").bind fun _ => ?_
    exact (listWith_forward anyExpression_forward).optional.bind close
  · exact (Forward.onlyAfter "=" anyExpression_forward).bind close
  · exact (Forward.require "=").bind fun _ => anyExpression_forward.optional.bind close

theorem parameter_forward : parameter.Forward := by
  refine (Forward.requireKind _ _).bind fun _ => (Forward.require ":").bind fun _ => ?_
  exact Forward.typeName.bind fun _ => .pure _

theorem function_forward : (function grammar).Forward := by
  refine (Forward.require "FUN").bind fun _ => (Forward.requireKind _ _).bind fun _ => ?_
  refine (Forward.require "(").bind fun _ => ?_
  refine (Forward.itemsUntil ")" parameter_forward).bind fun _ => ?_
  refine (Forward.onlyAfter ":" .typeName).bind fun _ => (Forward.require "DO").bind fun _ => ?_
  refine (blockWith_forward statement_forward _).bind fun _ => ?_
  exact (Forward.require "END").bind fun _ => (Forward.spanSince _).bind fun _ => .pure _

theorem program_forward : (program grammar).Forward := by
  refine (Forward.bounded (Forward.whileAtWithin _ global_forward)).bind fun _ => ?_
  refine (Forward.bounded (Forward.whileAtWithin _ function_forward)).bind fun _ => ?_
  exact .look fun _ => .ite (.pure _) (.fail _)

/-! ## Progress -/

/-- Whether a rule makes progress from every cursor: it comes to an end, with a value, with a report
or at a literal that cannot be cut; it only passes tokens; and when it reads something it has passed
one at least. -/
structure Progresses (rule : Parse α) : Prop where
  ends : rule.Ends
  fails : ∀ cursor halt after, rule cursor = .error halt after →
    (∃ diagnostic, halt = .reported diagnostic) ∨
      halt = .severed ∧ ∃ token ∈ cursor.ahead, token.Splits
  forward : rule.Forward
  consumes : ∀ cursor value after, rule cursor = .ok value after →
    after.ahead.length < cursor.ahead.length

theorem Progresses.of_safe {rule : Parse α} {good : α → Prop}
    (safe : ∀ bound, Safe (fun _ => True) bound 1 rule good) (forward : rule.Forward) :
    rule.Progresses :=
  ⟨Safe.ends safe, fun _ _ _ ran => (safe _).fails (Nat.lt_succ_self _) ran, forward,
    fun _ _ _ ran => Safe.shorter safe ran⟩

/-- Whether a repetition that may take more steps than there are tokens ahead comes to an end before
it has taken them. -/
def EndsInTokens (steps : Nat → Parse α) : Prop :=
  ∀ budget cursor, cursor.ahead.length < budget →
    ∀ after, steps budget cursor ≠ .error .exhausted after

theorem Safe.endsInTokens {least : Nat} {steps : Nat → Parse α} {good : α → Prop}
    (safe : ∀ bound budget, Safe (fun _ => True) (min bound budget) least (steps budget) good) :
    EndsInTokens steps := by
  intro budget cursor inside after
  have whole := safe budget budget
  rw [Nat.min_self] at whole
  exact whole.not_exhausted inside after

end Parse

open Parse in
/-- What progress comes to for a grammar: the rules for expressions, operands, statements, globals
and functions make progress, and so the repetitions and the nesting of rules come to an end in the
tokens ahead, whatever these are. -/
structure Grammar.Progressive (grammar : Grammar) : Prop where
  expression (power : Power) : (expression grammar power).Progresses
  operand : (operand grammar).Progresses
  statement : (statement grammar).Progresses
  global : (global grammar).Progresses
  function : (function grammar).Progresses
  nestedExpressions (power : Power) :
    EndsInTokens fun budget => expressionWithin grammar budget power
  nestedStatements : EndsInTokens (statementWithin grammar)
  operations (power : Power) (left : Expr) :
    EndsInTokens fun budget => chainWithin grammar (Parse.expression grammar) power budget left
  arguments : EndsInTokens (separatedWithin (anyExpression grammar))
  parameters : EndsInTokens (separatedWithin parameter)
  statements (terminators : List String) :
    EndsInTokens (blockWithin (Parse.statement grammar) terminators)
  cases : EndsInTokens (casesWithin grammar (Parse.statement grammar))
  globals (starts : List String) : EndsInTokens (whileAtWithin starts (Parse.global grammar))
  functions (starts : List String) : EndsInTokens (whileAtWithin starts (Parse.function grammar))
  program : (program grammar).Ends ∧ (program grammar).Forward

open Parse in
/-- Every grammar makes progress on every list of tokens, from every cursor. -/
theorem Grammar.progressive (grammar : Grammar) : grammar.Progressive where
  expression power := .of_safe (fun _ => expression_safe power) (expression_forward power)
  operand := .of_safe (fun _ => operandWith_safe anyExpression_safe.fewer)
    (operandWith_forward anyExpression_forward)
  statement := .of_safe (fun _ => statement_safe) statement_forward
  global := .of_safe (fun _ => global_safe) global_forward
  function := .of_safe (fun _ => function_safe) function_forward
  nestedExpressions power := Safe.endsInTokens fun bound budget =>
    (expressionWithin_safe budget power).narrow (Nat.min_le_right bound budget)
  nestedStatements := Safe.endsInTokens fun bound budget =>
    (statementWithin_safe budget).narrow (Nat.min_le_right bound budget)
  operations power left := Safe.endsInTokens fun _ budget =>
    chainWithin_safe expression_safe power budget left.placed_anywhere
  arguments := Safe.endsInTokens fun _ => Safe.separatedWithin anyExpression_safe.fewer
  parameters := Safe.endsInTokens fun _ => Safe.separatedWithin parameter_safe.fewer
  statements _ := Safe.endsInTokens fun _ => blockWithin_safe statement_safe
  cases := Safe.endsInTokens fun _ => casesWithin_safe statement_safe
  globals _ := Safe.endsInTokens fun _ => Safe.whileAtWithin global_safe
  functions _ := Safe.endsInTokens fun _ => Safe.whileAtWithin function_safe
  program := ⟨Safe.ends fun _ => program_safe, program_forward⟩

end GradualScript
