import GradualScript.Proofs.Grammar.Locality
import GradualScript.Proofs.Grammar.Safety
import GradualScript.Proofs.Grammar.Written

/-!
# What is read was written

Whatever a parsing step reads is written in the tokens that it passes, by the rules of `Written`.
-/

namespace GradualScript

namespace Written

theorem heads_iff {token : Token} {keyword : Keyword} :
    heads token keyword ↔ Grammar.standard.keyword? token = some keyword := by
  have found (text : String) :
      Keyword.all.find? (·.text = text) = some keyword ↔ text = keyword.text := by
    constructor
    · intro found
      have named := List.find?_some found
      exact (of_decide_eq_true named).symm
    · rintro rfl
      cases keyword <;> decide
  by_cases isName : token.kind = .identifier
  · simp [heads, Grammar.keyword?, Grammar.standard, isName, found]
  · simp [heads, Grammar.keyword?, isName]

/-- An expression is at least one token long. -/
theorem Expression.shorter {tokens rest : List Token} {expr : Expr}
    (written : Expression tokens expr rest) : rest.length < tokens.length := by
  rcases written with ⟨after, read, rfl⟩
  exact Parse.Safe.shorter (fun _ => Parse.anyExpression_safe) read

theorem endOf_cons {statement : Stmt} {last : Token}
    (same : last.span.stop = statement.span.stop) (others : List Stmt) (before : Token) :
    endOf (statement :: others) before = endOf others last := by
  unfold endOf
  rcases others with _ | ⟨other, others⟩
  · simp [same]
  · simp [List.getLast?_cons]

end Written

namespace Parse

open Written

variable {α : Type} {rule : Rule α} {cursor after : Cursor}

/-- Whether what a step reads is written by a rule. -/
def Follows (step : Parse α) (rule : Rule α) : Prop :=
  ∀ cursor after value, step cursor = .ok value after → rule cursor.ahead value after.ahead

theorem anyExpression_follows : (anyExpression .standard).Follows Expression := by
  intro cursor after expr ran
  rcases anyExpression_fresh .standard cursor (.ofTokens cursor.ahead "") expr after rfl ran with
    ⟨other, read, twins⟩
  exact ⟨other, read, twins.1.symm⟩

theorem typeName_follows : typeName.Follows Name := by
  intro cursor after name ran
  rcases typeName_eq_ok_iff.mp ran with ⟨token, rest, ahead, isName, rfl, rfl⟩
  rw [ahead]
  exact .intro isName

theorem onlyAfter_follows {step : Parse α} (follows : step.Follows rule) (sign : String) :
    (onlyAfter sign step).Follows (Optional sign rule) := by
  intro cursor after found ran
  rw [onlyAfter, accept_eq_ok_iff] at ran
  rcases ran with ⟨token, rest, ahead, opens, ran⟩ | ⟨_, ran⟩
  · rcases map_eq_ok_iff.mp ran with ⟨value, read, rfl⟩
    rw [ahead]
    exact .present opens (follows _ _ _ read)
  · cases ran
    exact .absent

theorem separatedWithin_follows {item : Parse α} (follows : item.Follows rule) (budget : Nat) :
    (separatedWithin item budget).Follows (Separated rule) := by
  induction budget with
  | zero =>
      intro cursor after values ran
      cases ran
  | succ budget ih =>
      intro cursor after values ran
      rw [separatedWithin, bind_eq_ok_iff] at ran
      rcases ran with ⟨first, middle, read, ran⟩
      have written := follows _ _ _ read
      rcases accept_eq_ok_iff.mp ran with ⟨comma, rest, ahead, separates, ran⟩ | ⟨_, ran⟩
      · rcases bind_eq_ok_iff.mp ran with ⟨others, _, othersRead, ran⟩
        cases ran
        rw [ahead] at written
        exact .more written separates (ih _ _ _ othersRead)
      · cases ran
        exact .last written

/-- Items end with the token that closes them. -/
theorem itemsUntil_written {item : Parse α} (follows : item.Follows rule) {closer : String}
    {values : List α} (ran : itemsUntil closer item cursor = .ok values after) :
    ∃ token, after.passed.head? = some token ∧
      Items closer rule token cursor.ahead values after.ahead := by
  rw [itemsUntil, look_eq_ok_iff] at ran
  simp only at ran
  split at ran
  · rename_i isAt
    rcases bind_eq_ok_iff.mp ran with ⟨_, _, empty, ran⟩
    cases empty
    rcases bind_eq_ok_iff.mp ran with ⟨token, _, closed, ran⟩
    rcases require_eq_ok_iff.mp closed with ⟨rest, ahead, closes, rfl⟩
    cases ran
    rw [ahead]
    exact ⟨token, rfl, .none closes⟩
  · rename_i notAt
    rcases bind_eq_ok_iff.mp ran with ⟨items, middle, read, ran⟩
    rcases bind_eq_ok_iff.mp ran with ⟨token, _, closed, ran⟩
    rcases require_eq_ok_iff.mp closed with ⟨rest, ahead, closes, rfl⟩
    cases ran
    have written := separatedWithin_follows follows _ _ _ _ read
    rw [ahead] at written
    exact ⟨token, rfl, .some (Bool.of_not_eq_true notAt) written closes⟩

/-! ## Statements -/

/-- Whether what a step reads is a statement that ends with the token passed last. -/
def FollowsStatement (step : Parse Stmt) : Prop :=
  ∀ cursor after statement, step cursor = .ok statement after →
    Statement cursor.ahead statement after.ahead ∧
      after.passed.head?.map (·.span.stop) = some statement.span.stop

theorem exists_of_keyword {keyword : Keyword}
    (found : cursor.ahead.head?.bind Grammar.standard.keyword? = some keyword) :
    ∃ token rest, cursor.ahead = token :: rest ∧ heads token keyword := by
  rcases cursor with ⟨passed, _ | ⟨token, rest⟩, file⟩
  · cases found
  · exact ⟨token, rest, rfl, heads_iff.mpr found⟩

section

variable {statement : Stmt}

theorem declaration_written {keyword : Token} {tokens : List Token}
    (ahead : cursor.ahead = keyword :: tokens) (isKeyword : heads keyword .declaration)
    (ran : declaration .standard cursor = .ok statement after) :
    Statement cursor.ahead statement after.ahead ∧
      after.passed.head?.map (·.span.stop) = some statement.span.stop := by
  simp only [declaration, bind_eq_ok_iff, require_eq_ok_iff, requireKind_eq_ok_iff,
    spanSince_eq_ok_iff, pure_eq_ok_iff, ahead, List.cons.injEq] at ran
  rcases ran with ⟨_, _, ⟨_, ⟨rfl, rfl⟩, _, rfl⟩, name, _, ⟨_, nameAhead, isName, rfl⟩, type, _,
    typed, initializer, _, initialized, semicolon, _, ⟨rest, semicolonAhead, ends, rfl⟩, _, _,
    ⟨rfl, rfl⟩, rfl, rfl⟩
  have typeWritten := onlyAfter_follows typeName_follows _ _ _ _ typed
  have initialWritten := onlyAfter_follows anyExpression_follows _ _ _ _ initialized
  simp only at nameAhead
  rw [semicolonAhead] at initialWritten
  rw [ahead, nameAhead]
  exact ⟨.declaration isKeyword isName typeWritten initialWritten ends, rfl⟩

theorem result_written {keyword : Token} {tokens : List Token}
    (ahead : cursor.ahead = keyword :: tokens) (isKeyword : heads keyword .result)
    (ran : result .standard cursor = .ok statement after) :
    Statement cursor.ahead statement after.ahead ∧
      after.passed.head?.map (·.span.stop) = some statement.span.stop := by
  simp only [result, bind_eq_ok_iff, require_eq_ok_iff, spanSince_eq_ok_iff, pure_eq_ok_iff, ahead,
    List.cons.injEq] at ran
  rcases ran with ⟨_, _, ⟨_, ⟨rfl, rfl⟩, _, rfl⟩, value, _, read, semicolon, _,
    ⟨rest, semicolonAhead, ends, rfl⟩, _, _, ⟨rfl, rfl⟩, rfl, rfl⟩
  have written := anyExpression_follows _ _ _ read
  rw [semicolonAhead] at written
  rw [ahead]
  exact ⟨.result isKeyword written ends, rfl⟩

theorem plainStatement_written
    (plain : cursor.ahead.head?.bind Grammar.standard.keyword? = none)
    (ran : plainStatement .standard cursor = .ok statement after) :
    Statement cursor.ahead statement after.ahead ∧
      after.passed.head?.map (·.span.stop) = some statement.span.stop := by
  rw [plainStatement, look_eq_ok_iff, bind_eq_ok_iff] at ran
  rcases ran with ⟨expr, middle, read, ran⟩
  have written := anyExpression_follows _ _ _ read
  rcases cursor with ⟨passed, _ | ⟨first, tokens⟩, file⟩
  · exact absurd written.shorter (Nat.not_lt_zero _)
  have noKeyword : ∀ keyword, ¬heads first keyword := by
    intro keyword headed
    rw [heads_iff] at headed
    simp [headed] at plain
  rcases accept_eq_ok_iff.mp ran with ⟨equals, rest, equalsAhead, assigns, ran⟩ | ⟨_, ran⟩
  · split at ran
    · rename_i isAccess
      simp only [bind_eq_ok_iff, require_eq_ok_iff, spanSince_eq_ok_iff, pure_eq_ok_iff] at ran
      rcases ran with ⟨value, _, valueRead, semicolon, _, ⟨_, semicolonAhead, ends, rfl⟩, _, _,
        ⟨rfl, rfl⟩, rfl, rfl⟩
      have valueWritten := anyExpression_follows _ _ _ valueRead
      rw [semicolonAhead] at valueWritten
      rw [equalsAhead] at written
      exact ⟨.assignment noKeyword written assigns isAccess valueWritten ends, rfl⟩
    · cases ran
  · simp only [bind_eq_ok_iff, require_eq_ok_iff, spanSince_eq_ok_iff, pure_eq_ok_iff] at ran
    rcases ran with ⟨semicolon, _, ⟨_, semicolonAhead, ends, rfl⟩, _, _, ⟨rfl, rfl⟩, rfl, rfl⟩
    rw [semicolonAhead] at written
    exact ⟨.expression noKeyword written ends, rfl⟩

section

variable {step : Parse Stmt} (follows : step.FollowsStatement)

include follows

/-- A block ends where its last statement ends, or where it starts. -/
theorem blockWith_written {terminators : List String} {body : List Stmt}
    (ran : blockWith step terminators cursor = .ok body after) :
    Block terminators cursor.ahead body after.ahead ∧
      ∀ start token, cursor.passed.head? = some token →
        after.spanSince start = ⟨start, endOf body token⟩ := by
  change blockWithin step terminators (cursor.ahead.length + 1) cursor = _ at ran
  generalize cursor.ahead.length + 1 = budget at ran
  induction budget generalizing cursor body with
  | zero => cases ran
  | succ budget ih =>
      rw [blockWithin, look_eq_ok_iff] at ran
      split at ran
      · rename_i terminated
        cases ran
        refine ⟨.done terminated, ?_⟩
        intro start token last
        unfold Cursor.spanSince
        split
        · rename_i passed
          rw [passed] at last
          cases last
          rfl
        · rename_i passed
          rw [passed] at last
          cases last
      · rename_i goesOn
        split at ran
        · cases ran
        · simp only [bind_eq_ok_iff, pure_eq_ok_iff] at ran
          rcases ran with ⟨statement, middle, read, others, _, othersRead, rfl, rfl⟩
          rcases follows _ _ _ read with ⟨written, ends⟩
          rcases ih othersRead with ⟨further, spans⟩
          refine ⟨.more (Bool.of_not_eq_true goesOn) written further, ?_⟩
          intro start token _
          rcases Option.map_eq_some_iff.mp ends with ⟨last, lastPassed, same⟩
          rw [spans start last lastPassed, endOf_cons same]

theorem branchWith_written {keyword : Token} {tokens : List Token}
    (ahead : cursor.ahead = keyword :: tokens) (isKeyword : heads keyword .branch)
    (ran : branchWith .standard step cursor = .ok statement after) :
    Statement cursor.ahead statement after.ahead ∧
      after.passed.head?.map (·.span.stop) = some statement.span.stop := by
  rw [branchWith, bind_eq_ok_iff] at ran
  rcases ran with ⟨_, _, started, ran⟩
  rcases require_eq_ok_iff.mp started with ⟨_, sameAhead, _, rfl⟩
  rw [ahead, List.cons.injEq] at sameAhead
  rcases sameAhead with ⟨rfl, rfl⟩
  rcases bind_eq_ok_iff.mp ran with ⟨condition, _, read, ran⟩
  rcases bind_eq_ok_iff.mp ran with ⟨opener, _, opened, ran⟩
  rcases require_eq_ok_iff.mp opened with ⟨_, openerAhead, opens, rfl⟩
  rcases bind_eq_ok_iff.mp ran with ⟨thenBody, _, thenRead, ran⟩
  have written := anyExpression_follows _ _ _ read
  have thenWritten := (blockWith_written follows thenRead).1
  rw [openerAhead] at written
  rw [ahead]
  rcases accept_eq_ok_iff.mp ran with ⟨divider, _, dividerAhead, divides, ran⟩ | ⟨_, ran⟩
  · simp only [bind_eq_ok_iff, require_eq_ok_iff, spanSince_eq_ok_iff, pure_eq_ok_iff] at ran
    rcases ran with ⟨elseBody, _, elseRead, closer, _, ⟨_, closerAhead, closes, rfl⟩, _, _,
      ⟨rfl, rfl⟩, rfl, rfl⟩
    have elseWritten := (blockWith_written follows elseRead).1
    rw [dividerAhead] at thenWritten
    rw [closerAhead] at elseWritten
    exact ⟨.branchElse isKeyword written opens thenWritten divides elseWritten closes, rfl⟩
  · simp only [bind_eq_ok_iff, require_eq_ok_iff, spanSince_eq_ok_iff, pure_eq_ok_iff] at ran
    rcases ran with ⟨_, _, ⟨rfl, rfl⟩, closer, _, ⟨_, closerAhead, closes, rfl⟩, _, _,
      ⟨rfl, rfl⟩, rfl, rfl⟩
    rw [closerAhead] at thenWritten
    exact ⟨.branch isKeyword written opens thenWritten closes, rfl⟩

theorem loopWith_written {keyword : Token} {tokens : List Token}
    (ahead : cursor.ahead = keyword :: tokens) (isKeyword : heads keyword .loop)
    (ran : loopWith .standard step cursor = .ok statement after) :
    Statement cursor.ahead statement after.ahead ∧
      after.passed.head?.map (·.span.stop) = some statement.span.stop := by
  simp only [loopWith, bind_eq_ok_iff, require_eq_ok_iff, spanSince_eq_ok_iff, pure_eq_ok_iff,
    ahead, List.cons.injEq] at ran
  rcases ran with ⟨_, _, ⟨_, ⟨rfl, rfl⟩, _, rfl⟩, condition, _, read, opener, _,
    ⟨_, openerAhead, opens, rfl⟩, body, _, bodyRead, closer, _, ⟨_, closerAhead, closes, rfl⟩, _, _,
    ⟨rfl, rfl⟩, rfl, rfl⟩
  have written := anyExpression_follows _ _ _ read
  have bodyWritten := (blockWith_written follows bodyRead).1
  rw [openerAhead] at written
  rw [closerAhead] at bodyWritten
  rw [ahead]
  exact ⟨.loop isKeyword written opens bodyWritten closes, rfl⟩

theorem casesWithin_written {budget : Nat} {cases : Cases}
    (ran : casesWithin .standard step budget cursor = .ok cases after) :
    Arms cursor.ahead cases after.ahead := by
  induction budget generalizing cursor cases with
  | zero => cases ran
  | succ budget ih =>
      rw [casesWithin, look_eq_ok_iff] at ran
      split at ran
      · rename_i isCase
        rcases Cursor.exists_of_isAt isCase with ⟨_, _, ahead, isKeyword⟩
        simp only [bind_eq_ok_iff, next_eq_ok_iff, require_eq_ok_iff, spanSince_eq_ok_iff,
          pure_eq_ok_iff, ahead, List.cons.injEq] at ran
        rcases ran with ⟨keyword, _, ⟨_, ⟨rfl, rfl⟩, rfl⟩, value, _, read, colon, _,
          ⟨_, colonAhead, opens, rfl⟩, body, _, bodyRead, _, _, ⟨rfl, rfl⟩, others, _, othersRead,
          rfl, rfl⟩
        have written := anyExpression_follows _ _ _ read
        rcases blockWith_written follows bodyRead with ⟨bodyWritten, spans⟩
        rw [colonAhead] at written
        rw [ahead, spans _ colon rfl]
        exact .case isKeyword written opens bodyWritten (ih othersRead)
      · simp only [bind_eq_ok_iff, require_eq_ok_iff, spanSince_eq_ok_iff, pure_eq_ok_iff] at ran
        rcases ran with ⟨keyword, _, ⟨_, ahead, isKeyword, rfl⟩, body, _, bodyRead, _, _,
          ⟨rfl, rfl⟩, rfl, rfl⟩
        rcases blockWith_written follows bodyRead with ⟨bodyWritten, spans⟩
        rw [ahead, spans _ keyword rfl]
        exact .default isKeyword bodyWritten

theorem switchWith_written {keyword : Token} {tokens : List Token}
    (ahead : cursor.ahead = keyword :: tokens) (isKeyword : heads keyword .switch)
    (ran : switchWith .standard step cursor = .ok statement after) :
    Statement cursor.ahead statement after.ahead ∧
      after.passed.head?.map (·.span.stop) = some statement.span.stop := by
  simp only [switchWith, bind_eq_ok_iff, require_eq_ok_iff, spanSince_eq_ok_iff, pure_eq_ok_iff,
    ahead, List.cons.injEq] at ran
  rcases ran with ⟨_, _, ⟨_, ⟨rfl, rfl⟩, _, rfl⟩, subject, _, read, cases, _, armsRead, closer, _,
    ⟨_, closerAhead, closes, rfl⟩, _, _, ⟨rfl, rfl⟩, rfl, rfl⟩
  have written := anyExpression_follows _ _ _ read
  have arms := casesWithin_written follows armsRead
  rw [closerAhead] at arms
  rw [ahead]
  exact ⟨.switch isKeyword written arms closes, rfl⟩

theorem statementWith_follows : (statementWith .standard step).FollowsStatement := by
  intro cursor after statement ran
  rw [statementWith, look_eq_ok_iff] at ran
  cases found : cursor.ahead.head?.bind Grammar.standard.keyword? with
  | none =>
      rw [found] at ran
      exact plainStatement_written found ran
  | some keyword =>
      rw [found] at ran
      rcases exists_of_keyword found with ⟨_, _, ahead, isKeyword⟩
      cases keyword with
      | declaration => exact declaration_written ahead isKeyword ran
      | branch => exact branchWith_written follows ahead isKeyword ran
      | switch => exact switchWith_written follows ahead isKeyword ran
      | loop => exact loopWith_written follows ahead isKeyword ran
      | result => exact result_written ahead isKeyword ran

end

end

theorem statementWithin_follows (budget : Nat) :
    (statementWithin .standard budget).FollowsStatement := by
  induction budget with
  | zero =>
      intro cursor after statement ran
      cases ran
  | succ budget ih => exact statementWith_follows ih

theorem statement_follows : (statement .standard).FollowsStatement := by
  intro cursor after statement ran
  exact statementWithin_follows _ cursor after statement ran

/-! ## Programs -/

theorem listWith_written {expr : Expr}
    (ran : list .standard cursor = .ok expr after) :
    ∃ opener closer tokens elements,
      cursor.ahead = opener :: tokens ∧ opener.reads "[" = true ∧
      expr = .list ⟨opener.span.start, closer.span.stop⟩ none elements ∧
      Items "]" Expression closer tokens elements after.ahead := by
  simp only [list, listWith, bind_eq_ok_iff, require_eq_ok_iff, spanSince_eq_ok_iff,
    pure_eq_ok_iff] at ran
  rcases ran with ⟨opener, _, ⟨tokens, ahead, opens, rfl⟩, elements, middle, read, _, _, ⟨rfl, rfl⟩,
    rfl, rfl⟩
  rcases itemsUntil_written anyExpression_follows read with ⟨closer, last, written⟩
  refine ⟨opener, closer, tokens, elements, ahead, opens, ?_, written⟩
  rcases middle with ⟨_ | ⟨_, passed⟩, _, _⟩
  · cases last
  · cases last
    rfl

theorem global_written {global : Global}
    (starts : cursor.isAtAny ["LIST", "VAR", "VAL"] = true)
    (ran : Parse.global .standard cursor = .ok global after) :
    OneGlobal cursor.ahead global after.ahead := by
  rw [Parse.global, bind_eq_ok_iff] at ran
  rcases ran with ⟨keyword, _, started, ran⟩
  rcases next_eq_ok_iff.mp started with ⟨_, keywordAhead, rfl⟩
  rcases bind_eq_ok_iff.mp ran with ⟨name, _, nameRead, ran⟩
  rcases requireKind_eq_ok_iff.mp nameRead with ⟨_, nameAhead, isName, rfl⟩
  rcases bind_eq_ok_iff.mp ran with ⟨colon, _, colonRead, ran⟩
  rcases require_eq_ok_iff.mp colonRead with ⟨_, colonAhead, separates, rfl⟩
  rcases bind_eq_ok_iff.mp ran with ⟨_, _, typeRead, ran⟩
  rcases typeName_eq_ok_iff.mp typeRead with ⟨type, _, typeAhead, isType, rfl, rfl⟩
  simp only at nameAhead colonAhead typeAhead
  rw [keywordAhead, nameAhead, colonAhead, typeAhead]
  have announced : keyword.reads "LIST" = true ∨ keyword.reads "VAR" = true ∨
      keyword.reads "VAL" = true := by
    simpa [Cursor.isAtAny, Cursor.isAt, keywordAhead] using starts
  have notText : keyword.kind ≠ .string := by
    rintro isText
    simp [Token.reads, isText] at announced
  simp only at ran
  split at ran
  · rename_i isList
    simp only [bind_eq_ok_iff, require_eq_ok_iff, map_eq_ok_iff, spanSince_eq_ok_iff,
      pure_eq_ok_iff] at ran
    rcases ran with ⟨equals, _, ⟨_, equalsAhead, assigns, rfl⟩, _, _, ⟨_, read, rfl⟩, semicolon, _,
      ⟨_, semicolonAhead, ends, rfl⟩, _, _, ⟨rfl, rfl⟩, rfl, rfl⟩
    rcases listWith_written read with
      ⟨opener, closer, tokens, elements, openerAhead, opens, rfl, written⟩
    simp only at equalsAhead openerAhead
    rw [semicolonAhead] at written
    rw [equalsAhead, openerAhead]
    have isKeyword : keyword.reads "LIST" = true := by simp [Token.reads, notText, isList]
    have global := OneGlobal.list isKeyword isName separates isType assigns opens written ends
    simpa [isList, Cursor.spanSince] using global
  · rename_i notList
    split at ran
    · rename_i isVariable
      simp only [bind_eq_ok_iff, require_eq_ok_iff, spanSince_eq_ok_iff, pure_eq_ok_iff] at ran
      rcases ran with ⟨initializer, _, read, semicolon, _, ⟨_, semicolonAhead, ends, rfl⟩, _, _,
        ⟨rfl, rfl⟩, rfl, rfl⟩
      have written := onlyAfter_follows anyExpression_follows _ _ _ _ read
      rw [semicolonAhead] at written
      have isKeyword : keyword.reads "VAR" = true := by simp [Token.reads, notText, isVariable]
      have global := OneGlobal.mutable isKeyword isName separates isType written ends
      simpa [isVariable, Cursor.spanSince] using global
    · rename_i notVariable
      simp only [bind_eq_ok_iff, require_eq_ok_iff, map_eq_ok_iff, spanSince_eq_ok_iff,
        pure_eq_ok_iff] at ran
      rcases ran with ⟨equals, _, ⟨_, equalsAhead, assigns, rfl⟩, _, _, ⟨_, read, rfl⟩, semicolon,
        _, ⟨_, semicolonAhead, ends, rfl⟩, _, _, ⟨rfl, rfl⟩, rfl, rfl⟩
      have written := anyExpression_follows _ _ _ read
      rw [semicolonAhead] at written
      rw [equalsAhead]
      have isKeyword : keyword.reads "VAL" = true := by
        simpa [Token.reads, notText, notList, notVariable] using announced
      have global := OneGlobal.constant isKeyword isName separates isType assigns written ends
      simpa [notList, notVariable, Cursor.spanSince] using global

theorem parameter_follows : parameter.Follows OneParameter := by
  intro cursor after parameter ran
  simp only [Parse.parameter, bind_eq_ok_iff, require_eq_ok_iff, requireKind_eq_ok_iff,
    typeName_eq_ok_iff, pure_eq_ok_iff] at ran
  rcases ran with ⟨name, _, ⟨_, nameAhead, isName, rfl⟩, colon, _, ⟨_, colonAhead, separates, rfl⟩,
    _, _, ⟨type, _, typeAhead, isType, rfl, rfl⟩, rfl, rfl⟩
  simp only at colonAhead typeAhead
  rw [nameAhead, colonAhead, typeAhead]
  exact .intro isName separates isType

theorem function_follows : (function .standard).Follows OneFunction := by
  intro cursor after function ran
  simp only [Parse.function, bind_eq_ok_iff, require_eq_ok_iff, requireKind_eq_ok_iff,
    spanSince_eq_ok_iff, pure_eq_ok_iff] at ran
  rcases ran with ⟨keyword, _, ⟨_, keywordAhead, isKeyword, rfl⟩, name, _,
    ⟨_, nameAhead, isName, rfl⟩, bracket, _, ⟨_, bracketAhead, brackets, rfl⟩, parameters, _,
    parametersRead, type, _, typed, opener, _, ⟨_, openerAhead, opens, rfl⟩, body, _, bodyRead,
    closer, _, ⟨_, closerAhead, closes, rfl⟩, _, _, ⟨rfl, rfl⟩, rfl, rfl⟩
  rcases itemsUntil_written parameter_follows parametersRead with ⟨closing, _, listed⟩
  have typeWritten := onlyAfter_follows typeName_follows _ _ _ _ typed
  have bodyWritten := (blockWith_written statement_follows bodyRead).1
  simp only at nameAhead bracketAhead
  rw [openerAhead] at typeWritten
  rw [closerAhead] at bodyWritten
  rw [keywordAhead, nameAhead, bracketAhead]
  exact .intro isKeyword isName brackets listed typeWritten opens bodyWritten closes

theorem whileAtWithin_written {starts : List String} {item : Parse α} {budget : Nat}
    {values : List α}
    (follows : ∀ cursor after value, cursor.isAtAny starts = true →
      item cursor = .ok value after → rule cursor.ahead value after.ahead)
    (ran : whileAtWithin starts item budget cursor = .ok values after) :
    Repeated rule cursor.ahead values after.ahead := by
  induction budget generalizing cursor values with
  | zero => cases ran
  | succ budget ih =>
      rw [whileAtWithin, look_eq_ok_iff] at ran
      split at ran
      · rename_i isAt
        simp only [bind_eq_ok_iff, pure_eq_ok_iff] at ran
        rcases ran with ⟨value, _, read, others, _, othersRead, rfl, rfl⟩
        exact .cons (follows _ _ _ isAt read) (ih othersRead)
      · cases ran
        exact .nil

/-- A program that is read is written in its tokens. -/
theorem program_written {program : Program}
    (ran : Parse.program .standard cursor = .ok program after) :
    Source cursor.ahead program := by
  simp only [Parse.program, bind_eq_ok_iff, bounded] at ran
  rcases ran with ⟨globals, middle, globalsRead, functions, last, functionsRead, ran⟩
  have globalsWritten := whileAtWithin_written (fun _ _ _ starts read => global_written starts read)
    globalsRead
  have functionsWritten := whileAtWithin_written
    (fun _ _ _ _ read => function_follows _ _ _ read) functionsRead
  rcases ran with ⟨_, _, looked, ran⟩
  cases looked
  rcases guarded_eq_ok_iff.mp ran with ⟨isDone, ended⟩
  cases ended
  rw [List.isEmpty_iff.mp isDone] at functionsWritten
  exact ⟨middle.ahead, globalsWritten, functionsWritten⟩

end Parse

end GradualScript
