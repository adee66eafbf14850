import GradualScript.Grammar.Program
import GradualScript.Proofs.Grammar.Progress

/-!
# The grammar is safe

Every rule of the grammar is safe in the sense of `Parse.Safe`: given as many steps as there are
tokens it comes to an end, a tree that it gives starts at places of the tokens throughout, what it
reports is at such a place, and it cuts a text inside a character only for a literal that leaves it
no choice.
-/

namespace GradualScript

namespace Parse

variable {places : Position → Prop} {bound : Nat} {grammar : Grammar}

/-! ## Expressions -/

theorem listWith_safe {expression : Parse Expr}
    (safe : Safe places (bound - 1) 0 expression (Expr.Placed places)) :
    Safe places bound 1 (listWith expression) (Expr.Placed places) := by
  refine (Safe.require "[").bind fun opener opened => ?_
  refine (Safe.itemsUntil safe).seq fun elements hold => ?_
  refine (Safe.spanSince opened.1).seq fun span placed => .pure ?_
  exact ⟨placed, Expr.allPlaced_iff.mpr hold⟩

theorem groupWith_safe {expression : Parse Expr}
    (safe : Safe places (bound - 1) 0 expression (Expr.Placed places)) :
    Safe places bound 1 (groupWith expression) (Expr.Placed places) := by
  refine (Safe.require "(").bind fun opener opened => safe.seq fun inner innerPlaced => ?_
  refine (Safe.require ")").seq fun _ _ => (Safe.spanSince opened.1).seq fun span placed => ?_
  exact .pure ⟨placed, innerPlaced⟩

theorem named_safe {expression : Parse Expr}
    (safe : Safe places (bound - 1) 0 expression (Expr.Placed places)) :
    Safe places bound 1 (named expression) (Expr.Placed places) := by
  refine Safe.next.bind fun token within => .accept ?_ (.accept ?_ (.pure within.1))
  · refine (Safe.itemsUntil (safe.narrow (by omega))).seq fun arguments hold => ?_
    refine (Safe.spanSince within.1).seq fun span placed => .pure ?_
    exact ⟨placed, Expr.allPlaced_iff.mpr hold⟩
  · refine (safe.narrow (by omega)).seq fun offset offsetPlaced => ?_
    refine (Safe.require "]").seq fun _ _ => (Safe.spanSince within.1).seq fun span placed => ?_
    exact .pure ⟨placed, offsetPlaced⟩

/-- What is wrong with a literal is wrong with its token. -/
theorem literal?_error {token : Token} {halt : Halt}
    (failed : literal? token = some (.error halt)) :
    (∃ cause, halt = .reported (.located cause token.span.start) ∧ cause.phase = .parsing) ∨
      halt = .severed ∧ token.Splits := by
  unfold literal? at failed
  split at failed
  · split at failed
    · cases failed
    · cases failed
      exact .inl ⟨_, rfl, rfl⟩
  · split at failed
    · cases failed
    · cases failed
      exact .inl ⟨_, rfl, rfl⟩
  · rename_i isCharacter
    split at failed
    · cases failed
    · cases failed
      exact .inl ⟨_, rfl, rfl⟩
    · rename_i unquoted
      cases failed
      exact .inr ⟨rfl, .inr isCharacter, Option.map_eq_none_iff.mp unquoted⟩
  · rename_i isString
    split at failed
    · cases failed
    · rename_i unquoted
      cases failed
      exact .inr ⟨rfl, .inl isString, Option.map_eq_none_iff.mp unquoted⟩
  · split at failed
    · cases failed
    · split at failed
      · cases failed
      · split at failed <;> cases failed
  · cases failed

/-- A literal is passed whether it can be read or not. -/
theorem operandWith_literal (expression : Parse Expr) (passed rest : List Token) (file : String)
    {token : Token} {literal : Except Halt Literal} (found : literal? token = some literal) :
    operandWith expression ⟨passed, token :: rest, file⟩ =
      match literal with
      | .ok value => .ok (.literal token.span none value) ⟨token :: passed, rest, file⟩
      | .error halt => .error halt ⟨token :: passed, rest, file⟩ := by
  unfold operandWith
  rw [look_apply]
  simp only [found]
  cases literal <;> rfl

theorem operandWith_other (expression : Parse Expr) (passed rest : List Token) (file : String)
    {token : Token} (found : literal? token = none) :
    operandWith expression ⟨passed, token :: rest, file⟩ =
      (if token.kind = .identifier then named expression
        else if token.text = "(" then groupWith expression
        else fail "expected expression") ⟨passed, token :: rest, file⟩ := by
  unfold operandWith
  rw [look_apply]
  simp only [found]

theorem operandWith_safe {expression : Parse Expr}
    (safe : Safe places (bound - 1) 0 expression (Expr.Placed places)) :
    Safe places bound 1 (operandWith expression) (Expr.Placed places) := by
  intro cursor within inside
  rcases cursor with ⟨passed, _ | ⟨token, rest⟩, file⟩
  · exact Safe.fail _ _ within inside
  · cases found : literal? token with
    | some literal =>
        have ran := operandWith_literal expression passed rest file found
        have placed := (within.ahead token (.head _)).1
        rcases within.skip 1 with ⟨skipped, suffix⟩
        rw [ran]
        cases literal with
        | ok value => exact .ok skipped suffix (by simp) placed
        | error halt =>
            rcases literal?_error found with ⟨cause, rfl, parsing⟩ | ⟨rfl, splits⟩
            · exact .error ⟨cause, _, rfl, parsing, placed⟩
            · exact .severed (.head _) splits
    | none =>
        have others : Safe places bound 1
            (if token.kind = .identifier then named expression
              else if token.text = "(" then groupWith expression
              else fail "expected expression") (Expr.Placed places) :=
          .ite (named_safe safe) (.ite (groupWith_safe safe) (.fail _))
        have ran := others _ within inside
        rwa [← operandWith_other expression passed rest file found] at ran

theorem operationWith_safe (grammar : Grammar) {expression : Power → Parse Expr} {left : Expr}
    (safe : ∀ power, Safe places bound 1 (expression power) (Expr.Placed places))
    (leftPlaced : left.Placed places) (power : Power) :
    Safe places bound 1 (operationWith grammar expression left power) (Expr.Placed places) := by
  refine Safe.look fun cursor _ => ?_
  split
  · exact .fail _
  · refine .skip _ ((safe power).bind fun right rightPlaced => .pure ?_)
    exact ⟨leftPlaced.start, leftPlaced, rightPlaced⟩

theorem chainWithin_safe {expression : Power → Parse Expr}
    (safe : ∀ power, Safe places bound 1 (expression power) (Expr.Placed places)) (power : Power)
    (budget : Nat) {left : Expr} (leftPlaced : left.Placed places) :
    Safe places (min bound budget) 0 (chainWithin grammar expression power budget left)
      (Expr.Placed places) := by
  induction budget generalizing left with
  | zero => exact .exhausted (by omega)
  | succ budget ih =>
      refine Safe.look fun cursor _ => ?_
      split
      · exact .pure leftPlaced
      · refine .ite ?_ (.pure leftPlaced)
        have operation := operationWith_safe grammar
          (fun power => (safe power).narrow (Nat.min_le_left bound (budget + 1))) leftPlaced
        refine (operation _).seq fun whole wholePlaced => ?_
        exact (ih wholePlaced).narrow (by omega)

theorem expressionWithin_safe (budget : Nat) (power : Power) :
    Safe places budget 1 (expressionWithin grammar budget power) (Expr.Placed places) := by
  induction budget generalizing power with
  | zero => exact .exhausted rfl
  | succ budget ih =>
      have inner := (ih .loosest).fewer
      refine (operandWith_safe inner).bind fun left leftPlaced => .bounded fun count => ?_
      exact chainWithin_safe ih power count leftPlaced

theorem anyExpression_safe :
    Safe places bound 1 (anyExpression grammar) (Expr.Placed places) :=
  .bounded fun budget => (expressionWithin_safe budget .loosest).narrow (Nat.min_le_right _ _)

/-! ## Statements -/

theorem plainStatement_safe :
    Safe places bound 1 (plainStatement grammar) (Stmt.Placed places) := by
  refine Safe.look fun cursor within => ?_
  refine anyExpression_safe.bind fun expr placed => .accept ?_ ?_
  · refine .ite ?_ (.report rfl placed.start)
    refine anyExpression_safe.seq fun value valuePlaced => (Safe.require ";").seq fun _ _ => ?_
    refine (Safe.spanSince within.position).seq fun span spanPlaced => .pure ?_
    exact ⟨spanPlaced, placed, valuePlaced⟩
  · refine (Safe.require ";").seq fun _ _ => ?_
    refine (Safe.spanSince within.position).seq fun span spanPlaced => .pure ?_
    exact ⟨spanPlaced, placed⟩

theorem blockWithin_safe {statement : Parse Stmt} {terminators : List String}
    (safe : Safe places bound 1 statement (Stmt.Placed places)) (budget : Nat) :
    Safe places (min bound budget) 0 (blockWithin statement terminators budget)
      (Stmt.AllPlaced places) := by
  induction budget with
  | zero => exact .exhausted (by omega)
  | succ budget ih =>
      refine Safe.look fun cursor _ => .ite (.pure trivial) (.ite (.fail _) ?_)
      have head := safe.narrow (Nat.min_le_left bound (budget + 1))
      have tail := ih.narrow (show min bound (budget + 1) - 1 ≤ min bound budget by omega)
      refine head.seq fun first placed => tail.seq fun rest restPlaced => ?_
      exact .pure ⟨placed, restPlaced⟩

theorem blockWith_safe {statement : Parse Stmt} {terminators : List String}
    (safe : Safe places bound 1 statement (Stmt.Placed places)) :
    Safe places bound 0 (blockWith statement terminators) (Stmt.AllPlaced places) :=
  .bounded (blockWithin_safe safe)

theorem declaration_safe : Safe places bound 1 (declaration grammar) (Stmt.Placed places) := by
  refine (Safe.require _).bind fun keyword within => (Safe.requireKind _ _).seq fun name _ => ?_
  refine (Safe.onlyAfter Safe.typeName.fewer).seq fun type _ => ?_
  refine (Safe.onlyAfter anyExpression_safe.fewer).seq fun initializer placed => ?_
  refine (Safe.require ";").seq fun _ _ => (Safe.spanSince within.1).seq fun span spanPlaced => ?_
  exact .pure ⟨spanPlaced, placed⟩

theorem result_safe : Safe places bound 1 (result grammar) (Stmt.Placed places) := by
  refine (Safe.require _).bind fun keyword within => anyExpression_safe.seq fun value placed => ?_
  refine (Safe.require ";").seq fun _ _ => (Safe.spanSince within.1).seq fun span spanPlaced => ?_
  exact .pure ⟨spanPlaced, placed⟩

section

variable {statement : Parse Stmt}
  (safe : Safe places (bound - 1) 1 statement (Stmt.Placed places))

include safe

theorem branchWith_safe :
    Safe places bound 1 (branchWith grammar statement) (Stmt.Placed places) := by
  refine (Safe.require _).bind fun keyword within => ?_
  refine anyExpression_safe.seq fun condition placed => (Safe.require "DO").seq fun _ _ => ?_
  refine (blockWith_safe (safe.narrow (by omega))).seq fun thenBody thenPlaced => ?_
  have close (elseBody : List Stmt) (elsePlaced : Stmt.AllPlaced places elseBody) :
      Safe places (bound - 1) 0 (do
        let _ ← require "END"
        return .branch (← spanSince keyword.span.start) condition thenBody elseBody)
        (Stmt.Placed places) := by
    refine (Safe.require "END").seq fun _ _ => ?_
    refine (Safe.spanSince within.1).seq fun span spanPlaced => ?_
    exact .pure ⟨spanPlaced, placed, thenPlaced, elsePlaced⟩
  refine .accept ?_ ?_
  · exact (blockWith_safe (safe.narrow (by omega))).seq fun elseBody elsePlaced =>
      (close elseBody elsePlaced).narrow (by omega)
  · have empty : Safe places (bound - 1) 0 (pure [] : Parse (List Stmt)) (Stmt.AllPlaced places) :=
      .pure trivial
    exact (empty.seq close).narrow (by omega)

theorem casesWithin_safe (budget : Nat) :
    Safe places (min bound budget) 0 (casesWithin grammar statement budget)
      (Cases.Placed places) := by
  induction budget with
  | zero => exact .exhausted (by omega)
  | succ budget ih =>
      refine Safe.look fun cursor _ => .ite ?_ ?_
      · refine Safe.next.seq fun keyword within => anyExpression_safe.seq fun value placed => ?_
        refine (Safe.require ":").seq fun _ _ => ?_
        refine (blockWith_safe (safe.narrow (by omega))).seq fun body bodyPlaced => ?_
        refine (Safe.spanSince within.1).seq fun span spanPlaced => ?_
        refine (ih.narrow (by omega)).seq fun others othersPlaced => .pure ?_
        exact ⟨spanPlaced, placed, bodyPlaced, othersPlaced⟩
      · refine (Safe.require "DEFAULT").seq fun keyword within => ?_
        refine (blockWith_safe (safe.narrow (by omega))).seq fun body bodyPlaced => ?_
        refine (Safe.spanSince within.1).seq fun span spanPlaced => .pure ?_
        exact ⟨spanPlaced, bodyPlaced⟩

theorem switchWith_safe :
    Safe places bound 1 (switchWith grammar statement) (Stmt.Placed places) := by
  refine (Safe.require _).bind fun keyword within => ?_
  refine anyExpression_safe.seq fun subject placed => ?_
  have arms : Safe places (bound - 1 - 1) 0 (bounded (casesWithin grammar statement))
      (Cases.Placed places) :=
    .bounded fun budget => (casesWithin_safe safe budget).narrow (by omega)
  refine arms.seq fun cases casesPlaced => (Safe.require "END").seq fun _ _ => ?_
  refine (Safe.spanSince within.1).seq fun span spanPlaced => .pure ?_
  exact ⟨spanPlaced, placed, casesPlaced⟩

theorem loopWith_safe :
    Safe places bound 1 (loopWith grammar statement) (Stmt.Placed places) := by
  refine (Safe.require _).bind fun keyword within => ?_
  refine anyExpression_safe.seq fun condition placed => (Safe.require "DO").seq fun _ _ => ?_
  refine (blockWith_safe (safe.narrow (by omega))).seq fun body bodyPlaced => ?_
  refine (Safe.require "END").seq fun _ _ => ?_
  refine (Safe.spanSince within.1).seq fun span spanPlaced => ?_
  exact .pure ⟨spanPlaced, placed, bodyPlaced⟩

theorem statementWith_safe :
    Safe places bound 1 (statementWith grammar statement) (Stmt.Placed places) := by
  refine Safe.look fun cursor _ => ?_
  split
  · exact declaration_safe
  · exact branchWith_safe safe
  · exact switchWith_safe safe
  · exact loopWith_safe safe
  · exact result_safe
  · exact plainStatement_safe

end

theorem statementWithin_safe (budget : Nat) :
    Safe places budget 1 (statementWithin grammar budget) (Stmt.Placed places) := by
  induction budget with
  | zero => exact .exhausted rfl
  | succ budget ih => exact statementWith_safe ih

theorem statement_safe : Safe places bound 1 (statement grammar) (Stmt.Placed places) :=
  .bounded fun budget => (statementWithin_safe budget).narrow (Nat.min_le_right _ _)

/-! ## Programs -/

theorem global_safe : Safe places bound 1 (global grammar) (Global.Placed places) := by
  refine Safe.next.bind fun keyword within => (Safe.requireKind _ _).seq fun name _ => ?_
  refine (Safe.require ":").seq fun _ _ => Safe.typeName.seq fun type _ => ?_
  have close (initializer : Option Expr) (placed : ∀ expr ∈ initializer, expr.Placed places) :
      Safe places (bound - 1 - 1 - 1 - 1) 0 (do
        let _ ← require ";"
        return (⟨← spanSince keyword.span.start, name.text, type,
          keyword.text = "LIST" || keyword.text = "VAR", initializer, none⟩ : Global))
        (Global.Placed places) := by
    refine (Safe.require ";").seq fun _ _ => ?_
    refine (Safe.spanSince within.1).seq fun span spanPlaced => ?_
    exact .pure ⟨spanPlaced, placed⟩
  refine .ite ?_ (.ite ?_ ?_)
  · refine (Safe.require "=").seq fun _ _ => ?_
    refine (listWith_safe anyExpression_safe.fewer).optional.seq fun initializer placed => ?_
    exact (close initializer placed).narrow (by omega)
  · exact (Safe.onlyAfter anyExpression_safe.fewer).seq close
  · refine (Safe.require "=").seq fun _ _ => ?_
    refine anyExpression_safe.optional.seq fun initializer placed => ?_
    exact (close initializer placed).narrow (by omega)

theorem parameter_safe : Safe places bound 1 parameter fun _ => True := by
  refine (Safe.requireKind _ _).bind fun _ _ => (Safe.require ":").seq fun _ _ => ?_
  exact Safe.typeName.seq fun _ _ => .pure trivial

theorem function_safe : Safe places bound 1 (function grammar) (Function.Placed places) := by
  refine (Safe.require "FUN").bind fun keyword within => ?_
  refine (Safe.requireKind _ _).seq fun name _ => (Safe.require "(").seq fun _ _ => ?_
  refine (Safe.itemsUntil parameter_safe.fewer).seq fun _ _ => ?_
  refine (Safe.onlyAfter Safe.typeName.fewer).seq fun _ _ => (Safe.require "DO").seq fun _ _ => ?_
  refine (blockWith_safe statement_safe).seq fun body bodyPlaced => ?_
  refine (Safe.require "END").seq fun _ _ => ?_
  refine (Safe.spanSince within.1).seq fun span spanPlaced => ?_
  exact .pure ⟨spanPlaced, bodyPlaced⟩

/-- Whatever the tokens are, reading a program from them comes to an end. -/
theorem program_safe : Safe places bound 0 (program grammar) (Program.Placed places) := by
  refine Safe.seq (.bounded (Safe.whileAtWithin global_safe)) fun globals globalsPlaced => ?_
  refine Safe.seq (.bounded (Safe.whileAtWithin function_safe)) fun functions functionsPlaced => ?_
  exact Safe.look fun cursor _ => .ite (.pure ⟨globalsPlaced, functionsPlaced⟩) (.fail _)

end Parse

namespace Program

variable {tokens : List Token} {file : String} {places : Position → Prop}

theorem program_lands (within : ∀ token ∈ tokens, token.Within places)
    (origin : places ⟨0, file⟩) :
    Parse.Lands places 0 (Program.Placed places) (.ofTokens tokens file)
      (Parse.program .standard (.ofTokens tokens file)) := by
  refine Parse.program_safe (.ofTokens tokens file) ⟨?_, within, origin⟩ (Nat.lt_succ_self _)
  simp [Cursor.ofTokens]

/-- The places of a program are those of its tokens. -/
theorem parse_placed (within : ∀ token ∈ tokens, token.Within places) (origin : places ⟨0, file⟩)
    {program : Program} (parsed : Program.parse tokens file = .ok program) :
    program.Placed places := by
  have lands := program_lands within origin
  unfold Program.parse at parsed
  split at parsed
  · rename_i ran
    cases parsed
    rw [ran] at lands
    cases lands with
    | ok _ _ _ placed => exact placed
  · cases parsed

/-- What is wrong with the tokens of a program is wrong at one of their places, or with a literal
that cannot be cut. -/
theorem parse_blames (within : ∀ token ∈ tokens, token.Within places) (origin : places ⟨0, file⟩)
    {halt : Halt} (failed : Program.parse tokens file = .error halt) :
    halt.Blames .parsing places ∨ halt = .severed ∧ ∃ token ∈ tokens, token.Splits := by
  have lands := program_lands within origin
  unfold Program.parse at failed
  split at failed
  · cases failed
  · rename_i ran
    cases failed
    rw [ran] at lands
    cases lands with
    | error blames => exact .inl blames
    | severed member splits => exact .inr ⟨rfl, _, member, splits⟩

end Program

end GradualScript
