import GradualScript.Proofs.Grammar.Soundness

/-!
# Expressions by precedence

What it means that some tokens spell an expression, and that an expression is nested as the levels
of its operators ask for. Spelling leaves the nesting of operators open: `a + b * c` is spelled by
the same tokens whichever operator stands above the other. The levels settle it.

What is read as an expression is spelled by the tokens that were passed and nested by level, and the
tokens behind it do not go on with an operator above the power that was asked for.
-/

namespace GradualScript

namespace Operator

/-- The level of an operator: the higher, the tighter it holds its operands. -/
def level : Operator → Nat
  | and | or => 1
  | equal | notEqual => 2
  | less | lessEqual | greater | greaterEqual => 3
  | add | subtract => 4
  | multiply | divide | power => 5

/-- Whether tokens are the sign of an operator: a single token, or an order sign with an equals sign
right behind it. -/
inductive WrittenAs : Operator → List Token → Prop
  | one {operator : Operator} {token : Token} (isOperator : token.kind = .operator)
      (text_eq : token.text = operator.symbol) : WrittenAs operator [token]
  | two {operator : Operator} {token equals : Token} (isOperator : token.kind = .operator)
      (orEqual : Grammar.orEqual? token = some operator)
      (behind : Grammar.isEqualsBehind token equals = true) : WrittenAs operator [token, equals]

end Operator

/-- Whether a token is a name, and no literal. -/
structure Token.Names (token : Token) (name : String) : Prop where
  kind_eq : token.kind = .identifier
  text_eq : token.text = name
  notLiteral : name ∉ ["NIL", "TRUE", "FALSE"]

/-- Whether what stands between the parentheses of a call does not start with a token that is
written as the parenthesis that closes it. -/
def Written.Unclosed (arguments : List Token) : Prop := startsWith arguments ")" = false

namespace Expr

mutual

/-- Whether an expression, read from left to right, is the given tokens. Of those between the
parentheses of a call more may be asked for. -/
def Spelled (inside : List Token → Prop) : Expr → List Token → Prop
  | .literal _ _ value, tokens =>
    ∃ token, tokens = [token] ∧ Parse.literal? token = some (.ok value)
  | .group _ _ inner, tokens =>
    ∃ opener body closer, tokens = opener :: (body ++ [closer]) ∧ opener.kind = .operator ∧
      opener.text = "(" ∧ inner.Spelled inside body ∧ closer.reads ")" = true
  | .binary _ _ operator left right, tokens =>
    ∃ first sign last, tokens = first ++ (sign ++ last) ∧ left.Spelled inside first ∧
      operator.WrittenAs sign ∧ right.Spelled inside last
  | .access _ _ name _, tokens => ∃ token, tokens = [token] ∧ token.Names name
  | .element _ _ name _ offset, tokens =>
    ∃ token opener body closer, tokens = token :: opener :: (body ++ [closer]) ∧
      token.Names name ∧ opener.reads "[" = true ∧ offset.Spelled inside body ∧
      closer.reads "]" = true
  | .call _ _ name _ arguments, tokens =>
    ∃ token opener body closer, tokens = token :: opener :: (body ++ [closer]) ∧
      token.Names name ∧ opener.reads "(" = true ∧ AllSpelled inside arguments body ∧
      inside body ∧ closer.reads ")" = true
  | .list _ _ _, _ => False

/-- Whether expressions are the given tokens, with commas between them. -/
def AllSpelled (inside : List Token → Prop) : List Expr → List Token → Prop
  | [], tokens => tokens = []
  | [expr], tokens => expr.Spelled inside tokens
  | expr :: next :: others, tokens =>
    ∃ first comma rest, tokens = first ++ comma :: rest ∧ expr.Spelled inside first ∧
      comma.reads "," = true ∧ AllSpelled inside (next :: others) rest

end

/-- The operator of an operation. -/
def operator? : Expr → Option Operator
  | .binary _ _ operator _ _ => some operator
  | _ => none

/-- Whether an expression is no operation, or one above a level. -/
def Above (expr : Expr) (level : Nat) : Prop :=
  ∀ operator, expr.operator? = some operator → level < operator.level

mutual

/-- Whether the left operand of each operation is no operation of a lower level, and the right
operand is none of the same or a lower level. -/
def Graded : Expr → Prop
  | .literal _ _ _ => True
  | .group _ _ inner => inner.Graded
  | .binary _ _ operator left right =>
    left.Graded ∧ right.Graded ∧
      (∀ other, left.operator? = some other → operator.level ≤ other.level) ∧
      right.Above operator.level
  | .access _ _ _ _ => True
  | .element _ _ _ _ offset => offset.Graded
  | .call _ _ _ _ arguments => AllGraded arguments
  | .list _ _ elements => AllGraded elements

/-- Whether this is so in each of some expressions. -/
def AllGraded : List Expr → Prop
  | [] => True
  | expr :: others => expr.Graded ∧ AllGraded others

end

end Expr

namespace Written

/-- Whether tokens do not go on with an operator above a level. -/
def Stops (level : Nat) (tokens : List Token) : Prop :=
  ∀ (operator : Operator) sign rest, tokens = sign ++ rest → operator.WrittenAs sign →
    operator.level ≤ level

/-- An operand. -/
def Operand : Rule Expr := fun tokens expr rest =>
  ∃ consumed, tokens = consumed ++ rest ∧ expr.Spelled Unclosed consumed ∧ expr.Graded ∧
    expr.operator? = none

/-- An expression above a level, up to where it cannot go on. -/
def Climbing (level : Nat) : Rule Expr := fun tokens expr rest =>
  ∃ consumed, tokens = consumed ++ rest ∧ expr.Spelled Unclosed consumed ∧ expr.Graded ∧
    expr.Above level ∧ Stops level rest

/-- Arguments are spelled up to the token that closes them. -/
theorem Separated.spelled {level : Nat} {tokens rest : List Token} {values : List Expr}
    (written : Separated (Climbing level) tokens values rest) :
    ∃ body, tokens = body ++ rest ∧ Expr.AllSpelled Unclosed values body ∧
      Expr.AllGraded values := by
  induction written with
  | last written =>
      rcases written with ⟨consumed, rfl, spelled, graded, _⟩
      exact ⟨consumed, rfl, spelled, graded, trivial⟩
  | @more tokens middle rest comma value others written separates further ih =>
      rcases written with ⟨consumed, rfl, spelled, graded, _⟩
      rcases ih with ⟨body, rfl, othersSpelled, othersGraded⟩
      refine ⟨consumed ++ comma :: body, by simp, ?_, graded, othersGraded⟩
      cases further <;> exact ⟨consumed, comma, body, rfl, spelled, separates, othersSpelled⟩

theorem Items.spelled {level : Nat} {closer : String} {token : Token} {tokens rest : List Token}
    {values : List Expr} (written : Items closer (Climbing level) token tokens values rest) :
    ∃ body, tokens = body ++ token :: rest ∧ Expr.AllSpelled Unclosed values body ∧
      Expr.AllGraded values ∧ startsWith body closer = false ∧ token.reads closer = true := by
  cases written with
  | none closes => exact ⟨[], rfl, rfl, trivial, rfl, closes⟩
  | some notClosed written closes =>
      rcases written.spelled with ⟨body, rfl, spelled, graded⟩
      refine ⟨body, rfl, spelled, graded, ?_, closes⟩
      cases body with
      | nil => rfl
      | cons first others => exact notClosed

end Written

namespace Grammar

open Written

variable {cursor : Cursor} {operator : Operator}

theorem symbol_of_operator? {symbol : String}
    (found : standard.operator? symbol = some operator) : operator.symbol = symbol := by
  rw [operator?] at found
  simpa using List.find?_some found

theorem operator?_symbol (operator : Operator) :
    standard.operator? operator.symbol = some operator := by
  cases operator <;> decide

theorem rank_powerOf (operator : Operator) :
    (standard.powerOf operator).rank = operator.level := by
  cases operator <;> rfl

/-- An equals sign behind an order sign does not change the level. -/
theorem level_of_orEqual? {token : Token} {wide : Operator} (isWide : orEqual? token = some wide)
    (text_eq : token.text = operator.symbol) : wide.level = operator.level := by
  cases operator <;> simp [orEqual?, text_eq, Operator.symbol] at isWide <;> rw [← isWide] <;> rfl

/-- The operator at a cursor is written there. -/
theorem operatorAt?_written {width : Nat}
    (found : standard.operatorAt? cursor = some (operator, width)) :
    ∃ sign rest, cursor.ahead = sign ++ rest ∧ sign.length = width ∧ operator.WrittenAs sign := by
  rcases cursor with ⟨passed, _ | ⟨token, tokens⟩, file⟩
  · cases found
  · simp only [operatorAt?, ne_eq, ite_not] at found
    split at found
    · rename_i isOperator
      split at found
      · rename_i wide isWide
        cases found
        split at isWide
        · rename_i behind
          rcases tokens with _ | ⟨equals, rest⟩
          · cases behind
          · exact ⟨[token, equals], rest, rfl, rfl, .two isOperator isWide behind⟩
        · cases isWide
      · rcases Option.map_eq_some_iff.mp found with ⟨_, narrow, same⟩
        cases same
        exact ⟨[token], tokens, rfl, rfl, .one isOperator (symbol_of_operator? narrow).symm⟩
    · cases found

/-- Where an operator is written, an operator of its level is found. -/
theorem exists_operatorAt? {sign rest : List Token} (ahead : cursor.ahead = sign ++ rest)
    (written : operator.WrittenAs sign) :
    ∃ found width, standard.operatorAt? cursor = some (found, width) ∧
      found.level = operator.level := by
  cases written with
  | two isOperator orEqual behind =>
      refine ⟨operator, 2, ?_, rfl⟩
      simp [operatorAt?, ahead, isOperator, behind, orEqual]
  | one isOperator text_eq =>
      simp only [operatorAt?, ahead, List.cons_append, List.nil_append, isOperator, ne_eq,
        not_true_eq_false, if_false]
      split
      · rename_i wide isWide
        split at isWide
        · exact ⟨wide, 2, rfl, level_of_orEqual? isWide text_eq⟩
        · cases isWide
      · exact ⟨operator, 1, by rw [text_eq, operator?_symbol]; rfl, rfl⟩

/-- The tokens ahead go on with an operator above a level exactly if one is found. -/
theorem stops_iff {level : Nat} :
    Stops level cursor.ahead ↔
      ∀ operator width, standard.operatorAt? cursor = some (operator, width) →
        operator.level ≤ level := by
  constructor
  · intro stops operator width found
    rcases operatorAt?_written found with ⟨sign, rest, ahead, _, written⟩
    exact stops operator sign rest ahead written
  · intro none operator sign rest ahead written
    rcases exists_operatorAt? ahead written with ⟨other, width, found, sameLevel⟩
    rw [← sameLevel]
    exact none other width found

end Grammar

namespace Parse

open Written

variable {cursor after : Cursor} {expr : Expr}

theorem ahead_skip (cursor : Cursor) (sign rest : List Token)
    (ahead : cursor.ahead = sign ++ rest) : (cursor.skip sign.length).ahead = rest := by
  induction sign generalizing cursor with
  | nil => exact ahead
  | cons token sign ih =>
      rcases cursor with ⟨passed, tokens, file⟩
      cases ahead
      exact ih _ rfl

section

variable {expression : Parse Expr} (follows : expression.Follows (Climbing 0))

include follows

theorem named_operand {token : Token} {tokens : List Token}
    (ahead : cursor.ahead = token :: tokens) (isName : token.kind = .identifier)
    (notLiteral : literal? token = none) (ran : named expression cursor = .ok expr after) :
    Operand cursor.ahead expr after.ahead := by
  have names : token.Names token.text := by
    refine ⟨isName, rfl, ?_⟩
    intro isLiteral
    simp only [List.mem_cons, List.not_mem_nil, or_false] at isLiteral
    rcases isLiteral with text_eq | text_eq | text_eq <;>
      simp [literal?, isName, text_eq] at notLiteral
  rw [named, bind_eq_ok_iff] at ran
  rcases ran with ⟨_, _, passes, ran⟩
  rcases next_eq_ok_iff.mp passes with ⟨_, sameAhead, rfl⟩
  rw [ahead] at sameAhead
  cases sameAhead
  rw [ahead]
  rcases accept_eq_ok_iff.mp ran with ⟨opener, rest, opened, opens, ran⟩ | ⟨_, ran⟩
  · simp only [bind_eq_ok_iff, spanSince_eq_ok_iff, pure_eq_ok_iff] at ran
    rcases ran with ⟨arguments, _, read, _, _, ⟨rfl, rfl⟩, rfl, rfl⟩
    rcases itemsUntil_written follows read with ⟨closer, _, written⟩
    rcases written.spelled with ⟨body, bodyAhead, spelled, graded, notClosed, closes⟩
    cases opened
    refine ⟨token :: opener :: (body ++ [closer]), ?_, ?_, graded, rfl⟩
    · simpa using bodyAhead
    · exact ⟨token, opener, body, closer, rfl, names, opens, spelled, notClosed, closes⟩
  · rcases accept_eq_ok_iff.mp ran with ⟨opener, rest, opened, opens, ran⟩ | ⟨_, ran⟩
    · simp only [bind_eq_ok_iff, require_eq_ok_iff, spanSince_eq_ok_iff, pure_eq_ok_iff] at ran
      rcases ran with ⟨offset, _, read, closer, _, ⟨_, closed, closes, rfl⟩, _, _, ⟨rfl, rfl⟩, rfl,
        rfl⟩
      rcases follows _ _ _ read with ⟨body, bodyAhead, spelled, graded, _⟩
      rw [closed] at bodyAhead
      cases opened
      refine ⟨token :: opener :: (body ++ [closer]), ?_, ?_, graded, rfl⟩
      · simpa using bodyAhead
      · exact ⟨token, opener, body, closer, rfl, names, opens, spelled, closes⟩
    · rcases pure_eq_ok_iff.mp ran with ⟨rfl, rfl⟩
      exact ⟨[token], rfl, ⟨token, rfl, names⟩, trivial, rfl⟩

theorem groupWith_operand {token : Token} {tokens : List Token}
    (ahead : cursor.ahead = token :: tokens) (isOperator : token.kind = .operator)
    (ran : groupWith expression cursor = .ok expr after) :
    Operand cursor.ahead expr after.ahead := by
  simp only [groupWith, bind_eq_ok_iff, require_eq_ok_iff, spanSince_eq_ok_iff, pure_eq_ok_iff,
    ahead, List.cons.injEq] at ran
  rcases ran with ⟨opener, _, ⟨_, ⟨rfl, rfl⟩, opens, rfl⟩, inner, _, read, closer, _,
    ⟨_, closed, closes, rfl⟩, _, _, ⟨rfl, rfl⟩, rfl, rfl⟩
  rcases follows _ _ _ read with ⟨body, bodyAhead, spelled, graded, _⟩
  rw [closed] at bodyAhead
  have text_eq : token.text = "(" := by simp_all [Token.reads]
  refine ⟨token :: (body ++ [closer]), ?_, ?_, graded, rfl⟩
  · simpa [ahead] using bodyAhead
  · exact ⟨token, body, closer, rfl, isOperator, text_eq, spelled, closes⟩

theorem operandWith_follows : (operandWith expression).Follows Operand := by
  intro cursor after expr ran
  rw [operandWith, look_eq_ok_iff] at ran
  rcases ahead : cursor.ahead with _ | ⟨token, tokens⟩
  · rw [ahead] at ran
    cases ran
  rw [ahead] at ran
  simp only at ran
  cases found : literal? token with
  | some literal =>
      simp only [found, bind_eq_ok_iff, next_eq_ok_iff, ahead, List.cons.injEq] at ran
      rcases ran with ⟨_, _, ⟨_, ⟨rfl, rfl⟩, rfl⟩, ran⟩
      cases literal with
      | error diagnostic => cases ran
      | ok value =>
          rcases pure_eq_ok_iff.mp ran with ⟨rfl, rfl⟩
          exact ⟨[token], rfl, ⟨token, rfl, found⟩, trivial, rfl⟩
  | none =>
      simp only [found] at ran
      rw [← ahead]
      split at ran
      · rename_i isName
        exact named_operand follows ahead isName found ran
      · rename_i notName
        split at ran
        · rename_i text_eq
          have isOperator : token.kind = .operator := by
            revert found
            cases kind_eq : token.kind <;> grind [literal?]
          exact groupWith_operand follows ahead isOperator ran
        · cases ran

end

section

variable {expression : Power → Parse Expr}
  (follows : ∀ power, (expression power).Follows (Climbing power.rank))

include follows

theorem operationWith_written {operator : Operator} {width : Nat} {left : Expr} {power : Power}
    (found : Grammar.standard.operatorAt? cursor = some (operator, width))
    (ran : operationWith .standard expression left power cursor = .ok expr after) :
    ∃ span right sign last, expr = .binary span none operator left right ∧
      cursor.ahead = sign ++ (last ++ after.ahead) ∧ operator.WrittenAs sign ∧
      right.Spelled Unclosed last ∧ right.Graded ∧ right.Above power.rank ∧
      Stops power.rank after.ahead := by
  rw [operationWith, look_eq_ok_iff] at ran
  simp only [found] at ran
  rcases bind_eq_ok_iff.mp ran with ⟨_, _, skipped, ran⟩
  cases skipped
  rcases bind_eq_ok_iff.mp ran with ⟨right, _, read, ran⟩
  rcases pure_eq_ok_iff.mp ran with ⟨rfl, rfl⟩
  rcases Grammar.operatorAt?_written found with ⟨sign, rest, ahead, rfl, written⟩
  rcases follows _ _ _ _ read with ⟨last, lastAhead, further⟩
  rw [ahead_skip cursor sign rest ahead] at lastAhead
  exact ⟨_, right, sign, last, rfl, by rw [ahead, lastAhead], written, further⟩

/-- The chain of operators after an expression. The invariant is that the last operator of the
expression is at least as high as the one that comes next. -/
theorem chainWithin_climbs {power : Power} {budget : Nat} {left : Expr} {first : List Token}
    (spelled : left.Spelled Unclosed first) (graded : left.Graded) (above : left.Above power.rank)
    (fits : ∀ operator, left.operator? = some operator → Stops operator.level cursor.ahead)
    (ran : chainWithin .standard expression power budget left cursor = .ok expr after) :
    ∃ consumed, cursor.ahead = consumed ++ after.ahead ∧ expr.Spelled Unclosed (first ++ consumed) ∧
      expr.Graded ∧ expr.Above power.rank ∧ Stops power.rank after.ahead := by
  induction budget generalizing left first cursor with
  | zero => cases ran
  | succ budget ih =>
      have done (stops : Stops power.rank cursor.ahead) :
          ∃ consumed, cursor.ahead = consumed ++ cursor.ahead ∧
            left.Spelled Unclosed (first ++ consumed) ∧ left.Graded ∧ left.Above power.rank ∧ Stops power.rank cursor.ahead :=
        ⟨[], rfl, by rwa [List.append_nil], graded, above, stops⟩
      rw [chainWithin, look_eq_ok_iff] at ran
      cases found : Grammar.standard.operatorAt? cursor with
      | none =>
          rw [found] at ran
          rcases pure_eq_ok_iff.mp ran with ⟨rfl, rfl⟩
          exact done (Grammar.stops_iff.mpr (by simp [found]))
      | some pair =>
          rcases pair with ⟨operator, width⟩
          simp only [found] at ran
          have own := Grammar.rank_powerOf operator
          split at ran
          · rename_i higher
            rcases bind_eq_ok_iff.mp ran with ⟨binary, middle, operated, ran⟩
            rcases operationWith_written follows found operated with
              ⟨span, right, sign, last, rfl, ahead, written, rightSpelled, rightGraded,
                rightAbove, stops⟩
            rw [own] at rightAbove stops
            have higherLevel : power.rank < operator.level := own ▸ higher
            -- `left` went as far as its own last operator allowed, so what comes next is no higher.
            have nested : ∀ other, left.operator? = some other → operator.level ≤ other.level :=
              fun other isOperator => fits other isOperator operator sign _ ahead written
            have binarySpelled : (Expr.binary span none operator left right).Spelled Unclosed
                (first ++ (sign ++ last)) :=
              ⟨first, sign, last, rfl, spelled, written, rightSpelled⟩
            rcases ih binarySpelled ⟨graded, rightGraded, nested, rightAbove⟩
              (by rintro _ ⟨⟩; exact higherLevel) (by rintro _ ⟨⟩; exact stops) ran with
              ⟨more, moreAhead, further⟩
            refine ⟨sign ++ last ++ more, ?_, ?_⟩
            · simp [ahead, moreAhead]
            · simpa using further
          · rename_i notHigher
            rcases pure_eq_ok_iff.mp ran with ⟨rfl, rfl⟩
            refine done (Grammar.stops_iff.mpr ?_)
            intro other otherWidth otherFound
            rw [found] at otherFound
            cases otherFound
            rw [← own]
            exact Nat.le_of_not_lt notHigher

end

theorem expressionWithin_climbs (budget : Nat) (power : Power) :
    (expressionWithin .standard budget power).Follows (Climbing power.rank) := by
  induction budget generalizing power with
  | zero =>
      intro cursor after expr ran
      cases ran
  | succ budget ih =>
      intro cursor after expr ran
      rw [expressionWithin, bind_eq_ok_iff] at ran
      rcases ran with ⟨left, middle, operand, ran⟩
      rcases operandWith_follows (ih .loosest) _ _ _ operand with
        ⟨first, ahead, spelled, graded, noOperation⟩
      rcases chainWithin_climbs ih spelled graded (by simp [Expr.Above, noOperation])
        (by simp [noOperation]) ran with ⟨more, moreAhead, further⟩
      exact ⟨first ++ more, by simp [ahead, moreAhead], further⟩

end Parse

end GradualScript
