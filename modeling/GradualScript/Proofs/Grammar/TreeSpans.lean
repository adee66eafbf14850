import GradualScript.Proofs.Grammar.Built
import GradualScript.Proofs.Grammar.Exactness
import GradualScript.Proofs.Grammar.Reading
import GradualScript.Proofs.Token.Decomposition
import GradualScript.Script

/-!
# Spans are the tokens they cover

Every node of a program that is read is built from a stretch of the tokens, and its span goes from
the start of the first of them to the end of the last one. Expressions are followed through the
steps that read them. For everything else the rules of `Written` already say where a piece starts
and ends.
-/

namespace GradualScript

open Piece (Assembled Listed Initial ofNodes)

namespace Written

variable {α : Type} {tokens rest : List Token}

/-- A piece with the tokens it is built from. -/
def Taking (built : α → List Token → Prop) : Rule α := fun tokens value rest =>
  ∃ consumed, tokens = consumed ++ rest ∧ built value consumed

/-- Whether an expression is built from tokens. -/
def BuiltExpr (expr : Expr) : List Token → Prop := (Node.expression expr).Built

/-- Whether statements are built from tokens, one after the other. -/
def BuiltBody (body : List Stmt) : List Token → Prop :=
  Assembled Node.Built (ofNodes (body.map .statement))

theorem Separated.imp {rule other : Rule α} {values : List α}
    (implies : ∀ tokens value rest, rule tokens value rest → other tokens value rest)
    (written : Separated rule tokens values rest) : Separated other tokens values rest := by
  induction written with
  | last written => exact .last (implies _ _ _ written)
  | more written separates _ ih => exact .more (implies _ _ _ written) separates ih

theorem Items.imp {rule other : Rule α} {closer : String} {token : Token} {values : List α}
    (implies : ∀ tokens value rest, rule tokens value rest → other tokens value rest)
    (written : Items closer rule token tokens values rest) :
    Items closer other token tokens values rest := by
  cases written with
  | none closes => exact .none closes
  | some notClosed written closes => exact .some notClosed (written.imp implies) closes

theorem Separated.listed {values : List Expr}
    (written : Separated (Taking BuiltExpr) tokens values rest) :
    ∃ pieces body, tokens = body ++ rest ∧ Listed values pieces ∧
      Assembled Node.Built pieces body := by
  induction written with
  | last written =>
      rcases written with ⟨consumed, rfl, isBuilt⟩
      exact ⟨_, consumed, rfl, .one, .ofNode isBuilt⟩
  | @more tokens middle rest comma value others written separates further ih =>
      rcases written with ⟨consumed, rfl, isBuilt⟩
      rcases ih with ⟨pieces, body, rfl, listed, assembled⟩
      have others_ne : ∃ next later, others = next :: later := by
        cases further <;> exact ⟨_, _, rfl⟩
      rcases others_ne with ⟨next, later, rfl⟩
      refine ⟨_, consumed ++ ([comma] ++ body), by simp, .more separates listed, ?_⟩
      exact .node isBuilt (.words assembled)

theorem Items.listed {closer : String} {token : Token} {values : List Expr}
    (written : Items closer (Taking BuiltExpr) token tokens values rest) :
    ∃ pieces body, tokens = body ++ token :: rest ∧ Listed values pieces ∧
      Assembled Node.Built pieces body ∧ token.reads closer = true := by
  cases written with
  | none closes => exact ⟨[], [], rfl, .none, .nil, closes⟩
  | some _ written closes =>
      rcases written.listed with ⟨pieces, body, rfl, listed, assembled⟩
      exact ⟨pieces, body, rfl, listed, assembled, closes⟩

end Written

/-- A token that is an identifier and no literal is a name. -/
theorem Token.names_of_literal? {token : Token} (isName : token.kind = .identifier)
    (notLiteral : Parse.literal? token = none) : token.Names token.text := by
  refine ⟨isName, rfl, ?_⟩
  intro isLiteral
  simp only [List.mem_cons, List.not_mem_nil, or_false] at isLiteral
  rcases isLiteral with text_eq | text_eq | text_eq <;>
    simp [Parse.literal?, isName, text_eq] at notLiteral

theorem Cursor.spanSince_of_head? {cursor : Cursor} {token : Token}
    (last : cursor.passed.head? = some token) (start : Position) :
    cursor.spanSince start = ⟨start, token.span.stop⟩ := by
  rcases cursor with ⟨_ | ⟨first, passed⟩, ahead, file⟩
  · cases last
  · cases last
    rfl

namespace Parse

open Written

variable {cursor after : Cursor} {expr : Expr}

section

variable {expression : Parse Expr} (follows : expression.Follows (Taking BuiltExpr))

include follows

theorem named_builds {token : Token} {tokens : List Token}
    (ahead : cursor.ahead = token :: tokens) (names : token.Names token.text)
    (ran : named expression cursor = .ok expr after) :
    Taking BuiltExpr cursor.ahead expr after.ahead := by
  rw [named, bind_eq_ok_iff] at ran
  rcases ran with ⟨_, _, passes, ran⟩
  rcases next_eq_ok_iff.mp passes with ⟨_, sameAhead, rfl⟩
  rw [ahead] at sameAhead
  cases sameAhead
  rw [ahead]
  rcases accept_eq_ok_iff.mp ran with ⟨opener, rest, opened, opens, ran⟩ | ⟨_, ran⟩
  · simp only [bind_eq_ok_iff, spanSince_eq_ok_iff, pure_eq_ok_iff] at ran
    rcases ran with ⟨arguments, _, read, _, _, ⟨rfl, rfl⟩, rfl, rfl⟩
    rcases itemsUntil_written follows read with ⟨closer, last, written⟩
    rcases written.listed with ⟨pieces, body, bodyAhead, listed, assembled, closes⟩
    cases opened
    rw [Cursor.spanSince_of_head? last]
    exact ⟨_, by simpa using bodyAhead, .closed assembled (.call names opens listed closes) rfl⟩
  · rcases accept_eq_ok_iff.mp ran with ⟨opener, rest, opened, opens, ran⟩ | ⟨_, ran⟩
    · simp only [bind_eq_ok_iff, require_eq_ok_iff, spanSince_eq_ok_iff, pure_eq_ok_iff] at ran
      rcases ran with ⟨offset, _, read, closer, _, ⟨_, closed, closes, rfl⟩, _, _, ⟨rfl, rfl⟩, rfl,
        rfl⟩
      rcases follows _ _ _ read with ⟨body, bodyAhead, isBuilt⟩
      rw [closed] at bodyAhead
      cases opened
      exact ⟨_, by simpa using bodyAhead, .closed (.ofNode isBuilt) (.element names opens closes)
        rfl⟩
    · rcases pure_eq_ok_iff.mp ran with ⟨rfl, rfl⟩
      exact ⟨[token], rfl, .intro (.access names) (.ofWords [token]) (.one token)⟩

theorem groupWith_follows : (groupWith expression).Follows (Taking BuiltExpr) := by
  intro cursor after expr ran
  simp only [groupWith, bind_eq_ok_iff, require_eq_ok_iff, spanSince_eq_ok_iff,
    pure_eq_ok_iff] at ran
  rcases ran with ⟨opener, _, ⟨_, ahead, opens, rfl⟩, inner, _, read, closer, _,
    ⟨_, closed, closes, rfl⟩, _, _, ⟨rfl, rfl⟩, rfl, rfl⟩
  rcases follows _ _ _ read with ⟨body, bodyAhead, isBuilt⟩
  rw [closed] at bodyAhead
  rw [ahead]
  exact ⟨_, by simpa using bodyAhead, .closed (.ofNode isBuilt) (.group opens closes) rfl⟩

theorem operandWith_builds : (operandWith expression).Follows (Taking BuiltExpr) := by
  intro cursor after expr ran
  rw [operandWith, look_eq_ok_iff] at ran
  rcases ahead : cursor.ahead with _ | ⟨token, tokens⟩
  · rw [ahead] at ran
    cases ran
  rw [ahead] at ran
  simp only at ran
  cases found : literal? token with
  | some literal =>
      simp only [found, bind_eq_ok_iff, next_eq_ok_iff, ahead, List.cons.injEq] at ran
      rcases ran with ⟨_, _, ⟨_, ⟨rfl, rfl⟩, rfl⟩, ran⟩
      cases literal with
      | error diagnostic => cases ran
      | ok value =>
          rcases pure_eq_ok_iff.mp ran with ⟨rfl, rfl⟩
          exact ⟨[token], rfl, .intro (.literal found) (.ofWords [token]) (.one token)⟩
  | none =>
      simp only [found] at ran
      rw [← ahead]
      split at ran
      · rename_i isName
        exact named_builds follows ahead (Token.names_of_literal? isName found) ran
      · split at ran
        · exact groupWith_follows follows _ _ _ ran
        · cases ran

end

section

variable {expression : Power → Parse Expr}
  (follows : ∀ power, (expression power).Follows (Taking BuiltExpr)) {power : Power} {left : Expr}
  {first : List Token} (isBuilt : BuiltExpr left first)

include follows isBuilt

theorem operationWith_builds {operator : Operator} {width : Nat}
    (found : Grammar.standard.operatorAt? cursor = some (operator, width))
    (ran : operationWith .standard expression left power cursor = .ok expr after) :
    ∃ consumed, cursor.ahead = consumed ++ after.ahead ∧ BuiltExpr expr (first ++ consumed) := by
  rw [operationWith, look_eq_ok_iff] at ran
  simp only [found] at ran
  rcases bind_eq_ok_iff.mp ran with ⟨_, _, skipped, ran⟩
  cases skipped
  rcases bind_eq_ok_iff.mp ran with ⟨right, _, read, ran⟩
  rcases pure_eq_ok_iff.mp ran with ⟨rfl, rfl⟩
  rcases Grammar.operatorAt?_written found with ⟨sign, rest, ahead, rfl, written⟩
  rcases follows _ _ _ _ read with ⟨last, lastAhead, rightBuilt⟩
  rw [ahead_skip cursor sign rest ahead] at lastAhead
  refine ⟨sign ++ last, by simp [ahead, lastAhead], ?_⟩
  refine .intro (.binary written) ?_ (isBuilt.covers.through rightBuilt.covers sign)
  exact .node isBuilt (.words (.ofNode rightBuilt))

/-- The chain of operators after an expression goes on from the tokens of that expression. -/
theorem chainWithin_builds {budget : Nat}
    (ran : chainWithin .standard expression power budget left cursor = .ok expr after) :
    ∃ consumed, cursor.ahead = consumed ++ after.ahead ∧ BuiltExpr expr (first ++ consumed) := by
  induction budget generalizing left first cursor with
  | zero => cases ran
  | succ budget ih =>
      have done : ∃ consumed, cursor.ahead = consumed ++ cursor.ahead ∧
          BuiltExpr left (first ++ consumed) := ⟨[], rfl, by rwa [List.append_nil]⟩
      rw [chainWithin, look_eq_ok_iff] at ran
      cases found : Grammar.standard.operatorAt? cursor with
      | none =>
          rw [found] at ran
          rcases pure_eq_ok_iff.mp ran with ⟨rfl, rfl⟩
          exact done
      | some pair =>
          rcases pair with ⟨operator, width⟩
          simp only [found] at ran
          split at ran
          · rcases bind_eq_ok_iff.mp ran with ⟨binary, middle, operated, ran⟩
            rcases operationWith_builds follows isBuilt found operated with
              ⟨passed, ahead, binaryBuilt⟩
            rcases ih binaryBuilt ran with ⟨more, moreAhead, further⟩
            exact ⟨passed ++ more, by simp [ahead, moreAhead], by simpa using further⟩
          · rcases pure_eq_ok_iff.mp ran with ⟨rfl, rfl⟩
            exact done

end

theorem expressionWithin_builds (budget : Nat) (power : Power) :
    (expressionWithin .standard budget power).Follows (Taking BuiltExpr) := by
  induction budget generalizing power with
  | zero =>
      intro cursor after expr ran
      cases ran
  | succ budget ih =>
      intro cursor after expr ran
      rw [expressionWithin, bind_eq_ok_iff] at ran
      rcases ran with ⟨left, middle, operand, ran⟩
      rcases operandWith_builds (ih .loosest) _ _ _ operand with ⟨first, ahead, isBuilt⟩
      rcases chainWithin_builds ih isBuilt ran with ⟨more, moreAhead, further⟩
      exact ⟨first ++ more, by simp [ahead, moreAhead], further⟩

end Parse

namespace Written

variable {tokens rest : List Token}

theorem Expression.taking {expr : Expr} (written : Expression tokens expr rest) :
    Taking BuiltExpr tokens expr rest := by
  rcases written with ⟨after, read, rfl⟩
  exact Parse.expressionWithin_builds _ _ _ _ _ read

theorem Optional.initial {initializer : Option Expr}
    (written : Optional "=" Expression tokens initializer rest) :
    ∃ pieces consumed, tokens = consumed ++ rest ∧ Initial initializer pieces ∧
      Assembled Node.Built pieces consumed := by
  cases written with
  | absent => exact ⟨[], [], rfl, .absent, .nil⟩
  | present assigns written =>
      rcases written.taking with ⟨consumed, rfl, isBuilt⟩
      refine ⟨_, _ :: consumed, rfl, .present assigns, ?_⟩
      exact .words (.ofNode isBuilt)

theorem Optional.exact_type {type : Option String} (written : Optional ":" Name tokens type rest) :
    Taking (fun type tokens => Optional ":" Name tokens type []) tokens type rest := by
  cases written with
  | absent => exact ⟨[], rfl, .absent⟩
  | @present opener _ _ _ opens written =>
      cases written with
      | @intro token _ isName => exact ⟨[opener, token], rfl, .present opens (.intro isName)⟩

theorem Separated.exact_parameters {parameters : List Parameter}
    (written : Separated OneParameter tokens parameters rest) (closing : Token) :
    ∃ consumed, tokens = consumed ++ rest ∧ consumed ≠ [] ∧
      Separated OneParameter (consumed ++ [closing]) parameters [closing] := by
  induction written with
  | last written =>
      cases written with
      | intro isName separates isType =>
          exact ⟨[_, _, _], rfl, by simp, .last (.intro isName separates isType)⟩
  | more written separated _ ih =>
      rcases ih with ⟨consumed, rfl, _, further⟩
      cases written with
      | intro isName separates isType =>
          exact ⟨_ :: _ :: _ :: _ :: consumed, rfl, by simp,
            .more (.intro isName separates isType) separated further⟩

theorem Items.exact_parameters {closing : Token} {parameters : List Parameter}
    (written : Items ")" OneParameter closing tokens parameters rest) :
    Taking (fun parameters tokens => Items ")" OneParameter closing tokens parameters []) tokens
      parameters rest := by
  cases written with
  | none closes => exact ⟨[closing], rfl, .none closes⟩
  | some notClosed written closes =>
      rcases written.exact_parameters closing with ⟨consumed, rfl, consumed_ne, exact⟩
      refine ⟨consumed ++ [closing], by simp, .some ?_ exact closes⟩
      rcases consumed with _ | ⟨first, others⟩
      · exact absurd rfl consumed_ne
      · exact notClosed

/-- An expression takes the first token. -/
theorem Expression.taking_cons {first : Token} {expr : Expr}
    (written : Expression (first :: tokens) expr rest) :
    ∃ consumed, tokens = consumed ++ rest ∧ BuiltExpr expr (first :: consumed) := by
  rcases written.taking with ⟨_ | ⟨head, consumed⟩, ahead, isBuilt⟩
  · cases isBuilt.covers.start_eq
  · cases ahead
    exact ⟨consumed, rfl, isBuilt⟩

/-- A block ends where the last of its tokens ends, or the token before it. -/
theorem BuiltBody.covers {body : List Stmt} {consumed middle : List Token} {first before : Token}
    (isBuilt : BuiltBody body consumed) (ends : (first :: middle).getLast? = some before) :
    Span.Covers ⟨first.span.start, endOf body before⟩ (first :: (middle ++ consumed)) := by
  induction body generalizing consumed middle before with
  | nil =>
      cases isBuilt
      refine ⟨rfl, ?_⟩
      rw [List.append_nil, ends]
      rfl
  | cons statement others ih =>
      change Assembled Node.Built (.node (.statement statement) :: ofNodes _) consumed at isBuilt
      cases isBuilt with
      | @node _ head _ _ statementBuilt othersBuilt =>
          rcases Option.map_eq_some_iff.mp statementBuilt.covers.stop_eq with ⟨last, found, same⟩
          have headEnds : (first :: (middle ++ head)).getLast? = some last := by
            rw [← List.cons_append, List.getLast?_append, found]
            rfl
          rw [endOf_cons same, ← List.append_assoc]
          exact ih othersBuilt headEnds

mutual

theorem Statement.taking {tokens rest : List Token} {statement : Stmt} :
    Statement tokens statement rest →
      Taking (fun statement => (Node.statement statement).Built) tokens statement rest := by
  intro written
  cases written with
  | declaration isKeyword isName typed initialized ends =>
      rcases typed.exact_type with ⟨types, rfl, typeWritten⟩
      rcases initialized.initial with ⟨pieces, consumed, rfl, initial, assembled⟩
      exact ⟨_, by simp, .closed assembled (.declaration isKeyword isName typeWritten initial ends)
        rfl⟩
  | branch isKeyword conditioned opens thenWritten closes =>
      rcases conditioned.taking with ⟨condition, rfl, conditionBuilt⟩
      rcases thenWritten.taking with ⟨body, rfl, bodyBuilt⟩
      exact ⟨_, by simp, .closed (.node conditionBuilt (.words bodyBuilt))
        (.branch isKeyword opens closes) rfl⟩
  | branchElse isKeyword conditioned opens thenWritten divides elseWritten closes =>
      rcases conditioned.taking with ⟨condition, rfl, conditionBuilt⟩
      rcases thenWritten.taking with ⟨thenBody, rfl, thenBuilt⟩
      rcases elseWritten.taking with ⟨elseBody, rfl, elseBuilt⟩
      exact ⟨_, by simp, .closed
        (.node conditionBuilt (.words (thenBuilt.append (.words elseBuilt))))
        (.branchElse isKeyword opens divides closes) rfl⟩
  | switch isKeyword examined arms closes =>
      rcases examined.taking with ⟨subject, rfl, subjectBuilt⟩
      rcases arms.taking with ⟨cases, rfl, casesBuilt⟩
      exact ⟨_, by simp, .closed (.node subjectBuilt casesBuilt) (.switch isKeyword closes) rfl⟩
  | loop isKeyword conditioned opens written closes =>
      rcases conditioned.taking with ⟨condition, rfl, conditionBuilt⟩
      rcases written.taking with ⟨body, rfl, bodyBuilt⟩
      exact ⟨_, by simp, .closed (.node conditionBuilt (.words bodyBuilt))
        (.loop isKeyword opens closes) rfl⟩
  | result isKeyword written ends =>
      rcases written.taking with ⟨value, rfl, valueBuilt⟩
      exact ⟨_, by simp, .closed (.ofNode valueBuilt) (.result isKeyword ends) rfl⟩
  | @expression first semicolon _ _ _ plain written ends =>
      rcases written.taking_cons with ⟨consumed, rfl, isBuilt⟩
      refine ⟨(first :: consumed) ++ [semicolon], by simp, ?_⟩
      exact .intro (.plain ends) (.node isBuilt (.ofWords [semicolon])) (.cons (by simp))
  | @assignment first equals semicolon _ _ _ _ _ plain received assigns isAccess written ends =>
      rcases received.taking_cons with ⟨receiver, rfl, receiverBuilt⟩
      rcases written.taking with ⟨value, rfl, valueBuilt⟩
      refine ⟨(first :: receiver) ++ ([equals] ++ (value ++ [semicolon])), by simp, ?_⟩
      exact .intro (.assignment assigns ends)
        (.node receiverBuilt (.words (.node valueBuilt (.ofWords [semicolon]))))
        (.cons (by simp [List.getLast?_cons]))

theorem Block.taking {terminators : List String} {tokens rest : List Token} {body : List Stmt} :
    Block terminators tokens body rest → Taking BuiltBody tokens body rest := by
  intro written
  cases written with
  | done => exact ⟨[], rfl, .nil⟩
  | more _ written further =>
      rcases written.taking with ⟨first, rfl, isBuilt⟩
      rcases further.taking with ⟨others, rfl, assembled⟩
      exact ⟨first ++ others, by simp, .node isBuilt assembled⟩

theorem Arms.taking {tokens rest : List Token} {cases : Cases} : Arms tokens cases rest →
    Taking (fun cases => Assembled Node.Built (ofNodes cases.arms)) tokens cases rest := by
  intro written
  cases written with
  | @default keyword _ _ _ isKeyword written =>
      rcases written.taking with ⟨body, rfl, bodyBuilt⟩
      refine ⟨[keyword] ++ body, rfl, .ofNode ?_⟩
      exact .intro (.default isKeyword) (.words bodyBuilt) (bodyBuilt.covers rfl)
  | @case keyword colon _ _ _ _ _ _ _ isKeyword valued opens written further =>
      rcases valued.taking with ⟨value, rfl, valueBuilt⟩
      rcases written.taking with ⟨body, rfl, bodyBuilt⟩
      rcases further.taking with ⟨others, rfl, othersBuilt⟩
      refine ⟨([keyword] ++ (value ++ ([colon] ++ body))) ++ others, by simp, .node ?_ othersBuilt⟩
      refine .intro (.case isKeyword opens) (.words (.node valueBuilt (.words bodyBuilt))) ?_
      have ends : (keyword :: (value ++ [colon])).getLast? = some colon := by
        simp [List.getLast?_cons]
      simpa [Node.span] using bodyBuilt.covers ends

end

theorem OneGlobal.taking {global : Global} (written : OneGlobal tokens global rest) :
    Taking (fun global => (Node.global global).Built) tokens global rest := by
  cases written with
  | @list _ _ _ _ _ opener closer _ _ _ elements isKeyword isName separates isType assigns opens
      written ends =>
      rcases (written.imp fun _ _ _ => Expression.taking).listed with
        ⟨pieces, body, rfl, listed, assembled, closes⟩
      have elementsBuilt : BuiltExpr (.list ⟨opener.span.start, closer.span.stop⟩ none elements)
          ([opener] ++ (body ++ [closer])) :=
        .closed assembled (.list opens listed closes) rfl
      exact ⟨_, by simp, .closed (.words (.ofNode elementsBuilt))
        (.global (by simp [isKeyword]) isName separates isType (.present assigns) ends) rfl⟩
  | mutable isKeyword isName separates isType written ends =>
      rcases written.initial with ⟨pieces, consumed, rfl, initial, assembled⟩
      exact ⟨_, by simp, .closed assembled
        (.global (by simp [isKeyword]) isName separates isType initial ends) rfl⟩
  | constant isKeyword isName separates isType assigns written ends =>
      rcases written.taking with ⟨consumed, rfl, isBuilt⟩
      exact ⟨_, by simp, .closed (.words (.ofNode isBuilt))
        (.global (by simp [isKeyword]) isName separates isType (.present assigns) ends) rfl⟩

theorem OneFunction.taking {function : Function} (written : OneFunction tokens function rest) :
    Taking (fun function => (Node.function function).Built) tokens function rest := by
  cases written with
  | intro isKeyword isName brackets listed typed opens written closes =>
      rcases listed.exact_parameters with ⟨parameters, rfl, parametersWritten⟩
      rcases typed.exact_type with ⟨types, rfl, typeWritten⟩
      rcases written.taking with ⟨body, rfl, bodyBuilt⟩
      exact ⟨_, by simp, .closed bodyBuilt
        (.function isKeyword isName brackets parametersWritten typeWritten opens closes) rfl⟩

theorem Repeated.taking {α : Type} {item : Rule α} {toNode : α → Node} {values : List α}
    (itemTaking : ∀ tokens value rest, item tokens value rest →
      Taking (fun value => (toNode value).Built) tokens value rest)
    (written : Repeated item tokens values rest) :
    Taking (fun values => Assembled Node.Built (ofNodes (values.map toNode))) tokens values
      rest := by
  induction written with
  | nil => exact ⟨[], rfl, .nil⟩
  | cons written _ ih =>
      rcases itemTaking _ _ _ written with ⟨first, rfl, isBuilt⟩
      rcases ih with ⟨others, rfl, assembled⟩
      exact ⟨first ++ others, by simp, .node isBuilt assembled⟩

/-- The tokens of a program are those of its globals and functions. -/
theorem Source.assembled {program : Program} (written : Source tokens program) :
    Assembled Node.Built (ofNodes program.nodes) tokens := by
  rcases written with ⟨middle, globals, functions⟩
  rcases globals.taking (fun _ _ _ => OneGlobal.taking) with ⟨first, rfl, globalsBuilt⟩
  rcases functions.taking (fun _ _ _ => OneFunction.taking) with ⟨last, rfl, functionsBuilt⟩
  rw [List.append_nil, Program.nodes, Piece.ofNodes, List.map_append]
  exact globalsBuilt.append functionsBuilt

end Written

theorem Token.ordered_of_tokens {source file : String} {tokens : List Token}
    (short : Source.byteSize source.toList < Position.offsetLimit)
    (tokenized : Script.tokens source file = .ok tokens) : Token.Ordered tokens := by
  unfold Script.tokens at tokenized
  split at tokenized
  · rename_i read
    cases tokenized
    rcases tokenize_marks short read with ⟨marked, apart⟩
    exact ⟨fun token found => (marked token found).forward, apart⟩
  · cases tokenized

namespace Program

variable {tokens : List Token} {program : Program}

/-- A program that is read from a text takes up all its tokens. Each node is built from tokens next
to each other, and its span goes from the start of the first to the end of the last of them. So, in
a text that offsets can tell, the nodes below it lie in it, and each of them ends before the next
one starts. -/
theorem spans_of_parse {source file : String}
    (tokenized : Script.tokens source file = .ok tokens)
    (parsed : Program.parse tokens file = .ok program) :
    Assembled Node.Built (ofNodes program.nodes) tokens ∧
    (∀ node, program.Has node →
      ∃ part, node.Built part ∧ part <:+: tokens ∧ node.span.Covers part) ∧
    (Source.byteSize source.toList < Position.offsetLimit →
      program.nodes.Pairwise (·.span.Precedes ·.span) ∧
      ∀ node, program.Has node →
        node.span.start.offset < node.span.stop.offset ∧
        (∀ child ∈ node.children, child.span.Within node.span) ∧
        node.children.Pairwise (·.span.Precedes ·.span)) := by
  have assembled := (parse_eq_ok_iff.mp parsed).assembled
  refine ⟨assembled, ?_, ?_⟩
  · intro node has
    rcases has.exists_part assembled with ⟨part, isBuilt, isPart⟩
    exact ⟨part, isBuilt, isPart, isBuilt.covers⟩
  · intro short
    have ordered := Token.ordered_of_tokens short tokenized
    constructor
    · have apart := assembled.precede ordered
      rwa [Piece.nodes_ofNodes] at apart
    · intro node has
      rcases has.exists_part assembled with ⟨part, isBuilt, isPart⟩
      have partOrdered := ordered.ofPart isPart
      exact ⟨partOrdered.forward_of_covers isBuilt.covers, isBuilt.nested partOrdered⟩

/-- A switch whose arms have no statements: the case ends with its colon, the default with its
keyword. -/
theorem spans_of_parse_empty_arms :
    ∃ tokens program function switch,
      Script.tokens "FUN f() DO SWITCH 1 CASE 2: DEFAULT END END" "" = .ok tokens ∧
      Program.parse tokens "" = .ok program ∧ function ∈ program.functions ∧
      switch ∈ function.body ∧
      ((Node.statement switch).children.map fun node =>
        (node.span.start.offset, node.span.stop.offset)) = [(18, 19), (20, 27), (28, 35)] ∧
      program.Has (.statement switch) ∧
      (∃ part, (Node.statement switch).Built part ∧ part <:+: tokens ∧
        switch.span.Covers part) ∧
      (∀ child ∈ (Node.statement switch).children, child.span.Within switch.span) ∧
      (Node.statement switch).children.Pairwise (·.span.Precedes ·.span) := by
  have evaluated :
      ((Script.tokens "FUN f() DO SWITCH 1 CASE 2: DEFAULT END END" "").toOption.any fun tokens =>
        (Program.parse tokens "").toOption.any fun program =>
          program.functions.any fun function => function.body.any fun switch =>
            ((Node.statement switch).children.map fun node =>
              (node.span.start.offset, node.span.stop.offset)) =
                [(18, 19), (20, 27), (28, 35)]) = true := by
    decide +kernel
  rcases exists_ok_of_any evaluated with ⟨tokens, tokenized, passes⟩
  rcases exists_ok_of_any passes with ⟨program, parsed, passes⟩
  rcases List.any_eq_true.mp passes with ⟨function, isFunction, passes⟩
  rcases List.any_eq_true.mp passes with ⟨switch, isStatement, offsets⟩
  have hasFunction : program.Has (.function function) :=
    .root (List.mem_append_right _ (List.mem_map_of_mem isFunction))
  have hasSwitch : program.Has (.statement switch) :=
    .child hasFunction (List.mem_map_of_mem isStatement)
  rcases spans_of_parse tokenized parsed with ⟨_, covers, ordered⟩
  rcases (ordered (by decide)).2 _ hasSwitch with ⟨_, within, apart⟩
  exact ⟨tokens, program, function, switch, tokenized, parsed, isFunction, isStatement,
    of_decide_eq_true offsets, hasSwitch, covers _ hasSwitch, within, apart⟩

end Program

/-! ## Texts that offsets cannot tell -/

theorem Source.byteSize_replicate (count : Nat) (c : Char) :
    byteSize (List.replicate count c) = count * c.utf8Size := by
  induction count with
  | zero => simp [byteSize]
  | succ count ih => rw [List.replicate_succ, byteSize_cons, ih, Nat.succ_mul, Nat.add_comm]

namespace Lexeme

/-- The lexemes of a global up to its value. -/
def opening : List Lexeme :=
  [⟨none, [' ']⟩, ⟨some .identifier, ['V', 'A', 'L']⟩, ⟨none, [' ']⟩, ⟨some .identifier, ['a']⟩,
    ⟨some .operator, [':']⟩, ⟨some .identifier, ['A']⟩, ⟨some .operator, ['=']⟩]

/-- The lexemes of a global from its value on. -/
def closing : List Lexeme := [⟨some .integer, ['1']⟩, ⟨some .operator, [';']⟩]

/-- The lexemes of a global with a gap before its value. -/
def gapped (gap : Nat) : List Lexeme :=
  opening ++ ⟨none, ' ' :: List.replicate gap ' '⟩ :: closing

theorem split_gapped (gap : Nat) :
    split ((gapped gap).map Lexeme.text).flatten = .ok (gapped gap) := by
  have isBlank : Text.isBlank ' ' = true := by decide
  have blanks : Lexeme.measure ' ' (List.replicate gap ' ' ++ ['1', ';']) =
      .ok (none, (List.replicate gap ' ').length + 1) :=
    measure_of_blanks (by simp [isBlank]) rfl
  have value : split ['1', ';'] = .ok closing := by
    apply @split_append '1' [] _ _ _ rfl
    apply @split_append ';' [] _ _ _ rfl
    rw [split]
  apply @split_append ' ' [] _ _ _ rfl
  apply @split_append 'V' ['A', 'L'] _ _ _ rfl
  apply @split_append ' ' [] _ _ _ rfl
  apply @split_append 'a' [] _ _ _ rfl
  apply @split_append ':' [] _ _ _ rfl
  apply @split_append 'A' [] _ _ _ rfl
  apply @split_append '=' [] _ _ _ rfl
  exact split_append blanks value

/-- A value that stands at the first byte without an offset of its own gets the offset zero. -/
theorem laid_gapped {gap : Nat} (full : 10 + gap = Position.offsetLimit) (file : String) :
    laid file 0 (gapped gap) = laid file 0 opening ++ laid file 0 closing := by
  have index_eq : 9 + Source.byteSize (' ' :: List.replicate gap ' ') =
      0 + Position.offsetLimit := by
    have size : ' '.utf8Size = 1 := by decide
    rw [Source.byteSize_cons, Source.byteSize_replicate, size]
    omega
  rw [← laid_add_offsetLimit file 0 closing, ← index_eq]
  rfl

end Lexeme

/-- In a text that is longer than offsets can tell, a value may get an offset before that of the
global it belongs to. -/
theorem Program.spans_of_parse_overrun :
    ∃ source tokens program parent child,
      Script.tokens source "" = .ok tokens ∧ Program.parse tokens "" = .ok program ∧
      program.Has parent ∧ child ∈ parent.children ∧ ¬child.span.Within parent.span := by
  obtain ⟨gap, full⟩ : ∃ gap, 10 + gap = Position.offsetLimit := ⟨4294967286, rfl⟩
  let source := String.ofList ((Lexeme.gapped gap).map Lexeme.text).flatten
  have text_eq : source.toList = ((Lexeme.gapped gap).map Lexeme.text).flatten :=
    String.toList_ofList
  have clean : '\x08' ∉ source.toList := by
    rw [text_eq]
    simp [Lexeme.gapped, Lexeme.opening, Lexeme.closing]
  have divided : Lexeme.split source.toList = .ok (Lexeme.gapped gap) := by
    rw [text_eq, Lexeme.split_gapped]
  have tokenized := tokenize_of_clean "" clean divided
  rw [Lexeme.laid_gapped full] at tokenized
  have read : Script.tokens source "" =
      .ok (Lexeme.laid "" 0 Lexeme.opening ++ Lexeme.laid "" 0 Lexeme.closing) := by
    rw [Script.tokens, tokenized]
  refine ⟨source, _, _, _, _, read, rfl, .root List.mem_cons_self, List.mem_cons_self, ?_⟩
  rintro ⟨starts, _⟩
  exact Nat.not_succ_le_zero 0 starts

end GradualScript
