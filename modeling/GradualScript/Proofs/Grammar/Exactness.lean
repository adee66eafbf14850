import GradualScript.Proofs.Grammar.Reading
import GradualScript.Proofs.Grammar.Soundness

/-!
# What is written is read

The other direction: where a piece of program is written by the rules of `Written`, the parsing step
for it succeeds and gives that piece. So a list of tokens is read exactly if a program is written in
it, and there is one such program at most.
-/

namespace GradualScript

namespace Written

theorem startsWith_cons (token : Token) (rest : List Token) (text : String) :
    startsWith (token :: rest) text = token.reads text :=
  rfl

theorem text_of_reads {token : Token} {text : String} (reads : token.reads text = true) :
    token.text = text := by
  simp only [Token.reads, Bool.and_eq_true, decide_eq_true_eq] at reads
  exact reads.2

theorem startsWith_of_reads {token : Token} {text other : String} (reads : token.reads text = true)
    (rest : List Token) (differs : text ≠ other) : startsWith (token :: rest) other = false := by
  simp [startsWith_cons, Token.reads, text_of_reads reads, differs]

theorem heads.reads {token : Token} {keyword : Keyword} (headed : heads token keyword) :
    token.reads keyword.text = true := by
  simp [Token.reads, headed.1, headed.2]

theorem keyword?_eq_none {token : Token} (plain : ∀ keyword, ¬heads token keyword) :
    Grammar.standard.keyword? token = none := by
  rw [Option.eq_none_iff_forall_ne_some]
  intro keyword found
  exact plain keyword (heads_iff.mpr found)

theorem OneGlobal.starts {tokens rest : List Token} {global : Global}
    (written : OneGlobal tokens global rest) :
    startsWithAny tokens ["LIST", "VAR", "VAL"] = true := by
  cases written <;> simp_all [startsWithAny, startsWith_cons]

theorem OneFunction.starts {tokens rest : List Token} {function : Function}
    (written : OneFunction tokens function rest) : startsWithAny tokens ["FUN"] = true := by
  cases written
  simp_all [startsWithAny, startsWith_cons]

end Written

namespace Parse

open Written

variable {α β : Type} {rule : Rule α} {tokens middle rest : List Token}

/-- Whether a step reads something at the start of some tokens, and leaves others. -/
def Accepts (step : Parse α) (tokens : List Token) (value : α) (rest : List Token) : Prop :=
  ∀ passed file, ∃ passedAfter fileAfter,
    step ⟨passed, tokens, file⟩ = .ok value ⟨passedAfter, rest, fileAfter⟩

namespace Accepts

theorem pure (value : α) (rest : List Token) : Accepts (Pure.pure value) rest value rest :=
  fun passed file => ⟨passed, file, rfl⟩

theorem bind {step : Parse α} {next : α → Parse β} {value : α} {result : β}
    (first : Accepts step tokens value middle) (further : Accepts (next value) middle result rest) :
    Accepts (step >>= next) tokens result rest := by
  intro passed file
  rcases first passed file with ⟨passedMiddle, fileMiddle, ran⟩
  rcases further passedMiddle fileMiddle with ⟨passedAfter, fileAfter, ranFurther⟩
  exact ⟨passedAfter, fileAfter, bind_eq_ok_iff.mpr ⟨value, _, ran, ranFurther⟩⟩

theorem map {step : Parse α} {value : α} (first : Accepts step tokens value rest)
    (change : α → β) : Accepts (change <$> step) tokens (change value) rest := by
  intro passed file
  rcases first passed file with ⟨passedAfter, fileAfter, ran⟩
  exact ⟨passedAfter, fileAfter, map_eq_ok_iff.mpr ⟨value, ran, rfl⟩⟩

/-- A step after a look at the tokens ahead. -/
theorem look {next : Cursor → Parse α} {value : α}
    (each : ∀ cursor : Cursor, cursor.ahead = tokens → Accepts (next cursor) tokens value rest) :
    Accepts (get >>= next) tokens value rest :=
  fun passed file => each ⟨passed, tokens, file⟩ rfl passed file

theorem next (token : Token) (rest : List Token) :
    Accepts Parse.next (token :: rest) token rest :=
  fun _ _ => ⟨_, _, next_eq_ok_iff.mpr ⟨rest, rfl, rfl⟩⟩

theorem require {text : String} {token : Token} (reads : token.reads text = true)
    (rest : List Token) : Accepts (Parse.require text) (token :: rest) token rest :=
  fun _ _ => ⟨_, _, require_eq_ok_iff.mpr ⟨rest, rfl, reads, rfl⟩⟩

theorem requireKind {kind : TokenKind} {token : Token} (isKind : token.kind = kind)
    (message : String) (rest : List Token) :
    Accepts (Parse.requireKind kind message) (token :: rest) token rest :=
  fun _ _ => ⟨_, _, requireKind_eq_ok_iff.mpr ⟨rest, rfl, isKind, rfl⟩⟩

theorem acceptYes {text : String} {token : Token} {yes no : Parse α} {value : α}
    (reads : token.reads text = true) (further : Accepts yes tokens value rest) :
    Accepts (accept text >>= fun found => if found then yes else no) (token :: tokens) value
      rest := by
  intro passed file
  rcases further (token :: passed) file with ⟨passedAfter, fileAfter, ran⟩
  exact ⟨_, _, accept_eq_ok_iff.mpr (.inl ⟨token, tokens, rfl, reads, ran⟩)⟩

theorem acceptNo {text : String} {yes no : Parse α} {value : α}
    (notAt : startsWith tokens text = false) (further : Accepts no tokens value rest) :
    Accepts (accept text >>= fun found => if found then yes else no) tokens value rest := by
  intro passed file
  rcases further passed file with ⟨passedAfter, fileAfter, ran⟩
  exact ⟨_, _, accept_eq_ok_iff.mpr (.inr ⟨notAt, ran⟩)⟩

/-- The last token of a piece of program, and its span. -/
theorem close {text : String} {token : Token} (reads : token.reads text = true)
    (rest : List Token) (start : Position) (build : Span → α) :
    Accepts (do let _ ← Parse.require text; return build (← spanSince start)) (token :: rest)
      (build ⟨start, token.span.stop⟩) rest := by
  intro passed file
  refine ⟨token :: passed, file, ?_⟩
  simp only [bind_eq_ok_iff, require_eq_ok_iff, spanSince_eq_ok_iff, pure_eq_ok_iff]
  exact ⟨token, _, ⟨rest, rfl, reads, rfl⟩, _, _, ⟨rfl, rfl⟩, rfl, rfl⟩

/-- A step that succeeds passes as many tokens as it says. -/
theorem shorter {step : Parse α} {value : α} {bound least : Nat} {good : α → Prop}
    (accepts : Accepts step tokens value rest)
    (safe : Safe (fun _ => True) bound least step good) (inside : tokens.length < bound) :
    rest.length + least ≤ tokens.length := by
  rcases accepts [] "" with ⟨passedAfter, fileAfter, ran⟩
  exact safe.passes inside ran

theorem bounded {step : Nat → Parse α} {value : α}
    (accepts : Accepts (step (tokens.length + 1)) tokens value rest) :
    Accepts (Parse.bounded step) tokens value rest :=
  accepts

end Accepts

theorem anyExpression_accepts {expr : Expr} (written : Expression tokens expr rest) :
    Accepts (anyExpression .standard) tokens expr rest := by
  intro passed file
  rcases written with ⟨after, read, rfl⟩
  rcases anyExpression_fresh .standard (.ofTokens tokens "") ⟨passed, tokens, file⟩ expr after rfl
    read with ⟨other, otherRead, twins⟩
  rcases twins with ⟨ahead, _⟩
  refine ⟨other.passed, other.file, ?_⟩
  rw [otherRead, ahead]

theorem typeName_accepts {name : String} (written : Name tokens name rest) :
    Accepts typeName tokens name rest := by
  rcases written with ⟨isName⟩
  intro passed file
  exact ⟨_, _, typeName_eq_ok_iff.mpr ⟨_, _, rfl, isName, rfl, rfl⟩⟩

/-- What may be missing is read if the next token cannot be taken for the sign before it. -/
theorem onlyAfter_accepts {step : Parse α} {sign : String} {found : Option α}
    (accepts : ∀ tokens value rest, rule tokens value rest → Accepts step tokens value rest)
    (written : Optional sign rule tokens found rest)
    (clear : startsWith rest sign = false) :
    Accepts (onlyAfter sign step) tokens found rest := by
  cases written with
  | absent => exact .acceptNo clear (.pure none _)
  | present opens written => exact .acceptYes opens ((accepts _ _ _ written).map some)

theorem separatedWithin_accepts {item : Parse α} {values : List α} {budget : Nat}
    (accepts : ∀ tokens value rest, rule tokens value rest →
      Accepts item tokens value rest ∧ rest.length ≤ tokens.length)
    (written : Separated rule tokens values rest) (clear : startsWith rest "," = false)
    (enough : tokens.length < budget) :
    Accepts (separatedWithin item budget) tokens values rest := by
  induction written generalizing budget with
  | last written =>
      rcases budget with _ | budget
      · omega
      · exact (accepts _ _ _ written).1.bind (.acceptNo clear (.pure _ _))
  | more written separates further ih =>
      rcases budget with _ | budget
      · omega
      · rcases accepts _ _ _ written with ⟨read, shorter⟩
        rw [List.length_cons] at shorter
        exact read.bind (.acceptYes separates ((ih clear (by omega)).bind (.pure _ _)))

/-- Items are read up to the token that closes them, which is passed last. -/
theorem itemsUntil_accepts {item : Parse α} {values : List α} {closer : String} {token : Token}
    (accepts : ∀ tokens value rest, rule tokens value rest →
      Accepts item tokens value rest ∧ rest.length ≤ tokens.length)
    (notComma : closer ≠ ",") (written : Items closer rule token tokens values rest)
    (passed : List Token) (file : String) :
    ∃ passedAfter fileAfter, itemsUntil closer item ⟨passed, tokens, file⟩ =
      .ok values ⟨token :: passedAfter, rest, fileAfter⟩ := by
  simp only [itemsUntil, look_eq_ok_iff]
  cases written with
  | none closes =>
      refine ⟨passed, file, ?_⟩
      refine (congrFun (if_pos closes) _).trans ?_
      exact bind_eq_ok_iff.mpr ⟨[], _, rfl,
        bind_eq_ok_iff.mpr ⟨token, _, require_eq_ok_iff.mpr ⟨rest, rfl, closes, rfl⟩, rfl⟩⟩
  | some notClosed written closes =>
      have clear := startsWith_of_reads closes rest notComma
      have read : Accepts (bounded (separatedWithin item)) tokens values (token :: rest) :=
        separatedWithin_accepts accepts written clear (Nat.lt_succ_self _)
      rcases read passed file with ⟨passedAfter, fileAfter, ran⟩
      refine ⟨passedAfter, fileAfter, ?_⟩
      refine (congrFun (if_neg (Bool.eq_false_iff.mp notClosed)) _).trans ?_
      exact bind_eq_ok_iff.mpr ⟨values, _, ran,
        bind_eq_ok_iff.mpr ⟨token, _, require_eq_ok_iff.mpr ⟨rest, rfl, closes, rfl⟩, rfl⟩⟩

/-! ## Statements -/

section

variable {statement : Stmt} {keyword : Token}

theorem declaration_accepts {name semicolon : Token} {type : Option String}
    {initializer : Option Expr} (isKeyword : heads keyword .declaration)
    (isName : name.kind = .identifier) (typed : Optional ":" Name tokens type middle)
    (initialized : Optional "=" Expression middle initializer (semicolon :: rest))
    (ends : semicolon.reads ";" = true) :
    Accepts (declaration .standard) (keyword :: name :: tokens)
      (.declaration ⟨keyword.span.start, semicolon.span.stop⟩ name.text type initializer none)
      rest := by
  have clearEquals := startsWith_of_reads ends rest (show ";" ≠ "=" by decide)
  have clearColon : startsWith middle ":" = false := by
    cases initialized with
    | absent => exact startsWith_of_reads ends rest (by decide)
    | present opens _ => exact startsWith_of_reads opens _ (by decide)
  refine (Accepts.require isKeyword.reads _).bind ((Accepts.requireKind isName _ _).bind ?_)
  refine (onlyAfter_accepts (fun _ _ _ => typeName_accepts) typed clearColon).bind ?_
  refine (onlyAfter_accepts (fun _ _ _ => anyExpression_accepts) initialized clearEquals).bind ?_
  exact .close ends rest _ fun span => Stmt.declaration span name.text type initializer none

theorem result_accepts {semicolon : Token} {value : Expr} (isKeyword : heads keyword .result)
    (written : Expression tokens value (semicolon :: rest)) (ends : semicolon.reads ";" = true) :
    Accepts (result .standard) (keyword :: tokens)
      (.result ⟨keyword.span.start, semicolon.span.stop⟩ value) rest :=
  (Accepts.require isKeyword.reads _).bind
    ((anyExpression_accepts written).bind (.close ends rest _ fun span => Stmt.result span value))

theorem plainExpression_accepts {first semicolon : Token} {expr : Expr}
    (written : Expression (first :: tokens) expr (semicolon :: rest))
    (ends : semicolon.reads ";" = true) :
    Accepts (plainStatement .standard) (first :: tokens)
      (.expression ⟨first.span.start, semicolon.span.stop⟩ expr) rest := by
  refine .look fun cursor ahead => ?_
  rw [show cursor.position = first.span.start by rw [Cursor.position, ahead]]
  have clear := startsWith_of_reads ends rest (show ";" ≠ "=" by decide)
  exact (anyExpression_accepts written).bind
    (.acceptNo clear (.close ends rest _ fun span => Stmt.expression span expr))

theorem assignment_accepts {first equals semicolon : Token} {receiver value : Expr}
    (received : Expression (first :: tokens) receiver (equals :: middle))
    (assigns : equals.reads "=" = true) (isAccess : receiver.isAccess = true)
    (written : Expression middle value (semicolon :: rest)) (ends : semicolon.reads ";" = true) :
    Accepts (plainStatement .standard) (first :: tokens)
      (.assignment ⟨first.span.start, semicolon.span.stop⟩ receiver value) rest := by
  refine .look fun cursor ahead => ?_
  rw [show cursor.position = first.span.start by rw [Cursor.position, ahead]]
  refine (anyExpression_accepts received).bind (.acceptYes assigns ?_)
  rw [if_pos isAccess]
  exact (anyExpression_accepts written).bind
    (.close ends rest _ fun span => Stmt.assignment span receiver value)

/-- What has to be known of how nested statements are read, at fewer than `bound` tokens. -/
structure ReadsStatements (bound : Nat) (step : Parse Stmt) : Prop where
  follows : step.FollowsStatement
  safe : Safe (fun _ => True) bound 1 step (Stmt.Placed fun _ => True)
  accepts : ∀ tokens statement rest, tokens.length < bound → Statement tokens statement rest →
    Accepts step tokens statement rest

section

variable {bound : Nat} {step : Parse Stmt} (reads : ReadsStatements bound step)

include reads

theorem blockWith_accepts {terminators : List String} {body : List Stmt}
    (inside : tokens.length < bound) (written : Block terminators tokens body rest) :
    Accepts (blockWith step terminators) tokens body rest := by
  have within (budget : Nat) (enough : tokens.length < budget) :
      Accepts (blockWithin step terminators budget) tokens body rest := by
    induction budget generalizing tokens body with
    | zero => omega
    | succ budget ih =>
        refine .look fun cursor ahead => ?_
        have isAtAny : cursor.isAtAny terminators = startsWithAny tokens terminators := by
          rw [← ahead]
          rfl
        rw [isAtAny]
        cases written with
        | done terminated =>
            rw [if_pos terminated]
            exact .pure [] _
        | more goesOn written further =>
            have read := reads.accepts _ _ _ inside written
            have shorter := read.shorter reads.safe inside
            have goesOnTokens : ¬cursor.isDone = true := by
              rw [Cursor.isDone, ahead, List.isEmpty_iff]
              rintro rfl
              simp at shorter
            rw [if_neg (Bool.eq_false_iff.mp goesOn), if_neg goesOnTokens]
            exact read.bind ((ih (by omega) further (by omega)).bind (.pure _ _))
  exact within _ (Nat.lt_succ_self _)

/-- A block and its span, after the token that opens it. -/
theorem spannedBlock_accepts {terminators : List String} {body : List Stmt} {text : String}
    {token : Token} {value : α} {start : Token → Position} {next : List Stmt → Span → Parse α}
    (opens : token.reads text = true) (inside : tokens.length < bound)
    (written : Block terminators tokens body middle)
    (further : Accepts (next body ⟨start token, endOf body token⟩) middle value rest) :
    Accepts (do
      let opener ← require text
      let body ← blockWith step terminators
      let span ← spanSince (start opener)
      next body span) (token :: tokens) value rest := by
  intro passed file
  rcases blockWith_accepts reads inside written (token :: passed) file with
    ⟨passedMiddle, fileMiddle, read⟩
  have spans := (blockWith_written reads.follows read).2 (start token) token rfl
  rcases further passedMiddle fileMiddle with ⟨passedAfter, fileAfter, ran⟩
  refine ⟨passedAfter, fileAfter, ?_⟩
  simp only [bind_eq_ok_iff, require_eq_ok_iff, spanSince_eq_ok_iff]
  exact ⟨token, _, ⟨tokens, rfl, opens, rfl⟩, body, _, read, _, _, ⟨spans, rfl⟩, ran⟩

theorem loopWith_accepts {opener closer : Token} {condition : Expr} {body : List Stmt}
    (inside : tokens.length < bound) (isKeyword : heads keyword .loop)
    (conditioned : Expression tokens condition (opener :: middle))
    (opens : opener.reads "DO" = true) (written : Block ["END"] middle body (closer :: rest))
    (closes : closer.reads "END" = true) :
    Accepts (loopWith .standard step) (keyword :: tokens)
      (.loop ⟨keyword.span.start, closer.span.stop⟩ condition body) rest := by
  have shorter := conditioned.shorter
  rw [List.length_cons] at shorter
  refine (Accepts.require isKeyword.reads _).bind ((anyExpression_accepts conditioned).bind ?_)
  refine (Accepts.require opens _).bind ((blockWith_accepts reads (by omega) written).bind ?_)
  exact .close closes rest _ fun span => Stmt.loop span condition body

theorem branchWith_accepts {opener closer : Token} {condition : Expr} {thenBody : List Stmt}
    (inside : tokens.length < bound) (isKeyword : heads keyword .branch)
    (conditioned : Expression tokens condition (opener :: middle))
    (opens : opener.reads "DO" = true)
    (thenWritten : Block ["ELSE", "END"] middle thenBody (closer :: rest))
    (closes : closer.reads "END" = true) :
    Accepts (branchWith .standard step) (keyword :: tokens)
      (.branch ⟨keyword.span.start, closer.span.stop⟩ condition thenBody []) rest := by
  have shorter := conditioned.shorter
  rw [List.length_cons] at shorter
  have clear := startsWith_of_reads closes rest (show "END" ≠ "ELSE" by decide)
  refine (Accepts.require isKeyword.reads _).bind ((anyExpression_accepts conditioned).bind ?_)
  refine (Accepts.require opens _).bind ((blockWith_accepts reads (by omega) thenWritten).bind ?_)
  refine .acceptNo clear ((Accepts.pure [] _).bind ?_)
  exact .close closes rest _ fun span => Stmt.branch span condition thenBody []

theorem branchElse_accepts {opener divider closer : Token} {condition : Expr}
    {thenBody elseBody : List Stmt} {last : List Token}
    (inside : tokens.length < bound) (isKeyword : heads keyword .branch)
    (conditioned : Expression tokens condition (opener :: middle))
    (opens : opener.reads "DO" = true)
    (thenWritten : Block ["ELSE", "END"] middle thenBody (divider :: last))
    (divides : divider.reads "ELSE" = true)
    (elseWritten : Block ["END"] last elseBody (closer :: rest))
    (closes : closer.reads "END" = true) :
    Accepts (branchWith .standard step) (keyword :: tokens)
      (.branch ⟨keyword.span.start, closer.span.stop⟩ condition thenBody elseBody) rest := by
  have shorter := conditioned.shorter
  rw [List.length_cons] at shorter
  have thenRead := blockWith_accepts reads (by omega) thenWritten
  have thenShorter := thenRead.shorter (blockWith_safe reads.safe) (by omega)
  rw [List.length_cons] at thenShorter
  refine (Accepts.require isKeyword.reads _).bind ((anyExpression_accepts conditioned).bind ?_)
  refine (Accepts.require opens _).bind (thenRead.bind (.acceptYes divides ?_))
  refine (blockWith_accepts reads (by omega) elseWritten).bind ?_
  exact .close closes rest _ fun span => Stmt.branch span condition thenBody elseBody

theorem casesWithin_accepts {cases : Cases} (inside : tokens.length < bound)
    (written : Arms tokens cases rest) {budget : Nat} (enough : tokens.length < budget) :
    Accepts (casesWithin .standard step budget) tokens cases rest := by
  induction budget generalizing tokens cases with
  | zero => omega
  | succ budget ih =>
      refine .look fun cursor ahead => ?_
      have isAt : cursor.isAt "CASE" = startsWith tokens "CASE" := by
        rw [← ahead]
        rfl
      rw [isAt]
      cases written with
      | default isKeyword written =>
          rw [List.length_cons] at inside
          rw [if_neg (Bool.eq_false_iff.mp (startsWith_of_reads isKeyword _ (by decide)))]
          exact spannedBlock_accepts reads isKeyword (by omega) written (.pure _ _)
      | case isKeyword valued opens written further =>
          have shorter := valued.shorter
          rw [List.length_cons] at inside enough shorter
          have read := blockWith_accepts reads (by omega) written
          have bodyShorter := read.shorter (blockWith_safe reads.safe) (by omega)
          rw [startsWith_cons, if_pos isKeyword]
          refine (Accepts.next _ _).bind ((anyExpression_accepts valued).bind ?_)
          refine spannedBlock_accepts reads opens (by omega) written ?_
          exact (ih (by omega) further (by omega)).bind (.pure _ _)

theorem switchWith_accepts {closer : Token} {subject : Expr} {cases : Cases}
    (inside : tokens.length < bound) (isKeyword : heads keyword .switch)
    (examined : Expression tokens subject middle) (arms : Arms middle cases (closer :: rest))
    (closes : closer.reads "END" = true) :
    Accepts (switchWith .standard step) (keyword :: tokens)
      (.switch ⟨keyword.span.start, closer.span.stop⟩ subject cases) rest := by
  have shorter := examined.shorter
  have read : Accepts (bounded (casesWithin .standard step)) middle cases (closer :: rest) :=
    casesWithin_accepts reads (by omega) arms (Nat.lt_succ_self _)
  refine (Accepts.require isKeyword.reads _).bind ((anyExpression_accepts examined).bind ?_)
  exact read.bind (.close closes rest _ fun span => Stmt.switch span subject cases)

theorem statementWith_accepts (inside : tokens.length < bound + 1)
    (written : Statement tokens statement rest) :
    Accepts (statementWith .standard step) tokens statement rest := by
  refine .look fun cursor ahead => ?_
  rw [ahead]
  cases written with
  | declaration isKeyword isName typed initialized ends =>
      rw [List.head?_cons, Option.bind_some, heads_iff.mp isKeyword]
      exact declaration_accepts isKeyword isName typed initialized ends
  | branch isKeyword conditioned opens thenWritten closes =>
      rw [List.head?_cons, Option.bind_some, heads_iff.mp isKeyword]
      exact branchWith_accepts reads (Nat.lt_of_succ_lt_succ inside) isKeyword conditioned opens
        thenWritten closes
  | branchElse isKeyword conditioned opens thenWritten divides elseWritten closes =>
      rw [List.head?_cons, Option.bind_some, heads_iff.mp isKeyword]
      exact branchElse_accepts reads (Nat.lt_of_succ_lt_succ inside) isKeyword conditioned opens
        thenWritten divides elseWritten closes
  | switch isKeyword examined arms closes =>
      rw [List.head?_cons, Option.bind_some, heads_iff.mp isKeyword]
      exact switchWith_accepts reads (Nat.lt_of_succ_lt_succ inside) isKeyword examined arms closes
  | loop isKeyword conditioned opens written closes =>
      rw [List.head?_cons, Option.bind_some, heads_iff.mp isKeyword]
      exact loopWith_accepts reads (Nat.lt_of_succ_lt_succ inside) isKeyword conditioned opens
        written closes
  | result isKeyword written ends =>
      rw [List.head?_cons, Option.bind_some, heads_iff.mp isKeyword]
      exact result_accepts isKeyword written ends
  | expression plain written ends =>
      rw [List.head?_cons, Option.bind_some, keyword?_eq_none plain]
      exact plainExpression_accepts written ends
  | assignment plain received assigns isAccess written ends =>
      rw [List.head?_cons, Option.bind_some, keyword?_eq_none plain]
      exact assignment_accepts received assigns isAccess written ends

end

end

theorem statementWithin_reads (budget : Nat) :
    ReadsStatements budget (statementWithin .standard budget) := by
  induction budget with
  | zero =>
      exact ⟨statementWithin_follows 0, statementWithin_safe 0, fun _ _ _ inside => by omega⟩
  | succ budget ih =>
      exact ⟨statementWithin_follows _, statementWithin_safe _,
        fun _ _ _ => statementWith_accepts ih⟩

theorem block_accepts {terminators : List String} {body : List Stmt}
    (written : Block terminators tokens body rest) :
    Accepts (block .standard terminators) tokens body rest := by
  have reads : ReadsStatements (tokens.length + 1) (statement .standard) := by
    refine ⟨statement_follows, statement_safe, fun tokens _ _ _ written => ?_⟩
    exact ((statementWithin_reads _).accepts _ _ _ (Nat.lt_succ_self _) written).bounded
  exact blockWith_accepts reads (Nat.lt_succ_self _) written

/-! ## Programs -/

theorem list_accepts {opener closer : Token} {elements : List Expr}
    (opens : opener.reads "[" = true) (written : Items "]" Expression closer tokens elements rest) :
    Accepts (list .standard) (opener :: tokens)
      (.list ⟨opener.span.start, closer.span.stop⟩ none elements) rest := by
  have each (tokens : List Token) (expr : Expr) (rest : List Token)
      (written : Expression tokens expr rest) :
      Accepts (anyExpression .standard) tokens expr rest ∧ rest.length ≤ tokens.length :=
    ⟨anyExpression_accepts written, Nat.le_of_lt written.shorter⟩
  intro passed file
  rcases itemsUntil_accepts each (by decide) written (opener :: passed) file with
    ⟨passedAfter, fileAfter, read⟩
  refine ⟨closer :: passedAfter, fileAfter, ?_⟩
  simp only [list, listWith, bind_eq_ok_iff, require_eq_ok_iff, spanSince_eq_ok_iff, pure_eq_ok_iff]
  exact ⟨opener, _, ⟨tokens, rfl, opens, rfl⟩, elements, _, read, _, _, ⟨rfl, rfl⟩, rfl, rfl⟩

theorem global_accepts {global : Global} (written : OneGlobal tokens global rest) :
    Accepts (Parse.global .standard) tokens global rest := by
  cases written with
  | list isKeyword isName separates isType assigns opens written ends =>
      have isList := text_of_reads isKeyword
      refine (Accepts.next _ _).bind ((Accepts.requireKind isName _ _).bind ?_)
      refine (Accepts.require separates _).bind ((typeName_accepts (.intro isType)).bind ?_)
      simp only [isList, if_true]
      refine (Accepts.require assigns _).bind (((list_accepts opens written).map some).bind ?_)
      exact .close ends rest _ fun span => Global.mk span _ _ true _ none
  | mutable isKeyword isName separates isType written ends =>
      have isVariable := text_of_reads isKeyword
      have clear := startsWith_of_reads ends rest (show ";" ≠ "=" by decide)
      refine (Accepts.next _ _).bind ((Accepts.requireKind isName _ _).bind ?_)
      refine (Accepts.require separates _).bind ((typeName_accepts (.intro isType)).bind ?_)
      simp only [isVariable]
      refine (onlyAfter_accepts (fun _ _ _ => anyExpression_accepts) written clear).bind ?_
      exact .close ends rest _ fun span => Global.mk span _ _ true _ none
  | constant isKeyword isName separates isType assigns written ends =>
      have isConstant := text_of_reads isKeyword
      refine (Accepts.next _ _).bind ((Accepts.requireKind isName _ _).bind ?_)
      refine (Accepts.require separates _).bind ((typeName_accepts (.intro isType)).bind ?_)
      simp only [isConstant]
      refine (Accepts.require assigns _).bind (((anyExpression_accepts written).map some).bind ?_)
      exact .close ends rest _ fun span => Global.mk span _ _ false _ none

theorem parameter_accepts {parameter : Parameter} (written : OneParameter tokens parameter rest) :
    Accepts Parse.parameter tokens parameter rest := by
  cases written with
  | intro isName separates isType =>
      refine (Accepts.requireKind isName _ _).bind ((Accepts.require separates _).bind ?_)
      exact (typeName_accepts (.intro isType)).bind (.pure _ _)

theorem parameters_accepts {closing : Token} {parameters : List Parameter}
    (listed : Items ")" OneParameter closing tokens parameters rest) :
    Accepts (itemsUntil ")" Parse.parameter) tokens parameters rest := by
  have each (tokens : List Token) (parameter : Parameter) (rest : List Token)
      (written : OneParameter tokens parameter rest) :
      Accepts Parse.parameter tokens parameter rest ∧ rest.length ≤ tokens.length := by
    have read := parameter_accepts written
    exact ⟨read, read.shorter parameter_safe.fewer (Nat.lt_succ_self _)⟩
  intro passed file
  rcases itemsUntil_accepts each (by decide) listed passed file with ⟨_, _, read⟩
  exact ⟨_, _, read⟩

theorem function_accepts {function : Function} (written : OneFunction tokens function rest) :
    Accepts (Parse.function .standard) tokens function rest := by
  cases written with
  | intro isKeyword isName brackets listed typed opens written closes =>
      have type := onlyAfter_accepts (fun _ _ _ => typeName_accepts) typed
        (startsWith_of_reads opens _ (by decide))
      refine (Accepts.require isKeyword _).bind ((Accepts.requireKind isName _ _).bind ?_)
      refine (Accepts.require brackets _).bind ((parameters_accepts listed).bind (type.bind ?_))
      refine (Accepts.require opens _).bind ((block_accepts written).bind ?_)
      exact .close closes rest _ fun span => Function.mk span _ _ _ _ none

theorem whileAtWithin_accepts {starts : List String} {item : Parse α} {values : List α}
    {budget : Nat} {good : α → Prop}
    (accepts : ∀ tokens value rest, rule tokens value rest →
      startsWithAny tokens starts = true ∧ Accepts item tokens value rest)
    (safe : ∀ bound, Safe (fun _ => True) bound 1 item good)
    (written : Repeated rule tokens values rest) (clear : startsWithAny rest starts = false)
    (enough : tokens.length < budget) :
    Accepts (whileAtWithin starts item budget) tokens values rest := by
  induction written generalizing budget with
  | nil =>
      rcases budget with _ | budget
      · omega
      · refine .look fun cursor ahead => ?_
        have isAtAny : cursor.isAtAny starts = false := by
          rw [← clear, ← ahead]
          rfl
        rw [if_neg (Bool.eq_false_iff.mp isAtAny)]
        exact .pure _ _
  | cons written further ih =>
      rcases budget with _ | budget
      · omega
      · refine .look fun cursor ahead => ?_
        rcases accepts _ _ _ written with ⟨startsHere, read⟩
        have shorter := read.shorter (safe _) (Nat.lt_succ_self _)
        have isAtAny : cursor.isAtAny starts = true := by
          rw [← startsHere, ← ahead]
          rfl
        rw [if_pos isAtAny]
        exact read.bind ((ih clear (by omega)).bind (.pure _ _))

/-- A program that is written in some tokens is read from them. -/
theorem program_accepts {program : Program} (written : Source tokens program) :
    Accepts (Parse.program .standard) tokens program [] := by
  rcases program with ⟨globals, functions⟩
  rcases written with ⟨middle, globalsWritten, functionsWritten⟩
  simp only at globalsWritten functionsWritten
  have clear : startsWithAny middle ["LIST", "VAR", "VAL"] = false := by
    cases functionsWritten with
    | nil => rfl
    | cons written _ =>
        rcases written with ⟨isKeyword⟩
        simp [startsWithAny, startsWith_of_reads isKeyword]
  have globalsRead : Accepts (bounded (whileAtWithin ["LIST", "VAR", "VAL"] (global .standard)))
      tokens globals middle := by
    refine (whileAtWithin_accepts ?_ (fun _ => global_safe) globalsWritten clear
      (Nat.lt_succ_self _)).bounded
    intro tokens global rest written
    exact ⟨written.starts, global_accepts written⟩
  have functionsRead : Accepts (bounded (whileAtWithin ["FUN"] (function .standard)))
      middle functions [] := by
    refine (whileAtWithin_accepts ?_ (fun _ => function_safe) functionsWritten rfl
      (Nat.lt_succ_self _)).bounded
    intro tokens function rest written
    exact ⟨written.starts, function_accepts written⟩
  refine globalsRead.bind (functionsRead.bind (.look fun cursor ahead => ?_))
  rw [Cursor.isDone, ahead]
  exact .pure _ _

end Parse

/-- The values of the arms of a switch, with none for an arm that stands for all other values. -/
def Cases.values : Cases → List (Option Expr)
  | .default _ _ => [none]
  | .case _ value _ others => some value :: others.values

namespace Written

/-- Whether the arms of a switch stand one behind the other, each with its keyword: the ones with a
value behind a `CASE` each, and one without behind a `DEFAULT`, which is the last. -/
def EndsInDefault (tokens : List Token) (cases : Cases) (rest : List Token) : Prop :=
  ∃ (arms : List (List Token)) (values : List Expr) (last : List Token),
    tokens = arms.flatten ++ last ++ rest ∧ cases.values = values.map some ++ [none] ∧
    arms.length = values.length ∧ (∀ arm ∈ arms, startsWith arm "CASE" = true) ∧
    startsWith last "DEFAULT" = true

theorem Expression.leaves {tokens rest : List Token} {expr : Expr}
    (written : Expression tokens expr rest) : rest <:+ tokens := by
  rcases written with ⟨after, ran, rfl⟩
  exact Parse.Safe.leaves (fun _ => Parse.anyExpression_safe) ran

theorem Block.leaves {terminators : List String} {tokens rest : List Token} {body : List Stmt}
    (written : Block terminators tokens body rest) : rest <:+ tokens := by
  rcases Parse.block_accepts written [] "" with ⟨passed, file, ran⟩
  exact Parse.Safe.leaves (fun _ => Parse.blockWith_safe Parse.statement_safe) ran

theorem Arms.endsInDefault (cases : Cases) {tokens rest : List Token}
    (written : Arms tokens cases rest) : EndsInDefault tokens cases rest := by
  cases cases with
  | default span body =>
      cases written with
      | @default keyword _ _ _ isKeyword block =>
          rcases block.leaves with ⟨consumed, rfl⟩
          exact ⟨[], [], keyword :: consumed, by simp, rfl, rfl, by simp, isKeyword⟩
  | case span value body others =>
      cases written with
      | @case keyword colon _ _ _ _ _ _ _ isKeyword valued opens block further =>
          rcases Arms.endsInDefault others further with
            ⟨arms, values, last, rfl, values_eq, length_eq, cased, defaulted⟩
          rcases block.leaves with ⟨consumed, rfl⟩
          rcases valued.leaves with ⟨condition, rfl⟩
          refine ⟨(keyword :: condition ++ colon :: consumed) :: arms, value :: values, last,
            ?_, ?_, congrArg (· + 1) length_eq, List.forall_mem_cons.mpr ⟨isKeyword, cased⟩, defaulted⟩
          · simp
          · rw [Cases.values, values_eq, List.map_cons, List.cons_append]

end Written

theorem Program.parse_eq_ok_iff {tokens : List Token} {file : String} {program : Program} :
    Program.parse tokens file = .ok program ↔ Written.Source tokens program := by
  unfold Program.parse
  constructor
  · intro parsed
    split at parsed
    · rename_i ran
      cases parsed
      exact Parse.program_written ran
    · cases parsed
  · intro written
    rcases Parse.program_accepts written [] file with ⟨passed, fileAfter, ran⟩
    rw [Cursor.ofTokens, ran]

/-- A program is read from some tokens exactly if it is written in them. There is one such program
at most, and the arms of a switch are written so that the last one, and no other, has no value. -/
theorem Program.parse_exact (tokens : List Token) (file : String) :
    (∀ program, Program.parse tokens file = .ok program ↔ Written.Source tokens program) ∧
    (∀ first second, Written.Source tokens first → Written.Source tokens second →
      first = second) ∧
    ∀ cases part rest, Written.Arms part cases rest → Written.EndsInDefault part cases rest := by
  refine ⟨fun program => parse_eq_ok_iff, ?_, fun cases _ _ => Written.Arms.endsInDefault cases⟩
  intro first second firstWritten secondWritten
  have firstRead : Program.parse tokens file = .ok first := parse_eq_ok_iff.mpr firstWritten
  have secondRead : Program.parse tokens file = .ok second := parse_eq_ok_iff.mpr secondWritten
  rw [firstRead] at secondRead
  exact Except.ok.inj secondRead

/-- Keywords are names where a name may stand. -/
theorem Program.parse_exact_keywords :
    ∃ tokens program,
      Script.tokens ("FUN main(DO: END): DO DO SWITCH ELSE CASE DO: FUN; " ++
        "DEFAULT IF x DO LET END: DO = END; ELSE LIST = 2; END END END") "" = .ok tokens ∧
      Written.Source tokens program ∧ ∀ other, Written.Source tokens other → other = program := by
  have evaluated : ((Script.tokens ("FUN main(DO: END): DO DO SWITCH ELSE CASE DO: FUN; " ++
      "DEFAULT IF x DO LET END: DO = END; ELSE LIST = 2; END END END") "").toOption.any
        fun tokens => (Program.parse tokens "").toOption.any fun _ => true) = true := by
    decide +kernel
  rcases exists_ok_of_any evaluated with ⟨tokens, read, passes⟩
  rcases exists_ok_of_any passes with ⟨program, parsed, _⟩
  rcases parse_exact tokens "" with ⟨exact, unique, _⟩
  have written := (exact program).mp parsed
  exact ⟨tokens, program, read, written, fun other also => unique other program also written⟩

end GradualScript
