import GradualScript.Proofs.Grammar.Literal
import GradualScript.Proofs.Grammar.Lookahead
import GradualScript.Script

/-!
# Errors are found at the first token that makes them

Every rule of the grammar has foresight in the sense of `Parse.Foresees`. So where a token that is
not expected is met, the tokens before it are the start of some program, and no program starts with
them and that token.

Statements are brought to an end by a name and a semicolon, blocks by what ends them, and a program
may end after each of its globals and functions.
-/

namespace GradualScript

namespace Parse

open Written

variable {bound : Nat}

/-! ## Statements -/

/-- What comes after the first expression of a statement. It may be an equals sign that cannot stand
there, but then it is not the sign that is reported. -/
theorem plainStatement_goesOn (start : Position) (expr : Expr) :
    Foresees bound 1 (Apart continuers) (do
      if ← accept "=" then
        if expr.isAccess then
          let value ← anyExpression .standard
          let _ ← require ";"
          return Stmt.assignment (← spanSince start) expr value
        else
          report (.located .invalidTarget expr.start)
      else
        let _ ← require ";"
        return Stmt.expression (← spanSince start) expr) Anything := by
  have plain : Foresees bound 1 (Begins (.sign ";")) (do
      let _ ← require ";"
      return Stmt.expression (← spanSince start) expr) Anything :=
    .closing (.sign ";") rfl _ _
  have assignment : Foresees (bound - 1) 1 (Begins (.word "x")) (do
      let value ← anyExpression .standard
      let _ ← require ";"
      return Stmt.assignment (← spanSince start) expr value) Anything :=
    anyExpression_foresees.seq fun value =>
      (Foresees.closing (.sign ";") rfl _ _).leading fun _ => rfl
  refine Foresees.leading (.accept "=" ?_ plain (Nat.le_refl 1) (fun _ begins => ?_)
    fun none => absurd none Nat.one_ne_zero) fun _ => rfl
  · intro cursor token rest ahead inside legible
    cases isAccess : expr.isAccess with
    | true => exact .passing (fun _ => assignment) ahead inside legible
    | false =>
        have aheadOne : cursor.ahead = [token] ++ rest := ahead
        refine .faults (.bind_second aheadOne (next_reads token rest) ?_)
        exact ⟨.invalidTarget, _, _, rfl, rfl⟩
  · have apart : Apart ["="] _ := begins.apart (by decide)
    exact apart.startsWith (by decide)

theorem plainStatement_foresees :
    Foresees bound 1 (Begins (.word "x")) (plainStatement .standard) Anything := by
  have body (start : Position) :=
    (@anyExpression_foresees bound).seq fun expr => plainStatement_goesOn start expr
  refine ⟨fun cursor inside legible => ?_, fun cursor => ?_⟩
  · refine .choice ((body cursor.position).outlook cursor inside legible) fun others same => ?_
    simp only [Cursor.position_past same]
  · refine ((body (Token.word "x").span.start).starts cursor).look fun others begins => ?_
    rcases others with _ | ⟨first, others⟩
    · cases begins
    · cases begins
      rfl

theorem declaration_foresees :
    Foresees bound 1 (Begins (.word "LET")) (declaration .standard) Anything := by
  refine (Foresees.require (.word "LET") rfl).seq fun keyword => ?_
  refine ((Foresees.requireKind (.word "x") rfl _).leading fun _ => trivial).seq fun name => ?_
  have typed : Foresees (bound - 1 - 1) 0 (Apart [":"]) (onlyAfter ":" typeName) (Apart [":"]) :=
    .onlyAfter .typeName (fun _ _ => trivial) fun _ apart => apart.startsWith (by decide)
  -- The initializer may be left out, and what follows then is seen by both options.
  have initialized : Foresees (bound - 1 - 1) 0 (Apart (":" :: "=" :: continuers))
      (onlyAfter "=" (anyExpression .standard)) (Apart (":" :: "=" :: continuers)) :=
    .onlyAfter anyExpression_foresees (fun _ apart => apart.mono (by decide))
      fun _ apart => apart.startsWith (by decide)
  refine (typed.after fun _ _ => trivial).seq fun type => ?_
  refine (initialized.after fun _ apart => apart.mono (by decide)).seq fun initializer => ?_
  exact (Foresees.closing (.sign ";") rfl _ _).leading fun _ => rfl

theorem result_foresees :
    Foresees bound 1 (Begins (.word "RETURN")) (result .standard) Anything := by
  refine (Foresees.require (.word "RETURN") rfl).seq fun keyword => ?_
  refine (anyExpression_foresees.leading fun _ => trivial).seq fun value => ?_
  exact (Foresees.closing (.sign ";") rfl _ _).leading fun _ => rfl

theorem block_starts (terminators : List String) (cursor : Cursor) :
    Starts (Headed terminators) (block .standard terminators) (Headed terminators) cursor := by
  rw [block_unroll]
  refine (Starts.pure []).look fun others headed => ?_
  have isAt : (cursor.past [] others).isAtAny terminators = true := headed
  simp only [isAt, if_true]

theorem statement_starts (cursor : Cursor) :
    Starts (Begins (.word "x")) (statement .standard) Anything cursor := by
  rw [statement_unroll]
  refine ((@plainStatement_foresees 0).starts cursor).look fun others begins => ?_
  rcases others with _ | ⟨first, others⟩
  · cases begins
  · cases begins
    rfl

section

variable (foresees : Foresees bound 1 (Begins (.word "x")) (statement .standard) Anything)

include foresees

theorem block_foresees (terminators : List String) :
    Foresees bound 0 (Headed terminators) (block .standard terminators) (Headed terminators) := by
  induction bound with
  | zero => exact .zero (block_starts terminators)
  | succ bound ih =>
      have more := ih (foresees.narrow (Nat.le_succ bound))
      have goesOn := foresees.last (fun first => (more.last (fun others =>
        .pure (first :: others)) fun _ headed => headed).after fun _ _ => trivial)
        fun _ _ => trivial
      refine ⟨fun cursor inside legible => ?_, block_starts terminators⟩
      rw [block_unroll]
      cases isAt : cursor.isAtAny terminators with
      | true => 
          refine .look ?_ (fun others same => ?_) fun _ others headed => ?_
          · simp only [isAt, if_true]
            exact (Foresees.pure []).outlook cursor inside legible
          · simp only [Cursor.isAtAny_past same, Cursor.isDone_past same]
          · have nowAt : (cursor.past [] others).isAtAny terminators = true := headed
            simp only [nowAt, isAt, if_true]
      | false =>
          refine Outlook.fewer (.choice ?_ fun others same => ?_) (Nat.zero_le 1)
          · simp only [isAt, Bool.false_eq_true, if_false]
            split
            · exact .fail _
            · exact goesOn.outlook cursor inside legible
          · simp only [Cursor.isAtAny_past same, Cursor.isDone_past same]

theorem loopWith_foresees :
    Foresees (bound + 1) 1 (Begins (.word "WHILE")) (loopWith .standard (statement .standard))
      Anything := by
  refine (Foresees.require (.word "WHILE") rfl).seq fun keyword => ?_
  refine (anyExpression_foresees.leading fun _ => trivial).seq fun condition => ?_
  refine ((Foresees.require (.word "DO") rfl).leading fun _ => rfl).seq fun _ => ?_
  have body := block_foresees (foresees.narrow (Nat.sub_le bound 2)) ["END"]
  refine (body.after fun _ _ => trivial).seq fun statements => ?_
  exact (Foresees.closing (.word "END") rfl _ _).leading fun _ => rfl

theorem branchWith_foresees :
    Foresees (bound + 1) 1 (Begins (.word "IF")) (branchWith .standard (statement .standard))
      Anything := by
  refine (Foresees.require (.word "IF") rfl).seq fun keyword => ?_
  refine (anyExpression_foresees.leading fun _ => trivial).seq fun condition => ?_
  refine ((Foresees.require (.word "DO") rfl).leading fun _ => rfl).seq fun _ => ?_
  have thenBody := block_foresees (foresees.narrow (Nat.sub_le bound 2)) ["ELSE", "END"]
  have elseBody := block_foresees (foresees.narrow (Nat.sub_le bound 3)) ["END"]
  refine (thenBody.after fun _ _ => trivial).seq fun thenStatements => ?_
  have close (bound : Nat) (elseStatements : List Stmt) :
      Foresees bound 1 (Begins (.word "END")) (do
      let _ ← require "END"
      return Stmt.branch (← spanSince keyword.span.start) condition thenStatements elseStatements)
      Anything :=
    .closing (.word "END") rfl _ _
  have withElse := elseBody.seq fun statements => (close _ statements).leading fun _ => rfl
  have without := (Foresees.pure []).seq (close (bound - 2))
  have notElse (tokens : List Token) (begins : Begins (.word "END") tokens) :
      startsWith tokens "ELSE" = false := by
    have apart : Apart ["ELSE"] tokens := begins.apart (by decide)
    exact apart.startsWith (by decide)
  have choice := Foresees.accept "ELSE" (.passing fun _ => withElse) without (Nat.le_refl 1) notElse
    fun none => absurd none Nat.one_ne_zero
  exact choice.leading fun _ => rfl

theorem default_foresees :
    Foresees bound 1 (Begins (.word "DEFAULT")) (do
      let keyword ← require "DEFAULT"
      let body ← block .standard ["END"]
      return Cases.default (← spanSince keyword.span.start) body) (Headed ["END"]) := by
  have body := block_foresees (foresees.narrow (Nat.sub_le bound 1)) ["END"]
  refine (Foresees.require (.word "DEFAULT") rfl).last (fun keyword => ?_) fun _ _ => trivial
  exact (body.after fun _ _ => trivial).last (fun _ => .spanned _ _) fun _ headed => headed

omit foresees in
theorem arms_starts (cursor : Cursor) :
    Starts (Begins (.word "DEFAULT")) (arms .standard) (Headed ["END"]) cursor := by
  rw [arms_unroll]
  refine ((default_foresees (.zero statement_starts)).starts cursor).look fun others begins => ?_
  have apart : Apart ["CASE"] others := begins.apart (by decide)
  have notCase : (cursor.past [] others).isAt "CASE" = false := apart.startsWith (by decide)
  simp only [notCase, Bool.false_eq_true, if_false]

theorem arms_foresees :
    Foresees bound 1 (Begins (.word "DEFAULT")) (arms .standard) (Headed ["END"]) := by
  induction bound with
  | zero => exact .zero arms_starts
  | succ bound ih =>
      have more := ih (foresees.narrow (Nat.le_succ bound))
      have body := block_foresees (foresees.narrow (Nat.sub_le (bound + 1) 3))
        ["CASE", "DEFAULT", "END"]
      have goesOn (keyword : Token) : Foresees (bound + 1 - 1) 1 (Begins (.word "x")) (do
          let value ← anyExpression .standard
          let _ ← require ":"
          let body ← block .standard ["CASE", "DEFAULT", "END"]
          let span ← spanSince keyword.span.start
          return Cases.case span value body (← arms .standard)) (Headed ["END"]) := by
        refine anyExpression_foresees.seq fun value => ?_
        refine ((Foresees.require (.sign ":") rfl).leading fun _ => rfl).seq fun _ => ?_
        refine (body.after fun _ _ => trivial).seq fun statements => ?_
        refine (Foresees.spanSince _).seq fun span => ?_
        refine ((more.narrow (Nat.sub_le bound 2)).leading fun _ => rfl).last (fun _ => .pure _) ?_
        exact fun _ headed => headed
      refine ⟨fun cursor inside legible => ?_, arms_starts⟩
      rw [arms_unroll]
      refine .choice ?_ fun others same => ?_
      · split
        · rename_i isCase
          rcases Cursor.exists_of_isAt isCase with ⟨token, rest, ahead, _⟩
          exact .passing goesOn ahead inside legible
        · exact (default_foresees foresees).outlook cursor inside legible
      · simp only [Cursor.isAt_past same]

theorem switchWith_foresees :
    Foresees (bound + 1) 1 (Begins (.word "SWITCH")) (switchWith .standard (statement .standard))
      Anything := by
  refine (Foresees.require (.word "SWITCH") rfl).seq fun keyword => ?_
  refine (anyExpression_foresees.leading fun _ => trivial).seq fun subject => ?_
  have cases := arms_foresees (foresees.narrow (Nat.sub_le bound 1))
  refine (cases.leading fun _ => rfl).seq fun cases => ?_
  exact (Foresees.closing (.word "END") rfl _ _).leading fun _ => rfl

theorem statementWith_foresees :
    Foresees (bound + 1) 1 (Begins (.word "x")) (statementWith .standard (statement .standard))
      Anything := by
  refine ⟨fun cursor inside legible => ?_, fun cursor => ?_⟩
  · refine .choice ?_ fun others same => ?_
    · split
      · exact declaration_foresees.outlook cursor inside legible
      · exact (branchWith_foresees foresees).outlook cursor inside legible
      · exact (switchWith_foresees foresees).outlook cursor inside legible
      · exact (loopWith_foresees foresees).outlook cursor inside legible
      · exact result_foresees.outlook cursor inside legible
      · exact plainStatement_foresees.outlook cursor inside legible
    · simp only [Cursor.past, same]
  · rw [← statement_unroll]
    exact statement_starts cursor

end

theorem statement_foresees :
    Foresees bound 1 (Begins (.word "x")) (statement .standard) Anything := by
  induction bound with
  | zero => exact .zero statement_starts
  | succ bound ih =>
      rw [statement_unroll]
      exact statementWith_foresees ih

/-! ## Programs -/

theorem global_foresees :
    Foresees bound 1 (Begins (.word "VAR")) (global .standard) Anything := by
  refine (Foresees.next (.word "VAR")).seq fun keyword => ?_
  refine ((Foresees.requireKind (.word "x") rfl _).leading fun _ => trivial).seq fun name => ?_
  refine ((Foresees.require (.sign ":") rfl).leading fun _ => trivial).seq fun _ => ?_
  refine (Foresees.typeName.leading fun _ => trivial).seq fun type => ?_
  have close (bound : Nat) (initializer : Option Expr) :
      Foresees bound 1 (Begins (.sign ";")) (do
        let _ ← require ";"
        return (⟨← spanSince keyword.span.start, name.text, type,
          keyword.text = "LIST" || keyword.text = "VAR", initializer, none⟩ : Global)) Anything :=
    .closing (.sign ";") rfl _ _
  split
  · refine ((Foresees.require (.sign "=") rfl).leading fun _ => trivial).seq fun _ => ?_
    have elements := (@list_foresees (bound - 1 - 1 - 1 - 1 - 1)).last
      (fun elements => .pure (some elements)) fun _ _ => trivial
    refine (elements.leading fun _ => trivial).seq fun initializer => ?_
    exact (close _ initializer).leading fun _ => trivial
  · split
    · have initialized : Foresees (bound - 1 - 1 - 1 - 1) 0 (Apart ("=" :: continuers))
          (onlyAfter "=" (anyExpression .standard)) (Apart ("=" :: continuers)) :=
        .onlyAfter anyExpression_foresees (fun _ apart => apart.mono (by decide))
          fun _ apart => apart.startsWith (by decide)
      refine (initialized.after fun _ _ => trivial).seq fun initializer => ?_
      exact (close _ initializer).leading fun _ => rfl
    · refine ((Foresees.require (.sign "=") rfl).leading fun _ => trivial).seq fun _ => ?_
      have value := (@anyExpression_foresees (bound - 1 - 1 - 1 - 1 - 1)).last
        (fun value => .pure (some value)) fun _ apart => apart
      refine (value.leading fun _ => trivial).seq fun initializer => ?_
      exact (close _ initializer).leading fun _ => rfl

theorem parameter_foresees :
    Foresees bound 1 (Begins (.word "x")) parameter Anything := by
  refine (Foresees.requireKind (.word "x") rfl _).seq fun name => ?_
  refine ((Foresees.require (.sign ":") rfl).leading fun _ => trivial).seq fun _ => ?_
  exact (Foresees.typeName.leading fun _ => trivial).last (fun _ => .pure _) fun _ _ => trivial

theorem function_foresees :
    Foresees bound 1 (Begins (.word "FUN")) (function .standard) Anything := by
  refine (Foresees.require (.word "FUN") rfl).seq fun keyword => ?_
  refine ((Foresees.requireKind (.word "x") rfl _).leading fun _ => trivial).seq fun name => ?_
  refine ((Foresees.require (.sign "(") rfl).leading fun _ => trivial).seq fun _ => ?_
  have parameters : Foresees (bound - 1 - 1 - 1) 1 (Begins (.sign ")")) (itemsUntil ")" parameter)
      Anything :=
    .itemsUntil _ rfl (fun _ => parameter_safe.fewer) parameter_foresees fun _ => ⟨trivial, rfl⟩
  refine (parameters.leading fun _ => trivial).seq fun parameters => ?_
  have typed : Foresees (bound - 1 - 1 - 1 - 1) 0 (Apart [":"]) (onlyAfter ":" typeName)
      (Apart [":"]) :=
    .onlyAfter .typeName (fun _ _ => trivial) fun _ apart => apart.startsWith (by decide)
  refine (typed.after fun _ _ => trivial).seq fun type => ?_
  refine ((Foresees.require (.word "DO") rfl).leading fun _ => rfl).seq fun _ => ?_
  refine ((block_foresees statement_foresees ["END"]).after fun _ _ => trivial).seq fun body => ?_
  exact (Foresees.closing (.word "END") rfl _ _).leading fun _ => rfl

theorem program_foresees :
    Foresees bound 0 (· = []) (program .standard) (· = []) := by
  have done (globals : List Global) (functions : List Function) : Foresees bound 0 (· = []) (do
      if (← get).isDone then return (⟨globals, functions⟩ : Program)
      else fail "expected global or function definition") (· = []) := by
    refine ⟨fun cursor inside legible => ?_, fun cursor => ?_⟩
    · cases isDone : cursor.isDone with
      | true =>
          refine .look ?_ (fun others same => ?_) fun _ others none => ?_
          · simp only [isDone, if_true]
            exact (Foresees.pure _).outlook cursor inside legible
          · simp only [Cursor.isDone_past same]
          · rw [none]
            simp only [isDone, if_true]
            rfl
      | false =>
          refine Outlook.fewer (.choice ?_ fun others same => ?_) (Nat.zero_le 1)
          · simp only [isDone, Bool.false_eq_true, if_false]
            exact .fail _
          · simp only [Cursor.isDone_past same]
    · refine (Starts.pure (⟨globals, functions⟩ : Program)).look fun others none => ?_
      rw [none]
      rfl
  have functions : Foresees bound 0 (· = []) (whileAt ["FUN"] (function .standard)) (· = []) :=
    .whileAt (fun _ => function_safe) function_foresees fun others none => by rw [none]; rfl
  have globals : Foresees bound 0 (· = []) (whileAt ["LIST", "VAR", "VAL"] (global .standard))
      (· = []) :=
    .whileAt (fun _ => global_safe) global_foresees fun others none => by rw [none]; rfl
  refine globals.last (fun globals => ?_) fun _ none => none
  exact functions.last (done globals) fun _ none => none

end Parse

/-- What the tokens of a text stand for is found unreadable, if at all, and not unexpected. -/
theorem Token.legible_of_tokens {source file : String} {tokens : List Token} {token : Token}
    (tokenized : Script.tokens source file = .ok tokens) (isToken : token ∈ tokens) :
    token.Legible := by
  unfold Script.tokens at tokenized
  split at tokenized
  · rename_i read
    cases tokenized
    have form := form_of_tokenize read isToken
    intro halt found
    unfold Parse.literal? at found
    split at found
    · split at found
      · cases found
      · cases found
        exact ⟨_, _, rfl, rfl⟩
    · split at found
      · cases found
      · cases found
        exact ⟨_, _, rfl, rfl⟩
    · rename_i isCharacter
      rw [isCharacter] at form
      rcases form.exists_quotes_character with ⟨piece, c, quotes⟩
      rw [Parse.quotedText?_eq quotes rfl] at found
      cases found
    · rename_i isString
      rw [isString] at form
      rcases form.exists_quotes_string with ⟨pieces, values, quotes⟩
      rw [Parse.quotedText?_eq quotes rfl] at found
      cases found
    · split at found
      · cases found
      · split at found
        · cases found
        · split at found <;> cases found
    · cases found
  · cases tokenized

namespace Program

variable {tokens : List Token} {file : String}

theorem parse_of_reads {program : Program}
    (reads : (Parse.program .standard).Reads (.ofTokens [] file) tokens program []) :
    Program.parse tokens file = .ok program := by
  have ran : Parse.program .standard (.ofTokens (tokens ++ []) file) = .ok program _ := reads
  rw [List.append_nil] at ran
  rw [Program.parse, ran]

theorem parse_of_rejects {consumed others : List Token} {message : String}
    (rejects : (Parse.program .standard).Rejects (.ofTokens [] file) consumed message others) :
    Program.parse (consumed ++ others) file =
      .error (.reported (((Cursor.ofTokens [] file).past consumed others).mismatch message)) := by
  have ran : Parse.program .standard (.ofTokens (consumed ++ others) file) = .error _ _ := rejects
  rw [Program.parse, ran]

/-- What is reported where the next token, or the end, is not expected. -/
theorem mismatch_eq {consumed rest : List Token} {message : String} {cause : Cause}
    {position : Position}
    (same : ((Cursor.ofTokens [] file).past consumed rest).mismatch message =
      .located cause position) :
    (∃ token, (consumed ++ rest)[consumed.length]? = some token ∧
      cause = .unexpectedToken token.text message ∧ position = token.span.start) ∨
    (consumed.length = (consumed ++ rest).length ∧ cause = .unexpectedEnd message ∧
      position = ((consumed ++ rest).getLast?.map (·.span.stop)).getD ⟨0, file⟩) := by
  rcases rest with _ | ⟨token, rest⟩
  · refine .inr ?_
    cases same
    refine ⟨by simp, rfl, ?_⟩
    simp only [Cursor.endOfTokens, Cursor.past, Cursor.ofTokens, List.append_nil,
      List.getLast?_nil, List.head?_reverse]
    cases consumed.getLast? <;> rfl
  · cases same
    exact .inl ⟨token, by simp, rfl, rfl⟩

/-- Where the tokens of a text are refused because a token, or their end, is not expected, the place
that is reported is the start of that token or the end of the last one. The tokens before it are the
start of a program, and whatever starts with them and that token is refused in the same way. -/
theorem parse_correct_prefix {source : String} {cause : Cause} {position : Position}
    (tokenized : Script.tokens source file = .ok tokens)
    (failed : Program.parse tokens file = .error (.reported (.located cause position)))
    (unexpected : cause.isUnexpected = true) :
    ∃ k message, k ≤ tokens.length ∧
      Parse.program .standard (.ofTokens tokens file) =
        .error (.reported (.located cause position))
          ⟨(tokens.take k).reverse, tokens.drop k, file⟩ ∧
      ((∃ token, tokens[k]? = some token ∧ cause = .unexpectedToken token.text message ∧
          position = token.span.start) ∨
        (k = tokens.length ∧ cause = .unexpectedEnd message ∧
          position = (tokens.getLast?.map (·.span.stop)).getD ⟨0, file⟩)) ∧
      (∃ more program, Program.parse (tokens.take k ++ more) file = .ok program) ∧
      ∀ others, k < tokens.length → tokens.take (k + 1) <+: others →
        Program.parse others file = .error (.reported (.located cause position)) := by
  have foresees := @Parse.program_foresees (tokens.length + 1)
  have legible : ∀ token ∈ (Cursor.ofTokens tokens file).ahead, token.Legible := fun token mem =>
    Token.legible_of_tokens tokenized mem
  cases foresees.outlook (.ofTokens tokens file) (Nat.lt_succ_self _) legible with
  | @reads program consumed rest ahead _ persists =>
      have ahead : tokens = consumed ++ rest := ahead
      have ran : Parse.program .standard (.ofTokens (consumed ++ rest) file) = .ok program _ :=
        persists rest (.inl rfl)
      rw [Program.parse, ahead, ran] at failed
      cases failed
  | faults found =>
      rcases found with ⟨_, _, _, ran, isOther⟩
      rw [Program.parse, ran] at failed
      cases failed
      rw [isOther] at unexpected
      cases unexpected
  | @stuck message consumed rest ahead persists completes =>
      have ahead : tokens = consumed ++ rest := ahead
      subst ahead
      rw [parse_of_rejects (persists rest rfl)] at failed
      have same := Halt.reported.inj (Except.error.inj failed)
      refine ⟨consumed.length, message, by simp, ?_, mismatch_eq same, ?_, ?_⟩
      · have ran : Parse.program .standard (.ofTokens (consumed ++ rest) file) = .error _ _ :=
          persists rest rfl
        have stopped : (Cursor.ofTokens (consumed ++ rest) file).past consumed rest =
            ⟨consumed.reverse, rest, file⟩ := by
          simp [Cursor.past, Cursor.ofTokens]
        rw [List.take_left, List.drop_left, ran, ← same, ← stopped]
        rfl
      · rw [List.take_left]
        rcases foresees.completes completes with ⟨more, program, reads⟩
        exact ⟨more, program, parse_of_reads (reads [] rfl)⟩
      · intro others inside starts
        rcases rest with _ | ⟨token, rest⟩
        · simp at inside
        rcases starts with ⟨behind, rfl⟩
        have taken : (consumed ++ token :: rest).take (consumed.length + 1) ++ behind =
            consumed ++ (token :: behind) := by
          rw [List.take_length_add_append]
          simp
        rw [taken, parse_of_rejects (persists (token :: behind) rfl), ← same]
        rfl

/-- The signs after `a` are not joined, so the second of them is not expected. -/
theorem parse_correct_prefix_order :
    ∃ tokens, Script.tokens "VAL b:B=a< =" "" = .ok tokens ∧
      Program.parse tokens "" = .error (.reported
        (.located (.unexpectedToken "=" "expected expression") ⟨11, ""⟩)) ∧
      ∃ k, (tokens.drop k).map (·.text) = ["="] ∧
        (∃ more program, Program.parse (tokens.take k ++ more) "" = .ok program) ∧
        ∀ others, tokens.take (k + 1) <+: others → Program.parse others "" = .error (.reported
          (.located (.unexpectedToken "=" "expected expression") ⟨11, ""⟩)) := by
  have evaluated : ((Script.tokens "VAL b:B=a< =" "").toOption.any fun tokens => tokens =
      [⟨.identifier, "VAL", ⟨0, ""⟩, ⟨3, ""⟩⟩, ⟨.identifier, "b", ⟨4, ""⟩, ⟨5, ""⟩⟩,
        ⟨.operator, ":", ⟨5, ""⟩, ⟨6, ""⟩⟩, ⟨.identifier, "B", ⟨6, ""⟩, ⟨7, ""⟩⟩,
        ⟨.operator, "=", ⟨7, ""⟩, ⟨8, ""⟩⟩, ⟨.identifier, "a", ⟨8, ""⟩, ⟨9, ""⟩⟩,
        ⟨.operator, "<", ⟨9, ""⟩, ⟨10, ""⟩⟩, ⟨.operator, "=", ⟨11, ""⟩, ⟨12, ""⟩⟩]) = true := by
    decide +kernel
  rcases exists_ok_of_any evaluated with ⟨tokens, tokenized, listed⟩
  have listed := of_decide_eq_true listed
  have stopped : ∃ passed, Parse.program .standard (.ofTokens tokens "") =
      .error (.reported (.located (.unexpectedToken "=" "expected expression") ⟨11, ""⟩))
        ⟨passed, [⟨.operator, "=", ⟨11, ""⟩, ⟨12, ""⟩⟩], ""⟩ := by
    rw [listed]
    exact ⟨_, rfl⟩
  rcases stopped with ⟨passed, stopped⟩
  have failed : Program.parse tokens "" = .error (.reported
      (.located (.unexpectedToken "=" "expected expression") ⟨11, ""⟩)) := by
    rw [Program.parse, stopped]
  rcases parse_correct_prefix tokenized failed rfl with ⟨k, _, _, ran, _, starts, always⟩
  rw [stopped] at ran
  injection ran with _ cursors
  have left : tokens.drop k = [⟨.operator, "=", ⟨11, ""⟩, ⟨12, ""⟩⟩] :=
    (congrArg Cursor.ahead cursors).symm
  have inside : k < tokens.length := by
    have one := congrArg List.length left
    rw [List.length_drop, List.length_singleton] at one
    omega
  exact ⟨tokens, tokenized, failed, k, by rw [left]; rfl, starts,
    fun others => always others inside⟩

end Program

end GradualScript
