import GradualScript.Proofs.Grammar.Exactness
import GradualScript.Proofs.Grammar.Precedence
import GradualScript.Proofs.Token.Decomposition

/-!
# There is one tree by precedence

The other direction of `Precedence`: an expression that is nested by level is read from the tokens
that spell it, whatever comes behind them, if that cannot be taken for more of it. Spans and what
checking adds are left out of account.

An operation is not read as it is nested. Its leftmost operand is read first, and every operator on
the way up from there makes an operation of all that was read before. So the induction is on the
expression, with the rest of the chain as a hypothesis: from any expression of the same outline, the
chain goes on to a result.
-/

namespace GradualScript

namespace Expr

mutual

/-- An expression without places, types and bindings. -/
def outline : Expr → Expr
  | .literal _ _ value => .literal ⟨.null, .null⟩ none value
  | .group _ _ inner => .group ⟨.null, .null⟩ none inner.outline
  | .binary _ _ operator left right =>
    .binary ⟨.null, .null⟩ none operator left.outline right.outline
  | .access _ _ name _ => .access ⟨.null, .null⟩ none name none
  | .element _ _ name _ offset => .element ⟨.null, .null⟩ none name none offset.outline
  | .call _ _ name _ arguments => .call ⟨.null, .null⟩ none name none (outlineAll arguments)
  | .list _ _ elements => .list ⟨.null, .null⟩ none (outlineAll elements)

/-- Some expressions without places, types and bindings. -/
def outlineAll : List Expr → List Expr
  | [] => []
  | expr :: others => expr.outline :: outlineAll others

end

/-- Whether the last token of an expression is the name of a variable. -/
def endsInName : Expr → Bool
  | .access _ _ _ _ => true
  | .binary _ _ _ _ right => right.endsInName
  | _ => false

/-- Whether the tokens behind an expression cannot be taken for arguments or an offset of it. -/
def ClosedBefore (expr : Expr) (rest : List Token) : Prop :=
  expr.endsInName = true → Written.startsWith rest "(" = false ∧ Written.startsWith rest "[" = false

/-- An operator that an expression starts with is a parenthesis. -/
theorem Spelled.starts (expr : Expr) {inside : List Token → Prop} {tokens : List Token}
    (spelled : expr.Spelled inside tokens) :
    ∃ token rest, tokens = token :: rest ∧ (token.kind = .operator → token.text = "(") := by
  cases expr with
  | literal =>
      rcases spelled with ⟨token, rfl, isLiteral⟩
      refine ⟨token, [], rfl, fun isOperator => ?_⟩
      simp [Parse.literal?, isOperator] at isLiteral
  | group =>
      rcases spelled with ⟨opener, body, closer, rfl, _, text_eq, _⟩
      exact ⟨opener, _, rfl, fun _ => text_eq⟩
  | binary _ _ operator left right =>
      rcases spelled with ⟨first, sign, last, rfl, leftSpelled, _⟩
      rcases Spelled.starts left leftSpelled with ⟨token, rest, rfl, opens⟩
      exact ⟨token, _, rfl, opens⟩
  | access =>
      rcases spelled with ⟨token, rfl, names⟩
      exact ⟨token, [], rfl, by simp [names.kind_eq]⟩
  | element =>
      rcases spelled with ⟨token, opener, body, closer, rfl, names, _⟩
      exact ⟨token, _, rfl, by simp [names.kind_eq]⟩
  | call =>
      rcases spelled with ⟨token, opener, body, closer, rfl, names, _⟩
      exact ⟨token, _, rfl, by simp [names.kind_eq]⟩
  | list => exact spelled.elim

theorem AllSpelled.starts {inside : List Token → Prop} {expr : Expr} {others : List Expr}
    {tokens : List Token} (spelled : AllSpelled inside (expr :: others) tokens) :
    ∃ token rest, tokens = token :: rest ∧ (token.kind = .operator → token.text = "(") := by
  rcases others with _ | ⟨next, others⟩
  · exact Spelled.starts expr spelled
  · rcases spelled with ⟨first, comma, rest, rfl, spelled, _⟩
    rcases Spelled.starts expr spelled with ⟨token, more, rfl, opens⟩
    exact ⟨token, _, rfl, opens⟩

end Expr

namespace Operator

variable {operator other : Operator} {sign otherSign rest otherRest : List Token}

/-- An operator starts with the sign of an operator. -/
theorem WrittenAs.starts (written : operator.WrittenAs sign) :
    ∃ token others, sign = token :: others ∧ token.kind = .operator ∧
      token.text ∈ all.map symbol := by
  cases written with
  | one isOperator text_eq =>
      refine ⟨_, [], rfl, isOperator, ?_⟩
      rw [text_eq]
      cases operator <;> decide
  | two isOperator orEqual _ =>
      refine ⟨_, _, rfl, isOperator, ?_⟩
      unfold Grammar.orEqual? at orEqual
      split at orEqual
      · rename_i text_eq
        rw [text_eq]
        decide
      · split at orEqual
        · rename_i text_eq
          rw [text_eq]
          decide
        · cases orEqual

theorem WrittenAs.startsWith (written : operator.WrittenAs sign) {text : String}
    (notSign : text ∉ all.map symbol) (rest : List Token) :
    Written.startsWith (sign ++ rest) text = false := by
  rcases written.starts with ⟨token, others, rfl, _, isSign⟩
  refine Bool.eq_false_iff.mpr fun reads => notSign ?_
  rwa [← Written.text_of_reads reads]

/-- Operators that are written at one place are of one level. -/
theorem WrittenAs.level_eq (written : operator.WrittenAs sign)
    (otherWritten : other.WrittenAs otherSign) (same : sign ++ rest = otherSign ++ otherRest) :
    operator.level = other.level := by
  let cursor : Cursor := ⟨[], sign ++ rest, ""⟩
  rcases Grammar.exists_operatorAt? (show cursor.ahead = _ from rfl) written with
    ⟨_, _, found, level_eq⟩
  rcases Grammar.exists_operatorAt? (show cursor.ahead = _ from same) otherWritten with
    ⟨_, _, otherFound, otherLevel_eq⟩
  rw [found] at otherFound
  cases otherFound
  rw [← level_eq, otherLevel_eq]

end Operator

namespace Written

variable {level : Nat} {tokens : List Token}

theorem Stops.mono {higher : Nat} (stops : Stops level tokens) (le : level ≤ higher) :
    Stops higher tokens :=
  fun operator sign rest same written => Nat.le_trans (stops operator sign rest same written) le

theorem stops_of_reads {token : Token} {text : String} (reads : token.reads text = true)
    (notSign : text ∉ Operator.all.map Operator.symbol) (rest : List Token) :
    Stops level (token :: rest) := by
  intro operator sign others same written
  have starts := written.startsWith notSign others
  rw [← same, startsWith_cons, reads] at starts
  cases starts

theorem stops_of_writtenAs {operator : Operator} {sign : List Token}
    (written : operator.WrittenAs sign) (le : operator.level ≤ level) (rest : List Token) :
    Stops level (sign ++ rest) := by
  intro other otherSign others same otherWritten
  rwa [otherWritten.level_eq written same.symm]

end Written

/-- An operator is found where it is written, if its right operand comes next. -/
theorem Grammar.operatorAt?_of_writtenAs {cursor : Cursor} {operator : Operator}
    {sign rest : List Token} {token : Token} (written : operator.WrittenAs sign)
    (ahead : cursor.ahead = sign ++ token :: rest)
    (opens : token.kind = .operator → token.text = "(") :
    standard.operatorAt? cursor = some (operator, sign.length) := by
  cases written with
  | two isOperator orEqual behind =>
      simp [operatorAt?, ahead, isOperator, behind, orEqual]
  | @one first isOperator text_eq =>
      have narrow : isEqualsBehind first token = false := by
        simp_all [isEqualsBehind]
      simp [operatorAt?, ahead, isOperator, narrow, text_eq, operator?_symbol]

namespace Parse

open Written

variable {tokens middle rest after : List Token}

theorem Accepts.skip (sign rest : List Token) :
    Accepts (modify (·.skip sign.length)) (sign ++ rest) () rest := by
  intro passed file
  let cursor : Cursor := ⟨passed, sign ++ rest, file⟩
  have ahead := ahead_skip cursor sign rest rfl
  refine ⟨(cursor.skip sign.length).passed, (cursor.skip sign.length).file, ?_⟩
  conv => rhs; rw [← ahead]
  rfl

section

variable {expression : Parse Expr} {token : Token} {name : String}

theorem literal?_of_names (names : token.Names name) : literal? token = none := by
  rcases names with ⟨isName, rfl, notLiteral⟩
  simp only [List.mem_cons, List.not_mem_nil, or_false, not_or] at notLiteral
  simp [literal?, isName, notLiteral]

theorem operandWith_literal_accepts {value : Literal}
    (isLiteral : literal? token = some (.ok value)) (rest : List Token) :
    Accepts (operandWith expression) (token :: rest) (.literal token.span none value) rest := by
  refine .look fun cursor ahead => ?_
  simp only [ahead, isLiteral]
  exact (Accepts.next token rest).bind (.pure _ _)

theorem operandWith_named_accepts {expr : Expr} (names : token.Names name)
    (accepts : Accepts (named expression) (token :: tokens) expr rest) :
    Accepts (operandWith expression) (token :: tokens) expr rest := by
  refine .look fun cursor ahead => ?_
  simp only [ahead, literal?_of_names names, names.kind_eq, if_true]
  exact accepts

theorem operandWith_group_accepts {inner : Expr} {closer : Token}
    (isOperator : token.kind = .operator) (text_eq : token.text = "(")
    (accepts : Accepts expression tokens inner (closer :: rest))
    (closes : closer.reads ")" = true) :
    Accepts (operandWith expression) (token :: tokens)
      (.group ⟨token.span.start, closer.span.stop⟩ none inner) rest := by
  refine .look fun cursor ahead => ?_
  have notLiteral : literal? token = none := by simp [literal?, isOperator]
  have reads : token.reads "(" = true := by simp [Token.reads, isOperator, text_eq]
  simp only [ahead, notLiteral, isOperator, text_eq, if_true, if_false, reduceCtorEq]
  exact (Accepts.require reads _).bind (accepts.bind (.close closes rest _ fun span =>
    Expr.group span none inner))

theorem named_access_accepts (names : token.Names name) (notCall : startsWith rest "(" = false)
    (notElement : startsWith rest "[" = false) :
    Accepts (named expression) (token :: rest) (.access token.span none name none) rest := by
  rw [← names.text_eq]
  exact (Accepts.next token rest).bind (.acceptNo notCall (.acceptNo notElement (.pure _ _)))

theorem named_element_accepts {offset : Expr} {opener closer : Token} (names : token.Names name)
    (opens : opener.reads "[" = true) (accepts : Accepts expression tokens offset (closer :: rest))
    (closes : closer.reads "]" = true) :
    Accepts (named expression) (token :: opener :: tokens)
      (.element ⟨token.span.start, closer.span.stop⟩ none name none offset) rest := by
  rw [← names.text_eq]
  have notCall := startsWith_of_reads opens tokens (show "[" ≠ "(" by decide)
  refine (Accepts.next token _).bind (.acceptNo notCall (.acceptYes opens (accepts.bind ?_)))
  exact .close closes rest _ fun span => Expr.element span none token.text none offset

theorem named_call_accepts {arguments : List Expr} {opener closer : Token} {rule : Rule Expr}
    (names : token.Names name) (opens : opener.reads "(" = true)
    (accepts : ∀ tokens value rest, rule tokens value rest →
      Accepts expression tokens value rest ∧ rest.length ≤ tokens.length)
    (written : Items ")" rule closer tokens arguments rest) :
    Accepts (named expression) (token :: opener :: tokens)
      (.call ⟨token.span.start, closer.span.stop⟩ none name none arguments) rest := by
  rw [← names.text_eq]
  refine (Accepts.next token _).bind (.acceptYes opens ?_)
  intro passed file
  rcases itemsUntil_accepts accepts (by decide) written passed file with
    ⟨passedAfter, fileAfter, ran⟩
  refine ⟨closer :: passedAfter, fileAfter, ?_⟩
  simp only [bind_eq_ok_iff, spanSince_eq_ok_iff, pure_eq_ok_iff]
  exact ⟨arguments, _, ran, _, _, ⟨rfl, rfl⟩, rfl, rfl⟩

end

section

variable {expression : Power → Parse Expr} {power : Power} {count : Nat} {left : Expr}

theorem chainWithin_done (stops : Stops power.rank rest) :
    Accepts (chainWithin .standard expression power (count + 1) left) rest left rest := by
  refine .look fun cursor ahead => ?_
  rw [← ahead] at stops
  cases found : Grammar.standard.operatorAt? cursor with
  | none => exact .pure _ _
  | some pair =>
      rcases pair with ⟨operator, width⟩
      have notHigher : ¬power < Grammar.standard.powerOf operator := by
        have le := Grammar.stops_iff.mp stops operator width found
        rw [← Grammar.rank_powerOf] at le
        exact Nat.not_lt.mpr le
      simp only [notHigher, if_false]
      exact .pure _ _

theorem chainWithin_more {operator : Operator} {sign : List Token} {token : Token} {right : Expr}
    {result : Expr} (written : operator.WrittenAs sign)
    (opens : token.kind = .operator → token.text = "(")
    (higher : power.rank < operator.level)
    (read : Accepts (expression (Grammar.standard.powerOf operator)) (token :: tokens) right middle)
    (further : Accepts (chainWithin .standard expression power count
      (.binary (left.span.through right.span) none operator left right)) middle result rest) :
    Accepts (chainWithin .standard expression power (count + 1) left) (sign ++ token :: tokens)
      result rest := by
  refine .look fun cursor ahead => ?_
  have found := Grammar.operatorAt?_of_writtenAs written ahead opens
  have isHigher : power < Grammar.standard.powerOf operator := by
    change power.rank < _
    rwa [Grammar.rank_powerOf]
  simp only [found, isHigher, if_true]
  refine Accepts.bind (.look fun again againAhead => ?_) further
  rw [Grammar.operatorAt?_of_writtenAs written againAhead opens]
  exact (Accepts.skip sign _).bind (read.bind (.pure _ _))

end

/-- Whether an expression is read from the tokens that spell it as far as it goes, and what comes
behind it is then read as if it stood alone: if from an expression of the same outline the chain of
operators goes on to a good result, there is one. -/
def Climbs (expr : Expr) : Prop :=
  ∀ (consumed rest after : List Token) (power : Power) (budget : Nat) (good : Expr → Prop),
    expr.Spelled Unclosed consumed → expr.Graded → expr.Above power.rank →
    (∀ operator, expr.operator? = some operator → Stops operator.level rest) →
    expr.ClosedBefore rest → (consumed ++ rest).length ≤ budget →
    (∀ left count, left.outline = expr.outline → rest.length < count → ∃ result, good result ∧
      Accepts (chainWithin .standard (expressionWithin .standard budget) power count left) rest
        result after) →
    ∃ result, good result ∧
      Accepts (expressionWithin .standard (budget + 1) power) (consumed ++ rest) result after

namespace Climbs

variable {span : Span} {ty : Option Ty}

/-- A whole expression is read up to where it cannot go on. -/
theorem accepts {expr : Expr} (climbs : Climbs expr) {consumed rest : List Token} {power : Power}
    {budget : Nat} (spelled : expr.Spelled Unclosed consumed) (graded : expr.Graded)
    (above : expr.Above power.rank) (stops : Stops power.rank rest)
    (closed : expr.ClosedBefore rest) (enough : (consumed ++ rest).length < budget) :
    ∃ read, read.outline = expr.outline ∧
      Accepts (expressionWithin .standard budget power) (consumed ++ rest) read rest := by
  rcases budget with _ | budget
  · omega
  · refine climbs consumed rest rest power budget _ spelled graded above ?_ closed (by omega) ?_
    · intro operator isOperator
      exact stops.mono (Nat.le_of_lt (above operator isOperator))
    · rintro left (_ | count) outline_eq positive
      · omega
      · exact ⟨left, outline_eq, chainWithin_done stops⟩

/-- An operand is read before the chain starts. -/
theorem of_operand {expr : Expr}
    (operand : ∀ consumed rest budget, expr.Spelled Unclosed consumed → expr.Graded →
      expr.ClosedBefore rest → (consumed ++ rest).length ≤ budget →
      ∃ read, read.outline = expr.outline ∧
        Accepts (operandWith (expressionWithin .standard budget .loosest)) (consumed ++ rest) read
          rest) : Climbs expr := by
  intro consumed rest after power budget good spelled graded _ _ closed enough further
  rcases operand consumed rest budget spelled graded closed enough with ⟨read, outline_eq, accepts⟩
  rcases further read (rest.length + 1) outline_eq (Nat.lt_succ_self _) with
    ⟨result, isGood, chained⟩
  exact ⟨result, isGood, accepts.bind (.bounded chained)⟩

/-- In brackets an expression of any level is read. -/
theorem inner_accepts {expr : Expr} (climbs : Climbs expr) {consumed rest : List Token}
    {closer : Token} {text : String} {budget : Nat} (spelled : expr.Spelled Unclosed consumed)
    (graded : expr.Graded) (closes : closer.reads text = true) (notSign : text ∈ [")", "]", ","])
    (enough : (consumed ++ closer :: rest).length < budget) :
    ∃ read, read.outline = expr.outline ∧
      Accepts (expressionWithin .standard budget .loosest) (consumed ++ closer :: rest) read
        (closer :: rest) := by
  have differs : text ∉ Operator.all.map Operator.symbol ∧ text ≠ "(" ∧ text ≠ "[" := by
    simp only [List.mem_cons, List.not_mem_nil, or_false] at notSign
    rcases notSign with rfl | rfl | rfl <;> decide
  refine climbs.accepts spelled graded ?_ (stops_of_reads closes differs.1 rest) ?_ enough
  · intro operator _
    cases operator <;> decide
  · intro _
    exact ⟨startsWith_of_reads closes rest differs.2.1, startsWith_of_reads closes rest differs.2.2⟩

theorem literal (value : Literal) : Climbs (.literal span ty value) := by
  refine of_operand ?_
  rintro _ rest budget ⟨token, rfl, isLiteral⟩ _ _ _
  exact ⟨.literal token.span none value, rfl, operandWith_literal_accepts isLiteral rest⟩

theorem access (name : String) (binding : Option Variable) :
    Climbs (.access span ty name binding) := by
  refine of_operand ?_
  rintro _ rest budget ⟨token, rfl, names⟩ _ closed _
  rcases closed rfl with ⟨notCall, notElement⟩
  exact ⟨.access token.span none name none, rfl,
    operandWith_named_accepts names (named_access_accepts names notCall notElement)⟩

theorem group {inner : Expr} (climbs : Climbs inner) : Climbs (.group span ty inner) := by
  refine of_operand ?_
  rintro _ rest budget ⟨opener, body, closer, rfl, isOperator, text_eq, spelled, closes⟩ graded _
    enough
  simp only [List.cons_append, List.append_assoc, List.nil_append, List.length_cons] at enough ⊢
  rcases climbs.inner_accepts spelled graded closes (by simp) enough with
    ⟨read, outline_eq, accepts⟩
  exact ⟨.group ⟨opener.span.start, closer.span.stop⟩ none read, by simp [Expr.outline, outline_eq],
    operandWith_group_accepts isOperator text_eq accepts closes⟩

theorem element {offset : Expr} (climbs : Climbs offset) (name : String)
    (binding : Option Variable) : Climbs (.element span ty name binding offset) := by
  refine of_operand ?_
  rintro _ rest budget ⟨token, opener, body, closer, rfl, names, opens, spelled, closes⟩ graded _
    enough
  simp only [List.cons_append, List.append_assoc, List.nil_append, List.length_cons] at enough ⊢
  have inside : (body ++ closer :: rest).length < budget := by omega
  rcases climbs.inner_accepts spelled graded closes (by simp) inside with
    ⟨read, outline_eq, accepts⟩
  exact ⟨.element ⟨token.span.start, closer.span.stop⟩ none name none read,
    by simp [Expr.outline, outline_eq],
    operandWith_named_accepts names (named_element_accepts names opens accepts closes)⟩

/-- Arguments are read one by one. -/
theorem separated {arguments : List Expr} (climb : ∀ argument ∈ arguments, Climbs argument)
    {body rest : List Token} {closer : Token} {budget : Nat} (some : arguments ≠ [])
    (spelled : Expr.AllSpelled Unclosed arguments body) (graded : Expr.AllGraded arguments)
    (closes : closer.reads ")" = true) (enough : (body ++ closer :: rest).length < budget) :
    ∃ read, Expr.outlineAll read = Expr.outlineAll arguments ∧
      Separated (fun tokens value rest =>
        Accepts (expressionWithin .standard budget .loosest) tokens value rest ∧
          rest.length ≤ tokens.length) (body ++ closer :: rest) read (closer :: rest) := by
  induction arguments generalizing body with
  | nil => exact absurd rfl some
  | cons argument others ih =>
      rcases others with _ | ⟨next, others⟩
      · rcases (climb argument (by simp)).inner_accepts spelled graded.1 closes (by simp) enough
          with ⟨read, outline_eq, accepts⟩
        exact ⟨[read], by simp [Expr.outlineAll, outline_eq], .last ⟨accepts, by simp⟩⟩
      · rcases spelled with ⟨first, comma, more, rfl, spelled, separates, othersSpelled⟩
        rw [List.append_assoc, List.cons_append] at enough ⊢
        have inside : (more ++ closer :: rest).length < budget := by
          simp only [List.length_append, List.length_cons] at enough ⊢
          omega
        rcases (climb argument (by simp)).inner_accepts spelled graded.1 separates (by simp) enough
          with ⟨read, outline_eq, accepts⟩
        rcases ih (fun other isOther => climb other (by simp [isOther])) (by simp) othersSpelled
          graded.2 inside with ⟨reads, outlines_eq, written⟩
        refine ⟨read :: reads, by simp_all [Expr.outlineAll], ?_⟩
        exact .more ⟨accepts, by simp⟩ separates written

theorem call {arguments : List Expr} (climb : ∀ argument ∈ arguments, Climbs argument)
    (name : String) (binding : Option Signature) :
    Climbs (.call span ty name binding arguments) := by
  refine of_operand ?_
  rintro _ rest budget
    ⟨token, opener, body, closer, rfl, names, opens, spelled, notClosed, closes⟩ graded _ enough
  simp only [List.cons_append, List.append_assoc, List.nil_append, List.length_cons] at enough ⊢
  have inside : (body ++ closer :: rest).length < budget := by omega
  have items : ∃ read, Expr.outlineAll read = Expr.outlineAll arguments ∧
      Items ")" (fun tokens value rest =>
        Accepts (expressionWithin .standard budget .loosest) tokens value rest ∧
          rest.length ≤ tokens.length) closer (body ++ closer :: rest) read rest := by
    rcases arguments with _ | ⟨argument, others⟩
    · cases spelled
      exact ⟨[], rfl, .none closes⟩
    · rcases separated climb (by simp) spelled graded closes inside with
        ⟨read, outlines_eq, written⟩
      refine ⟨read, outlines_eq, .some ?_ written closes⟩
      rcases spelled.starts with ⟨token, more, rfl, _⟩
      exact notClosed
  rcases items with ⟨read, outlines_eq, written⟩
  exact ⟨.call ⟨token.span.start, closer.span.stop⟩ none name none read,
    by simp [Expr.outline, outlines_eq],
    operandWith_named_accepts names (named_call_accepts names opens (fun _ _ _ => id) written)⟩

/-- The left operand is read first, then the operator and the right operand, which is read as a
whole expression above the operator. -/
theorem binary {operator : Operator} {left right : Expr} (leftClimbs : Climbs left)
    (rightClimbs : Climbs right) : Climbs (.binary span ty operator left right) := by
  rintro _ rest after power budget good ⟨first, sign, last, rfl, leftSpelled, written, rightSpelled⟩
    ⟨leftGraded, rightGraded, nested, rightAbove⟩ above fits closed enough further
  have higher : power.rank < operator.level := above operator rfl
  have signed : 0 < sign.length := by
    rcases written.starts with ⟨_, _, rfl, _⟩
    exact Nat.succ_pos _
  have inside : (last ++ rest).length < budget := by
    simp only [List.length_append] at enough ⊢
    omega
  rw [List.append_assoc, List.append_assoc] at enough ⊢
  -- The chain goes on from whatever `left` is read as: one more operation, then `further`.
  refine leftClimbs first (sign ++ (last ++ rest)) after power budget good leftSpelled leftGraded
    ?_ ?_ ?_ enough ?_
  · intro other isOther
    exact Nat.lt_of_lt_of_le higher (nested other isOther)
  · intro other isOther
    exact stops_of_writtenAs written (nested other isOther) _
  · intro _
    exact ⟨written.startsWith (by decide) _, written.startsWith (by decide) _⟩
  · rintro leftRead (_ | count) leftOutline_eq positive
    · omega
    · have own := Grammar.rank_powerOf operator
      rcases rightClimbs.accepts rightSpelled rightGraded (own.symm ▸ rightAbove)
        (own.symm ▸ fits operator rfl) closed inside with ⟨rightRead, rightOutline_eq, accepts⟩
      rcases further (.binary (leftRead.span.through rightRead.span) none operator leftRead
        rightRead) count (by simp [Expr.outline, leftOutline_eq, rightOutline_eq])
        (by simp only [List.length_append] at positive; omega) with ⟨result, isGood, chained⟩
      rcases Expr.Spelled.starts right rightSpelled with ⟨token, others, rfl, opens⟩
      exact ⟨result, isGood, chainWithin_more written opens higher accepts chained⟩

end Climbs

mutual

theorem climbs (expr : Expr) : Climbs expr := by
  cases expr with
  | literal _ _ value => exact .literal value
  | group _ _ inner => exact .group (climbs inner)
  | binary _ _ operator left right => exact .binary (climbs left) (climbs right)
  | access _ _ name binding => exact .access name binding
  | element _ _ name binding offset => exact .element (climbs offset) name binding
  | call _ _ name binding arguments => exact .call (climbAll arguments) name binding
  | list =>
      intro _ _ _ _ _ _ spelled
      exact spelled.elim

theorem climbAll (exprs : List Expr) : ∀ expr ∈ exprs, Climbs expr := by
  cases exprs with
  | nil => simp
  | cons first others =>
      intro expr isExpr
      rcases List.mem_cons.mp isExpr with isFirst | isOther
      · rw [isFirst]
        exact climbs first
      · exact climbAll others expr isOther

end

theorem expression_accepts {expr : Expr} {consumed rest : List Token} {power : Power}
    (spelled : expr.Spelled Unclosed consumed) (graded : expr.Graded)
    (above : expr.Above power.rank) (stops : Stops power.rank rest)
    (closed : expr.ClosedBefore rest) :
    ∃ read, read.outline = expr.outline ∧
      Accepts (expression .standard power) (consumed ++ rest) read rest :=
  (climbs expr).accepts spelled graded above stops closed (Nat.lt_succ_self _)

end Parse

/-- Nested by level, at most one expression is spelled by some tokens. -/
theorem Expr.outline_eq_of_spelled {expr other : Expr} {tokens : List Token}
    (spelled : expr.Spelled Written.Unclosed tokens)
    (otherSpelled : other.Spelled Written.Unclosed tokens) (graded : expr.Graded)
    (otherGraded : other.Graded) : expr.outline = other.outline := by
  have stops : Written.Stops Power.loosest.rank [] := by
    intro operator sign rest same written
    rcases written.starts with ⟨token, others, rfl, _⟩
    cases same
  have above (expr : Expr) : expr.Above Power.loosest.rank := by
    intro operator _
    cases operator <;> decide
  have closed (expr : Expr) : expr.ClosedBefore [] := fun _ => ⟨rfl, rfl⟩
  rcases Parse.expression_accepts spelled graded (above expr) stops (closed expr) with
    ⟨read, outline_eq, accepts⟩
  rcases Parse.expression_accepts otherSpelled otherGraded (above other) stops (closed other) with
    ⟨otherRead, otherOutline_eq, otherAccepts⟩
  rcases accepts [] "" with ⟨_, _, ran⟩
  rcases otherAccepts [] "" with ⟨_, _, otherRan⟩
  rw [ran] at otherRan
  cases otherRan
  rw [← outline_eq, otherOutline_eq]

/-! ## Tokens of a text -/

/-- The text of a token is measured as what the token is. -/
theorem Lexeme.Form.measure_eq {kind : TokenKind} {c : Char} {word : List Char}
    (form : Form kind (c :: word)) : measure c word = .ok (some kind, word.length + 1) := by
  have ends : Ends (c :: word) [] kind := by cases kind <;> simp [Ends, followedBy]
  simpa using measure_of_form form rfl ends

theorem Operator.WrittenAs.adjacent {operator : Operator} {sign : List Token}
    (written : operator.WrittenAs sign)
    (formed : ∀ token ∈ sign, Lexeme.Form token.kind token.text.toList)
    (orEqual : operator = .lessEqual ∨ operator = .greaterEqual) :
    ∃ token equals, sign = [token, equals] ∧
      equals.span.start.offset = token.span.stop.offset := by
  cases written with
  | @one token isOperator text_eq =>
      have form := formed token (List.mem_singleton_self token)
      rw [isOperator, text_eq] at form
      rcases orEqual with rfl | rfl <;> cases form.measure_eq
  | @two token equals isOperator _ behind =>
      simp only [Grammar.isEqualsBehind, Bool.and_eq_true, decide_eq_true_eq] at behind
      exact ⟨token, equals, rfl, behind.2⟩

theorem Expr.AllSpelled.isUnclosed {inside : List Token → Prop} {exprs : List Expr}
    {tokens : List Token} (spelled : AllSpelled inside exprs tokens)
    (formed : ∀ token ∈ tokens, Lexeme.Form token.kind token.text.toList) :
    Written.Unclosed tokens := by
  rcases exprs with _ | ⟨expr, others⟩
  · cases spelled
    rfl
  · rcases spelled.starts with ⟨token, rest, rfl, opens⟩
    refine Bool.eq_false_iff.mpr fun reads => ?_
    have text_eq := Written.text_of_reads reads
    have form := formed token List.mem_cons_self
    rw [text_eq] at form
    have isOperator : token.kind = .operator := by
      cases kind_eq : token.kind <;> rw [kind_eq] at form <;> cases form.measure_eq
    rw [opens isOperator] at text_eq
    exact absurd text_eq (by decide)

namespace Expr

mutual

/-- In the tokens of a text nothing but a parenthesis is written as one. -/
theorem Spelled.unclosed (expr : Expr) {inside : List Token → Prop} {tokens : List Token}
    (spelled : expr.Spelled inside tokens)
    (formed : ∀ token ∈ tokens, Lexeme.Form token.kind token.text.toList) :
    expr.Spelled Written.Unclosed tokens := by
  cases expr with
  | literal => exact spelled
  | access => exact spelled
  | group _ _ inner =>
      rcases spelled with ⟨opener, body, closer, rfl, isOperator, text_eq, spelled, closes⟩
      refine ⟨opener, body, closer, rfl, isOperator, text_eq, ?_, closes⟩
      exact Spelled.unclosed inner spelled fun token isToken => formed token (by simp [isToken])
  | binary _ _ operator left right =>
      rcases spelled with ⟨first, sign, last, rfl, leftSpelled, written, rightSpelled⟩
      refine ⟨first, sign, last, rfl, ?_, written, ?_⟩
      · exact Spelled.unclosed left leftSpelled fun token isToken =>
          formed token (by simp [isToken])
      · exact Spelled.unclosed right rightSpelled fun token isToken =>
          formed token (by simp [isToken])
  | element _ _ name _ offset =>
      rcases spelled with ⟨token, opener, body, closer, rfl, names, opens, spelled, closes⟩
      refine ⟨token, opener, body, closer, rfl, names, opens, ?_, closes⟩
      exact Spelled.unclosed offset spelled fun token isToken => formed token (by simp [isToken])
  | call _ _ name _ arguments =>
      rcases spelled with ⟨token, opener, body, closer, rfl, names, opens, spelled, _, closes⟩
      have bodyFormed : ∀ token ∈ body, Lexeme.Form token.kind token.text.toList :=
        fun token isToken => formed token (by simp [isToken])
      exact ⟨token, opener, body, closer, rfl, names, opens,
        AllSpelled.unclosed arguments spelled bodyFormed, spelled.isUnclosed bodyFormed, closes⟩
  | list => exact spelled.elim

theorem AllSpelled.unclosed (exprs : List Expr) {inside : List Token → Prop} {tokens : List Token}
    (spelled : AllSpelled inside exprs tokens)
    (formed : ∀ token ∈ tokens, Lexeme.Form token.kind token.text.toList) :
    AllSpelled Written.Unclosed exprs tokens := by
  rcases exprs with _ | ⟨expr, _ | ⟨next, others⟩⟩
  · exact spelled
  · exact Spelled.unclosed expr spelled formed
  · rcases spelled with ⟨first, comma, rest, rfl, spelled, separates, othersSpelled⟩
    refine ⟨first, comma, rest, rfl, ?_, separates, ?_⟩
    · exact Spelled.unclosed expr spelled fun token isToken => formed token (by simp [isToken])
    · exact AllSpelled.unclosed (next :: others) othersSpelled fun token isToken =>
        formed token (by simp [isToken])

end

end Expr

/-- What is read as an expression above a power is spelled by the tokens that are passed, nested by
level and above the power, and it goes as far as it can. Conversely each such expression is read
from the tokens that spell it, and no other is spelled by them, if the tokens between the
parentheses of a call do not start with one that is written like the parenthesis that closes them.
In the tokens of a text this is always so, and an order sign with an equals sign is two tokens side
by side. -/
theorem expression_precedence (power : Power) :
    (∀ cursor expr after, Parse.expression .standard power cursor = .ok expr after →
      ∃ consumed, cursor.ahead = consumed ++ after.ahead ∧
        expr.Spelled Written.Unclosed consumed ∧ expr.Graded ∧ expr.Above power.rank ∧
        Written.Stops power.rank after.ahead) ∧
    (∀ (cursor : Cursor) (expr : Expr) consumed rest, cursor.ahead = consumed ++ rest →
      expr.Spelled Written.Unclosed consumed → expr.Graded → expr.Above power.rank →
      Written.Stops power.rank rest → expr.ClosedBefore rest →
      ∃ read after, Parse.expression .standard power cursor = .ok read after ∧
        read.outline = expr.outline ∧ after.ahead = rest) ∧
    (∀ (expr other : Expr) consumed, expr.Spelled Written.Unclosed consumed →
      other.Spelled Written.Unclosed consumed → expr.Graded → other.Graded →
      expr.outline = other.outline) ∧
    (∀ source file tokens, tokenize source file = .ok tokens → ∀ consumed, consumed ⊆ tokens →
      (∀ operator : Operator, operator.WrittenAs consumed →
        operator = .lessEqual ∨ operator = .greaterEqual →
        ∃ token equals, consumed = [token, equals] ∧
          equals.span.start.offset = token.span.stop.offset) ∧
      ∀ expr : Expr, expr.Spelled (fun _ => True) consumed →
        expr.Spelled Written.Unclosed consumed) := by
  refine ⟨?_, ?_, ?_, ?_⟩
  · intro cursor expr after ran
    exact Parse.expressionWithin_climbs _ power _ _ _ ran
  · intro cursor expr consumed rest ahead spelled graded above stops closed
    rcases Parse.expression_accepts spelled graded above stops closed with
      ⟨read, outline_eq, accepts⟩
    rw [← ahead] at accepts
    rcases accepts cursor.passed cursor.file with ⟨passedAfter, fileAfter, ran⟩
    exact ⟨read, _, ran, outline_eq, rfl⟩
  · intro expr other consumed spelled otherSpelled graded otherGraded
    exact Expr.outline_eq_of_spelled spelled otherSpelled graded otherGraded
  · intro source file tokens tokenized consumed sub
    have formed : ∀ token ∈ consumed, Lexeme.Form token.kind token.text.toList :=
      fun token isToken => form_of_tokenize tokenized (sub isToken)
    exact ⟨fun operator written orEqual => written.adjacent formed orEqual,
      fun expr spelled => Expr.Spelled.unclosed expr spelled formed⟩

/-- Subtraction associates to the left, and a product is taken before it. -/
theorem expression_precedence_subtraction :
    let token (kind : TokenKind) (text : String) : Token := ⟨kind, text, ⟨.null, .null⟩⟩
    let access (name : String) : Expr := .access ⟨.null, .null⟩ none name none
    let operation (operator : Operator) (left right : Expr) : Expr :=
      .binary ⟨.null, .null⟩ none operator left right
    let tokens := [token .identifier "a", token .operator "-", token .identifier "b",
      token .operator "*", token .identifier "c", token .operator "-", token .identifier "d"]
    ∃ read after, Parse.expression .standard .loosest ⟨[], tokens ++ [token .operator ";"], ""⟩ =
        .ok read after ∧
      read.outline = operation .subtract (operation .subtract (access "a")
        (operation .multiply (access "b") (access "c"))) (access "d") ∧
      read.Spelled Written.Unclosed tokens ∧ after.ahead = [token .operator ";"] := by
  intro token access operation tokens
  have named (name : String) (notLiteral : name ∉ ["NIL", "TRUE", "FALSE"]) :
      (access name).Spelled Written.Unclosed [token .identifier name] :=
    ⟨_, rfl, rfl, rfl, notLiteral⟩
  have joined (operator : Operator) {left right : Expr} {first last : List Token}
      (leftSpelled : left.Spelled Written.Unclosed first)
      (rightSpelled : right.Spelled Written.Unclosed last) :
      (operation operator left right).Spelled Written.Unclosed
        (first ++ ([token .operator operator.symbol] ++ last)) :=
    ⟨first, _, last, rfl, leftSpelled, .one rfl rfl, rightSpelled⟩
  have product := joined .multiply (named "b" (by decide)) (named "c" (by decide))
  have spelled := joined .subtract (joined .subtract (named "a" (by decide)) product)
    (named "d" (by decide))
  have stops : Written.Stops 0 [token .operator ";"] :=
    Written.stops_of_reads (show (token .operator ";").reads ";" = true from rfl) (by decide) []
  have graded : (operation .subtract (operation .subtract (access "a")
      (operation .multiply (access "b") (access "c"))) (access "d")).Graded := by
    simp [operation, access, Expr.Graded, Expr.Above, Expr.operator?, Operator.level]
  rcases (expression_precedence .loosest).2.1 ⟨[], tokens ++ [token .operator ";"], ""⟩ _ tokens
    [token .operator ";"] rfl spelled graded (by rintro _ ⟨⟩; decide) stops
    (fun _ => ⟨rfl, rfl⟩) with ⟨read, after, ran, outline_eq, ahead⟩
  rcases (expression_precedence .loosest).1 _ read after ran with ⟨consumed, same, readSpelled, _⟩
  rw [ahead] at same
  have consumed_eq : tokens = consumed := List.append_cancel_right same
  exact ⟨read, after, ran, outline_eq, consumed_eq ▸ readSpelled, ahead⟩

/-- What the tokens of a text rule out, and a grammar without operators. A single token may be
written as an order sign with an equals sign. A name that is written as a closing parenthesis is
taken for one where arguments may start, so that a call with such an argument is not read from the
tokens that spell it. An operator that is not known ends an expression. -/
theorem expression_precedence_unusual :
    let token (kind : TokenKind) (text : String) : Token := ⟨kind, text, ⟨.null, .null⟩⟩
    let access (name : String) : Expr := .access ⟨.null, .null⟩ none name none
    let call (arguments : List Expr) : Expr := .call ⟨.null, .null⟩ none "f" none arguments
    let calling := [token .identifier "f", token .operator "(", token .identifier ")",
      token .operator ")"]
    (∃ read after, Parse.expression .standard .loosest
        ⟨[], [token .identifier "a", token .operator "<=", token .identifier "b"], ""⟩ =
          .ok read after ∧ read.operator? = some .lessEqual ∧ after.ahead = []) ∧
    ((call [access ")"]).Spelled (fun _ => True) calling ∧ (call [access ")"]).Graded ∧
      ∃ read after, Parse.expression .standard .loosest ⟨[], calling, ""⟩ = .ok read after ∧
        read.outline = call [] ∧ after.ahead = [token .operator ")"]) ∧
    ∃ after, Parse.expression .bare .loosest
        ⟨[], [token .identifier "a", token .operator "+", token .identifier "b"], ""⟩ =
          .ok (access "a") after ∧ ¬Written.Stops Power.loosest.rank after.ahead := by
  intro token access call calling
  refine ⟨⟨_, _, rfl, rfl, rfl⟩, ⟨?_, ⟨trivial, trivial⟩, _, _, rfl, rfl, rfl⟩, _, rfl, ?_⟩
  · refine ⟨_, _, [token .identifier ")"], _, rfl, ⟨rfl, rfl, by decide⟩, rfl, ?_, trivial, rfl⟩
    exact ⟨_, rfl, rfl, rfl, by decide⟩
  · intro stops
    have sum : Operator.add.WrittenAs [token .operator "+"] := .one rfl rfl
    exact absurd (stops .add _ _ rfl sum) (by decide)

end GradualScript
