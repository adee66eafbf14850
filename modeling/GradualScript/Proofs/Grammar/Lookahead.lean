import GradualScript.Proofs.Grammar.Exactness
import GradualScript.Proofs.Grammar.Foresight
import GradualScript.Proofs.Grammar.Precedence

/-!
# How far expressions look ahead

An expression can always be brought to an end by a name, and goes on after it with an operator, a
call or an element of a list only. Two tokens are looked at in one place: an equals sign may be
joined to an order sign. The sign of an operator is a step of its own here. It is the same whatever
comes behind it, unless that is an equals sign; and how tightly the operator binds, which says
whether a chain of operators goes on, is known from its first token.
-/

namespace GradualScript

namespace Written

variable {token : Token} {tokens : List Token} {texts : List String}

/-- What goes on with a name as a call or an element of a list. -/
def openers : List String := ["(", "["]

/-- What goes on with an expression. -/
def continuers : List String := openers ++ Operator.all.map (·.symbol)

theorem Begins.apart (begins : Begins token tokens) (differs : texts.any token.reads = false) :
    Apart texts tokens := by
  rcases tokens with _ | ⟨first, rest⟩
  · cases begins
  · cases begins
    exact differs

theorem Apart.startsWith {text : String} (apart : Apart texts tokens) (mem : text ∈ texts) :
    startsWith tokens text = false := by
  have none := List.any_eq_false.mp apart text mem
  exact Bool.of_not_eq_true none

theorem Apart.mono {fewer : List String} (apart : Apart texts tokens)
    (subset : ∀ text ∈ fewer, text ∈ texts) : Apart fewer tokens := by
  refine List.any_eq_false.mpr fun text mem => ?_
  simp [apart.startsWith (subset text mem)]

theorem Apart.openers (apart : Apart continuers tokens) : Apart openers tokens := by
  exact apart.mono (by decide)

end Written

namespace Grammar

open Written

/-- How tightly the operator that a list of tokens starts with binds. -/
def powerAt? (tokens : List Token) : Option Power :=
  tokens.head?.bind fun token =>
    if token.kind = .operator then (standard.operator? token.text).map standard.powerOf else none

theorem powerOf_orEqual? {token : Token} {wide : Operator} (isWide : orEqual? token = some wide) :
    (standard.operator? token.text).map standard.powerOf = some (standard.powerOf wide) := by
  unfold orEqual? at isWide
  split at isWide
  · rename_i text_eq
    cases isWide
    rw [text_eq]
    decide
  · split at isWide
    · rename_i text_eq
      cases isWide
      rw [text_eq]
      decide
    · cases isWide

/-- An equals sign behind an order sign does not change how tightly it binds. -/
theorem powerOf_operatorAt? (cursor : Cursor) :
    (standard.operatorAt? cursor).map (standard.powerOf ·.1) = powerAt? cursor.ahead := by
  rcases cursor with ⟨passed, _ | ⟨token, rest⟩, file⟩
  · rfl
  · by_cases isOperator : token.kind = .operator
    · simp only [operatorAt?, powerAt?, List.head?_cons, Option.bind_some, isOperator, ne_eq,
        not_true_eq_false, if_false, if_true]
      split
      · rename_i wide isWide
        split at isWide
        · exact (powerOf_orEqual? isWide).symm
        · cases isWide
      · rw [Option.map_map]
        rfl
    · simp [operatorAt?, powerAt?, isOperator]

theorem powerAt?_of_apart {tokens : List Token} (apart : Apart continuers tokens) :
    powerAt? tokens = none := by
  rcases tokens with _ | ⟨token, rest⟩
  · rfl
  · simp only [powerAt?, List.head?_cons, Option.bind_some, ite_eq_right_iff,
      Option.map_eq_none_iff]
    intro isOperator
    rw [Option.eq_none_iff_forall_ne_some]
    intro operator found
    have symbol_eq := symbol_of_operator? found
    have known : operator.symbol ∈ continuers := by
      cases operator <;> decide
    have reads := apart.startsWith known
    simp [startsWith_cons, Token.reads, isOperator, symbol_eq] at reads

/-- An operator is found in the same way whatever comes behind it, unless that is an equals sign. -/
theorem operatorAt?_append {passed rest : List Token} {file : String} {operator : Operator}
    {sign : List Token}
    (found : standard.operatorAt? ⟨passed, sign ++ rest, file⟩ = some (operator, sign.length))
    {others : List Token} (fine : others.head? = rest.head? ∨ Apart ["="] others) :
    standard.operatorAt? ⟨passed, sign ++ others, file⟩ = some (operator, sign.length) := by
  rcases operatorAt?_written found with ⟨written, _, ahead, length_eq, isSign⟩
  rcases sign with _ | ⟨token, _ | ⟨equals, _ | ⟨third, sign⟩⟩⟩
  · cases isSign <;> cases length_eq
  · -- A single token was not joined to what came behind it, and is not to what comes there now.
    have notJoined : (others.head?.any (isEqualsBehind token)) = true →
        rest.head?.any (isEqualsBehind token) = true := by
      rcases fine with same | apart
      · rw [same]
        exact id
      · intro joined
        rcases others with _ | ⟨first, others⟩
        · cases joined
        · have notEquals : first.reads "=" = false := apart.startsWith (by decide)
          simp_all [isEqualsBehind, Token.reads]
    simp only [operatorAt?, List.cons_append, List.nil_append] at found ⊢
    by_cases joined : others.head?.any (isEqualsBehind token) = true
    · simp only [joined, notJoined joined, if_true] at found ⊢
      exact found
    · by_cases isOperator : token.kind = .operator
      · simp only [isOperator, ne_eq, not_true_eq_false, if_false] at found
        simp only [isOperator, ne_eq, not_true_eq_false, joined, if_false]
        split at found
        · cases found
        · exact found
      · simp [isOperator] at found
  · exact found
  · cases isSign <;> cases length_eq

end Grammar

theorem Cursor.skip_append (passed sign others : List Token) (file : String) :
    (⟨passed, sign ++ others, file⟩ : Cursor).skip sign.length =
      ⟨sign.reverse ++ passed, others, file⟩ := by
  induction sign generalizing passed with
  | nil => rfl
  | cons token sign ih =>
      rw [List.reverse_cons, List.append_assoc]
      exact ih (token :: passed)

namespace Parse

open Written

variable {bound : Nat}

/-- The sign of an operator. -/
def sign (grammar : Grammar) : Parse Operator := do
  match grammar.operatorAt? (← get) with
  | none => fail "expected operator"
  | some (operator, width) =>
    modify (·.skip width)
    return operator

theorem operation_eq (grammar : Grammar) (left : Expr) (power : Power) :
    operation grammar left power = (do
      let operator ← sign grammar
      let right ← expression grammar power
      return .binary (left.span.through right.span) none operator left right) := by
  rw [operation, operationWith, sign, bind_assoc]
  refine bind_congr fun cursor => ?_
  cases grammar.operatorAt? cursor <;> rfl

theorem sign_of_operatorAt? {grammar : Grammar} {cursor : Cursor} {operator : Operator}
    {width : Nat} (found : grammar.operatorAt? cursor = some (operator, width)) :
    sign grammar cursor = .ok operator (cursor.skip width) := by
  refine look_eq_ok_iff.mpr ?_
  rw [found]
  rfl

theorem sign_outlook {cursor : Cursor} {power : Power}
    (found : Grammar.powerAt? cursor.ahead = some power) :
    Outlook (sign .standard) 1 (Apart ["="]) cursor := by
  rw [← Grammar.powerOf_operatorAt?] at found
  rcases Option.map_eq_some_iff.mp found with ⟨⟨operator, width⟩, isOperator, _⟩
  rcases Grammar.operatorAt?_written isOperator with ⟨signs, rest, ahead, rfl, written⟩
  refine .reads operator ahead ?_ fun others fine => ?_
  · cases written <;> simp
  · rcases cursor with ⟨passed, _, file⟩
    cases ahead
    have same := sign_of_operatorAt? (Grammar.operatorAt?_append isOperator fine)
    rw [Cursor.skip_append] at same
    exact same

/-- What comes after an expression, by how tightly the operator binds that stands there. -/
def chainAfter (power : Power) (left : Expr) : Option Power → Parse Expr
  | none => pure left
  | some own =>
    if power < own then operation .standard left own >>= chain .standard power else pure left

/-- Whether a chain of operators goes on is seen from the next token. -/
theorem chain_choice (power : Power) (left : Expr) :
    chain .standard power left =
      get >>= fun cursor => chainAfter power left (Grammar.powerAt? cursor.ahead) := by
  rw [chain_unroll]
  refine bind_congr fun cursor => ?_
  rw [← Grammar.powerOf_operatorAt?]
  cases Grammar.standard.operatorAt? cursor <;> rfl

section

variable {expression : Parse Expr} {good : Expr → Prop}

theorem named_starts (expression : Parse Expr) (cursor : Cursor) :
    Starts (Begins (.word "x")) (named expression) (Apart openers) cursor := by
  refine ((@Foresees.next 0 (.word "x")).starts cursor).bind fun token after => ?_
  have stops : Starts (Apart openers) (pure (.access token.span none token.text none) : Parse Expr)
      (Apart openers) after := .pure _
  exact ((stops.accept fun _ apart => apart.startsWith (by decide)).accept fun _ apart =>
    apart.startsWith (by decide)).after fun _ _ => trivial

theorem operandWith_starts (expression : Parse Expr) (cursor : Cursor) :
    Starts (Begins (.word "x")) (operandWith expression) (Apart openers) cursor := by
  refine (named_starts expression cursor).look fun others begins => ?_
  rcases others with _ | ⟨first, others⟩
  · cases begins
  · cases begins
    rfl

variable (safe : ∀ bound, Safe (fun _ => True) bound 0 expression good)
  (foresees : Foresees (bound - 1) 1 (Begins (.word "x")) expression (Apart continuers))

include foresees

theorem groupWith_foresees :
    Foresees bound 1 (Begins (.sign "(")) (groupWith expression) (Apart openers) := by
  refine (Foresees.require (.sign "(") rfl).seq fun opener => ?_
  refine (foresees.leading fun _ => trivial).seq fun inner => ?_
  exact (Foresees.closing (.sign ")") rfl _ _).leading fun _ => rfl

include safe

theorem named_goesOn (token : Token) :
    Foresees (bound - 1) 0 (Apart openers) (do
      if ← accept "(" then
        let arguments ← itemsUntil ")" expression
        return Expr.call (← spanSince token.span.start) none token.text none arguments
      else if ← accept "[" then
        let offset ← expression
        let _ ← require "]"
        return Expr.element (← spanSince token.span.start) none token.text none offset
      else
        return Expr.access token.span none token.text none) (Apart openers) := by
  have inner := foresees.narrow (Nat.pred_le (bound - 1))
  have call : Foresees (bound - 1 - 1) 1 (Begins (.sign ")")) (do
      let arguments ← itemsUntil ")" expression
      return Expr.call (← spanSince token.span.start) none token.text none arguments)
      (Apart openers) := by
    refine (Foresees.itemsUntil (.sign ")") rfl safe inner fun _ => ⟨rfl, rfl⟩).last ?_
      fun _ _ => trivial
    exact fun arguments => (Foresees.spanned _ _).after fun _ _ => trivial
  have element : Foresees (bound - 1 - 1) 1 (Begins (.word "x")) (do
      let offset ← expression
      let _ ← require "]"
      return Expr.element (← spanSince token.span.start) none token.text none offset)
      (Apart openers) :=
    inner.seq fun offset => (Foresees.closing (.sign "]") rfl _ _).leading fun _ => rfl
  have notCall (tokens : List Token) (apart : Apart openers tokens) :
      startsWith tokens "(" = false := apart.startsWith (by decide)
  have notElement (tokens : List Token) (apart : Apart openers tokens) :
      startsWith tokens "[" = false := apart.startsWith (by decide)
  refine .accept "(" (.passing fun _ => call) ?_ (Nat.zero_le 1) notCall fun _ => notCall
  exact .accept "[" (.passing fun _ => element) (.pure _) (Nat.zero_le 1) notElement
    fun _ => notElement

theorem operandWith_foresees :
    Foresees bound 1 (Begins (.word "x")) (operandWith expression) (Apart openers) := by
  refine ⟨fun cursor inside legible => ?_, operandWith_starts expression⟩
  refine .choice ?_ ?_
  · rcases ahead : cursor.ahead with _ | ⟨token, rest⟩
    · exact .fail _
    simp only
    cases found : literal? token with
    | some literal =>
        cases literal with
        | ok value => exact .passing (fun _ => .pure _) ahead inside legible
        | error halt =>
            rcases legible token (by simp [ahead]) halt found with ⟨cause, position, rfl, isOther⟩
            have aheadOne : cursor.ahead = [token] ++ rest := ahead
            refine .faults (.bind_second aheadOne (next_reads token rest) ?_)
            exact ⟨cause, position, _, rfl, isOther⟩
    | none =>
        simp only
        split
        · exact .passing (named_goesOn safe foresees) ahead inside legible
        · split
          · exact (groupWith_foresees foresees).outlook cursor inside legible
          · exact .fail _
  · intro others same
    rcases ahead : cursor.ahead with _ | ⟨token, rest⟩
    · rw [ahead] at same
      rw [List.head?_eq_none_iff.mp same]
      rfl
    · rw [ahead] at same
      rcases others with _ | ⟨first, others⟩
      · cases same
      · cases same
        rfl

end

theorem chain_starts (power : Power) (left : Expr) (cursor : Cursor) :
    Starts (Apart continuers) (chain .standard power left) (Apart continuers) cursor := by
  rw [chain_choice]
  refine (Starts.pure left).look fun others apart => ?_
  have none : Grammar.powerAt? (cursor.past [] others).ahead = none :=
    Grammar.powerAt?_of_apart apart
  rw [none, chainAfter]

theorem expression_starts (power : Power) (cursor : Cursor) :
    Starts (Begins (.word "x")) (expression .standard power) (Apart continuers) cursor := by
  rw [expression_unroll]
  refine (operandWith_starts _ cursor).bind fun left after => ?_
  exact (chain_starts power left after).after fun _ apart => apart.openers

section

variable (foresees : ∀ power,
  Foresees bound 1 (Begins (.word "x")) (expression .standard power) (Apart continuers))

include foresees

theorem operation_outlook {cursor : Cursor} {own : Power} (left : Expr)
    (inside : cursor.ahead.length < bound) (legible : ∀ token ∈ cursor.ahead, token.Legible)
    (found : Grammar.powerAt? cursor.ahead = some own) :
    Outlook (operation .standard left own) 1 (Apart continuers) cursor := by
  have right (operator : Operator) : Foresees bound 1 (Begins (.word "x")) (do
      let right ← expression .standard own
      return Expr.binary (left.span.through right.span) none operator left right)
      (Apart continuers) :=
    (foresees own).last (fun _ => .pure _) fun _ apart => apart
  rw [operation_eq]
  refine Outlook.fewer (.bind (sign_outlook found) ?_ ?_ fun none => absurd none Nat.one_ne_zero)
    (Nat.le_add_right 1 1)
  · intro operator consumed rest ahead _
    exact (right operator).outlook_past ahead (by omega) legible
  · exact fun operator => ((right operator).leading fun _ => rfl).starts

theorem chain_foresees (power : Power) (left : Expr) :
    Foresees bound 0 (Apart continuers) (chain .standard power left) (Apart continuers) := by
  induction bound generalizing left with
  | zero => exact .zero (chain_starts power left)
  | succ bound ih =>
      have more := ih fun power => (foresees power).narrow (Nat.le_succ bound)
      refine ⟨fun cursor inside legible => ?_, chain_starts power left⟩
      have sameHead (others : List Token) (same : others.head? = cursor.ahead.head?) :
          Grammar.powerAt? (cursor.past [] others).ahead = Grammar.powerAt? cursor.ahead := by
        rw [Grammar.powerAt?, Grammar.powerAt?, ← same]
        rfl
      have idle (others : List Token) (apart : Apart continuers others) :
          Grammar.powerAt? (cursor.past [] others).ahead = none :=
        Grammar.powerAt?_of_apart apart
      have stops : Outlook (pure left) 0 (Apart continuers) cursor :=
        (Foresees.pure left).outlook cursor inside legible
      rw [chain_choice]
      cases found : Grammar.powerAt? cursor.ahead with
      | none =>
          refine .look ?_ (fun others same => ?_) fun _ others apart => ?_
          · rwa [found]
          · rw [sameHead others same]
          · rw [idle others apart, found]
      | some own =>
          by_cases higher : power < own
          · refine Outlook.fewer (.choice ?_ fun others same => ?_) (Nat.zero_le 1)
            · rw [found, chainAfter, if_pos higher]
              have operation := operation_outlook foresees left inside legible found
              refine Outlook.fewer (.bind operation ?_ (fun binary => (more binary).starts)
                fun _ _ apart => apart) (Nat.le_add_right 1 0)
              intro binary consumed rest ahead enough
              exact (more binary).outlook_past ahead (by omega) legible
            · rw [sameHead others same]
          · refine .look ?_ (fun others same => ?_) fun _ others apart => ?_
            · rwa [found, chainAfter, if_neg higher]
            · rw [sameHead others same]
            · rw [idle others apart, found, chainAfter, chainAfter, if_neg higher]

end

theorem expression_foresees (power : Power) :
    Foresees bound 1 (Begins (.word "x")) (expression .standard power) (Apart continuers) := by
  induction bound generalizing power with
  | zero => exact .zero (expression_starts power)
  | succ bound ih =>
      rw [expression_unroll]
      have operand : Foresees (bound + 1) 1 (Begins (.word "x")) (operand .standard)
          (Apart openers) :=
        operandWith_foresees (fun _ => anyExpression_safe.fewer) (ih .loosest)
      refine operand.last (fun left => ?_) fun _ apart => apart.openers
      exact (chain_foresees ih power left).after fun _ apart => apart.openers

theorem anyExpression_foresees :
    Foresees bound 1 (Begins (.word "x")) (anyExpression .standard) (Apart continuers) :=
  expression_foresees .loosest

theorem list_foresees :
    Foresees bound 1 (Begins (.sign "[")) (list .standard) Anything := by
  refine (Foresees.require (.sign "[") rfl).seq fun opener => ?_
  have items : Foresees (bound - 1) 1 (Begins (.sign "]"))
      (itemsUntil "]" (anyExpression .standard)) Anything :=
    .itemsUntil _ rfl (fun _ => anyExpression_safe.fewer) anyExpression_foresees fun _ => ⟨rfl, rfl⟩
  exact (items.leading fun _ => trivial).last (fun _ => .spanned _ _) fun _ _ => trivial

end Parse

end GradualScript
