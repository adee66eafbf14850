import GradualScript.Proofs.Grammar.Reading
import GradualScript.Proofs.Grammar.Safety
import GradualScript.Proofs.Grammar.Steps
import GradualScript.Proofs.Program.Unplaced

/-!
# Layout does not matter

Where tokens stand counts in one way only: an order sign and an equals sign right behind it are one
operator. Tokens that are written alike and are joined alike are read as the same program, or
refused for the same reason, wherever they stand. Literals that no text has may stop the reading of
both without a reason given.

The two runs are followed side by side. A step is compared with itself at two cursors whose tokens
ahead are of one layout up to places (`Token.Restyled`); what it gives may differ in places, so a
comparison is made through a view of the values, such as `Expr.unplaced`.
-/

namespace GradualScript

namespace Token

/-- What a token is, apart from its place. -/
def form (token : Token) : TokenKind × String := (token.kind, token.text)

/-- Whether a token is an order sign. -/
def IsOrder (token : Token) : Prop :=
  token.kind = .operator ∧ (token.text = "<" ∨ token.text = ">")

/-- Whether a token is an equals sign. -/
def IsEquals (token : Token) : Prop := token.kind = .operator ∧ token.text = "="

/-- Whether a token starts where another one ends. -/
def Touches (token next : Token) : Prop := next.span.start.offset = token.span.stop.offset

instance (token : Token) : Decidable token.IsOrder := inferInstanceAs (Decidable (_ ∧ _))

instance (token : Token) : Decidable token.IsEquals := inferInstanceAs (Decidable (_ ∧ _))

instance (token next : Token) : Decidable (token.Touches next) :=
  inferInstanceAs (Decidable (_ = _))

/-- For each order sign that is followed by an equals sign, whether they touch. -/
def joints : List Token → List Bool
  | token :: next :: rest =>
    if token.IsOrder ∧ next.IsEquals then decide (token.Touches next) :: joints (next :: rest)
    else joints (next :: rest)
  | _ => []

/-- Whether two lists hold the same tokens, apart from their places, and an order sign that is
followed by an equals sign touches it in both lists or in none. -/
inductive Restyled : List Token → List Token → Prop
  | nil : Restyled [] []
  | cons {leftToken rightToken : Token} {left right : List Token}
      (same : leftToken.form = rightToken.form)
      (joined : ∀ leftNext rightNext, left.head? = some leftNext → right.head? = some rightNext →
        leftToken.IsOrder → leftNext.IsEquals →
          (leftToken.Touches leftNext ↔ rightToken.Touches rightNext))
      (rest : Restyled left right) : Restyled (leftToken :: left) (rightToken :: right)

variable {left right : List Token} {leftToken rightToken : Token}

theorem kind_of_form (same : leftToken.form = rightToken.form) :
    leftToken.kind = rightToken.kind := congrArg Prod.fst same

theorem text_of_form (same : leftToken.form = rightToken.form) :
    leftToken.text = rightToken.text := congrArg Prod.snd same

theorem reads_of_form (same : leftToken.form = rightToken.form) (text : String) :
    leftToken.reads text = rightToken.reads text := by
  simp only [reads, kind_of_form same, text_of_form same]

theorem isOrder_of_form (same : leftToken.form = rightToken.form) :
    leftToken.IsOrder ↔ rightToken.IsOrder := by
  simp only [IsOrder, kind_of_form same, text_of_form same]

theorem isEquals_of_form (same : leftToken.form = rightToken.form) :
    leftToken.IsEquals ↔ rightToken.IsEquals := by
  simp only [IsEquals, kind_of_form same, text_of_form same]

namespace Restyled

theorem of_joints (same : left.map form = right.map form) (joined : joints left = joints right) :
    Restyled left right := by
  induction left generalizing right with
  | nil =>
      rw [List.map_nil, eq_comm, List.map_eq_nil_iff] at same
      rw [same]
      exact .nil
  | cons leftToken left ih =>
      rcases right with _ | ⟨rightToken, right⟩
      · cases same
      rw [List.map_cons, List.map_cons, List.cons.injEq] at same
      rcases same with ⟨same, others⟩
      rcases left with _ | ⟨leftNext, left⟩
      · rw [List.map_nil, eq_comm, List.map_eq_nil_iff] at others
        rw [others]
        exact .cons same (by simp) .nil
      rcases right with _ | ⟨rightNext, right⟩
      · cases others
      have nextSame := List.cons.inj others
      by_cases isJoint : leftToken.IsOrder ∧ leftNext.IsEquals
      · have alsoJoint : rightToken.IsOrder ∧ rightNext.IsEquals :=
          ⟨(isOrder_of_form same).mp isJoint.1, (isEquals_of_form nextSame.1).mp isJoint.2⟩
        rw [joints, if_pos isJoint, joints, if_pos alsoJoint, List.cons.injEq] at joined
        refine .cons same ?_ (ih others joined.2)
        rintro _ _ ⟨⟩ ⟨⟩ _ _
        exact decide_eq_decide.mp joined.1
      · have noJoint : ¬(rightToken.IsOrder ∧ rightNext.IsEquals) := by
          rwa [← isOrder_of_form same, ← isEquals_of_form nextSame.1]
        rw [joints, if_neg isJoint, joints, if_neg noJoint] at joined
        refine .cons same ?_ (ih others joined)
        rintro _ _ ⟨⟩ ⟨⟩ isOrder isEquals
        exact absurd ⟨isOrder, isEquals⟩ isJoint

theorem length_eq (restyled : Restyled left right) : left.length = right.length := by
  induction restyled with
  | nil => rfl
  | cons _ _ _ ih => simp only [List.length_cons, ih]

end Restyled

end Token

namespace Grammar

theorem text_of_orEqual? {token : Token} {operator : Operator}
    (found : orEqual? token = some operator) : token.text = "<" ∨ token.text = ">" := by
  unfold orEqual? at found
  split at found
  · exact .inl ‹_›
  · split at found
    · exact .inr ‹_›
    · cases found

theorem isEqualsBehind_iff {token next : Token} :
    isEqualsBehind token next = true ↔ next.IsEquals ∧ token.Touches next := by
  simp [isEqualsBehind, Token.IsEquals, Token.Touches]

end Grammar

theorem Token.Restyled.isEqualsBehind {left right : List Token} {leftToken rightToken : Token}
    (restyled : Restyled left right)
    (joined : ∀ leftNext rightNext, left.head? = some leftNext → right.head? = some rightNext →
      leftNext.IsEquals → (leftToken.Touches leftNext ↔ rightToken.Touches rightNext)) :
    left.head?.any (Grammar.isEqualsBehind leftToken) =
      right.head?.any (Grammar.isEqualsBehind rightToken) := by
  cases restyled with
  | nil => rfl
  | @cons leftNext rightNext _ _ same _ _ =>
      have equals_iff := isEquals_of_form same
      have touches_iff := joined leftNext rightNext rfl rfl
      rw [Bool.eq_iff_iff]
      simp only [List.head?_cons, Option.any_some, Grammar.isEqualsBehind_iff, ← equals_iff]
      exact and_congr_right touches_iff

namespace Cursor

/-- Whether the tokens ahead of two cursors are the same, apart from their places. -/
def Restyled (left right : Cursor) : Prop := Token.Restyled left.ahead right.ahead

namespace Restyled

variable {left right : Cursor}

theorem isAt (restyled : left.Restyled right) (text : String) :
    left.isAt text = right.isAt text := by
  rcases left with ⟨_, left, _⟩
  rcases right with ⟨_, right, _⟩
  cases (show Token.Restyled left right from restyled) with
  | nil => rfl
  | cons same _ _ => exact Token.reads_of_form same text

theorem isAtAny (restyled : left.Restyled right) (texts : List String) :
    left.isAtAny texts = right.isAtAny texts := by
  unfold Cursor.isAtAny
  rw [show left.isAt = right.isAt from funext restyled.isAt]

theorem isAtKind (restyled : left.Restyled right) (kind : TokenKind) :
    left.isAtKind kind = right.isAtKind kind := by
  rcases left with ⟨_, left, _⟩
  rcases right with ⟨_, right, _⟩
  cases (show Token.Restyled left right from restyled) with
  | nil => rfl
  | cons same _ _ => simp [Cursor.isAtKind, Token.kind_of_form same]

theorem isDone (restyled : left.Restyled right) : left.isDone = right.isDone := by
  rcases left with ⟨_, left, _⟩
  rcases right with ⟨_, right, _⟩
  cases (show Token.Restyled left right from restyled) <;> rfl

theorem skip (restyled : left.Restyled right) (count : Nat) :
    (left.skip count).Restyled (right.skip count) := by
  induction count generalizing left right with
  | zero => exact restyled
  | succ count ih =>
      rcases left with ⟨_, left, _⟩
      rcases right with ⟨_, right, _⟩
      cases (show Token.Restyled left right from restyled) with
      | nil => exact restyled
      | cons _ _ rest => exact ih rest

theorem keyword? (restyled : left.Restyled right) (grammar : Grammar) :
    left.ahead.head?.bind grammar.keyword? = right.ahead.head?.bind grammar.keyword? := by
  rcases left with ⟨_, left, _⟩
  rcases right with ⟨_, right, _⟩
  cases (show Token.Restyled left right from restyled) with
  | nil => rfl
  | cons same _ _ =>
      simp [Grammar.keyword?, Token.kind_of_form same, Token.text_of_form same]

/-- The one test that looks at places has the same outcome. -/
theorem operatorAt? (restyled : left.Restyled right) (grammar : Grammar) :
    grammar.operatorAt? left = grammar.operatorAt? right := by
  rcases left with ⟨_, left, _⟩
  rcases right with ⟨_, right, _⟩
  cases (show Token.Restyled left right from restyled) with
  | nil => rfl
  | @cons leftToken rightToken left right same joined rest =>
      have kind_eq := Token.kind_of_form same
      have text_eq := Token.text_of_form same
      have orEqual_eq : Grammar.orEqual? leftToken = Grammar.orEqual? rightToken := by
        simp only [Grammar.orEqual?, text_eq]
      by_cases isOperator : leftToken.kind = .operator
      · cases found : Grammar.orEqual? leftToken with
        | none => simp [Grammar.operatorAt?, ← kind_eq, ← text_eq, ← orEqual_eq, found]
        | some operator =>
            have isOrder : leftToken.IsOrder := ⟨isOperator, Grammar.text_of_orEqual? found⟩
            have behind := rest.isEqualsBehind fun leftNext rightNext isLeft isRight =>
              joined leftNext rightNext isLeft isRight isOrder
            simp only [Grammar.operatorAt?, kind_eq, text_eq, orEqual_eq, behind]
      · simp [Grammar.operatorAt?, isOperator, ← kind_eq]

end Restyled

end Cursor

namespace Parse

variable {α β γ δ : Type} {view : α → γ} {other : β → δ}

/-- Whether two outcomes are the same, apart from places: values that look alike and cursors with
the same tokens ahead, or the same reason for a failure. -/
inductive Agree (view : α → γ) :
    EStateM.Result Halt Cursor α → EStateM.Result Halt Cursor α → Prop
  | ok {left right : α} {leftAfter rightAfter : Cursor} (values : view left = view right)
      (cursors : leftAfter.Restyled rightAfter) :
      Agree view (.ok left leftAfter) (.ok right rightAfter)
  | error {left right : Halt} {leftAfter rightAfter : Cursor}
      (halts : left.unplaced = right.unplaced) :
      Agree view (.error left leftAfter) (.error right rightAfter)

/-- Whether two steps come to the same, apart from places, at cursors that differ in places only. -/
def Uniform (view : α → γ) (left right : Parse α) : Prop :=
  ∀ leftCursor rightCursor : Cursor, leftCursor.Restyled rightCursor →
    Agree view (left leftCursor) (right rightCursor)

namespace Uniform

theorem pure {left right : α} (same : view left = view right) :
    Uniform view (Pure.pure left) (Pure.pure right) :=
  fun _ _ restyled => .ok same restyled

theorem throw {left right : Halt} (same : left.unplaced = right.unplaced) :
    Uniform view (throw left : Parse α) (throw right) :=
  fun _ _ _ => .error same

theorem bind {left right : Parse α} {leftNext rightNext : α → Parse β}
    (first : Uniform view left right)
    (rest : ∀ leftValue rightValue, view leftValue = view rightValue →
      Uniform other (leftNext leftValue) (rightNext rightValue)) :
    Uniform other (left >>= leftNext) (right >>= rightNext) := by
  intro leftCursor rightCursor restyled
  have agree := first leftCursor rightCursor restyled
  change Agree other (EStateM.bind left leftNext leftCursor)
    (EStateM.bind right rightNext rightCursor)
  unfold EStateM.bind
  generalize left leftCursor = leftResult at agree ⊢
  generalize right rightCursor = rightResult at agree ⊢
  cases agree with
  | ok values cursors => exact rest _ _ values _ _ cursors
  | error halts => exact .error halts

theorem map {left right : Parse α} {change : α → β} (first : Uniform view left right)
    (same : ∀ leftValue rightValue, view leftValue = view rightValue →
      other (change leftValue) = other (change rightValue)) :
    Uniform other (change <$> left) (change <$> right) :=
  first.bind fun _ _ alike => pure (same _ _ alike)

theorem look {left right : Cursor → Parse α}
    (each : ∀ leftCursor rightCursor : Cursor, leftCursor.Restyled rightCursor →
      Uniform view (left leftCursor) (right rightCursor)) :
    Uniform view (get >>= left) (get >>= right) :=
  fun _ _ restyled => each _ _ restyled _ _ restyled

/-- A choice that comes out the same. -/
theorem ite {leftCondition rightCondition : Prop} [Decidable leftCondition]
    [Decidable rightCondition] (same : leftCondition ↔ rightCondition)
    {leftYes leftNo rightYes rightNo : Parse α} (yes : Uniform view leftYes rightYes)
    (no : Uniform view leftNo rightNo) :
    Uniform view (if leftCondition then leftYes else leftNo)
      (if rightCondition then rightYes else rightNo) := by
  by_cases holds : leftCondition
  · rwa [if_pos holds, if_pos (same.mp holds)]
  · rwa [if_neg holds, if_neg fun also => holds (same.mpr also)]

theorem bounded {left right : Nat → Parse α}
    (each : ∀ budget, Uniform view (left budget) (right budget)) :
    Uniform view (Parse.bounded left) (Parse.bounded right) := by
  intro leftCursor rightCursor restyled
  unfold Parse.bounded
  rw [restyled.length_eq]
  exact each _ leftCursor rightCursor restyled

theorem fail (message : String) :
    Uniform view (Parse.fail message : Parse α) (Parse.fail message) := by
  refine look fun left right restyled => throw ?_
  rcases left with ⟨_, left, _⟩
  rcases right with ⟨_, right, _⟩
  cases (show Token.Restyled left right from restyled) with
  | nil => rfl
  | cons same _ _ =>
      simp only [Cursor.mismatch, Halt.unplaced, Diagnostic.unplaced, Diagnostic.located,
        Token.text_of_form same]

theorem next : Uniform Token.form Parse.next Parse.next := by
  rintro ⟨leftPassed, left, leftFile⟩ ⟨rightPassed, right, rightFile⟩ restyled
  cases (show Token.Restyled left right from restyled) with
  | nil => exact fail "a token" _ _ restyled
  | cons same _ rest => exact .ok same rest

theorem skip (count : Nat) :
    Uniform id (modify (·.skip count) : Parse Unit) (modify (·.skip count)) :=
  fun _ _ restyled => .ok rfl (restyled.skip count)

theorem spanSince (leftStart rightStart : Position) :
    Uniform (fun _ => ()) (Parse.spanSince leftStart) (Parse.spanSince rightStart) :=
  fun _ _ restyled => .ok rfl restyled

theorem accept (text : String) : Uniform id (Parse.accept text) (Parse.accept text) := by
  refine look fun left right restyled => ite (by rw [restyled.isAt]) ?_ (pure rfl)
  exact (skip 1).bind fun _ _ _ => pure rfl

/-- A choice by the next token, which is passed in one case. -/
theorem acceptThen {text : String} {leftYes leftNo rightYes rightNo : Parse α}
    (yes : Uniform view leftYes rightYes) (no : Uniform view leftNo rightNo) :
    Uniform view (Parse.accept text >>= fun found => if found then leftYes else leftNo)
      (Parse.accept text >>= fun found => if found then rightYes else rightNo) :=
  (accept text).bind fun left right same => ite (by rw [show left = right from same]) yes no

theorem require (text : String) : Uniform Token.form (Parse.require text) (Parse.require text) :=
  look fun _ _ restyled => ite (by rw [restyled.isAt]) next (fail _)

theorem requireKind (kind : TokenKind) (message : String) :
    Uniform Token.form (Parse.requireKind kind message) (Parse.requireKind kind message) :=
  look fun _ _ restyled => ite (by rw [restyled.isAtKind]) next (fail message)

theorem typeName : Uniform id Parse.typeName Parse.typeName :=
  (requireKind _ _).bind fun _ _ same => pure (Token.text_of_form same)

theorem onlyAfter (text : String) {left right : Parse α} (each : Uniform view left right) :
    Uniform (Option.map view) (Parse.onlyAfter text left) (Parse.onlyAfter text right) :=
  acceptThen (each.map fun _ _ same => congrArg some same) (pure rfl)

theorem separatedWithin {left right : Parse α} (each : Uniform view left right) (budget : Nat) :
    Uniform (List.map view) (Parse.separatedWithin left budget)
      (Parse.separatedWithin right budget) := by
  induction budget with
  | zero => exact throw rfl
  | succ budget ih =>
      refine each.bind fun first second same => acceptThen ?_ (pure ?_)
      · refine ih.bind fun _ _ others => pure ?_
        simp only [List.map_cons, same, others]
      · simp only [List.map_cons, List.map_nil, same]

theorem itemsUntil (closer : String) {left right : Parse α} (each : Uniform view left right) :
    Uniform (List.map view) (Parse.itemsUntil closer left) (Parse.itemsUntil closer right) := by
  have close (leftItems rightItems : List α) (same : leftItems.map view = rightItems.map view) :
      Uniform (List.map view) (Parse.require closer >>= fun _ => Pure.pure leftItems)
        (Parse.require closer >>= fun _ => Pure.pure rightItems) :=
    (require closer).bind fun _ _ _ => pure same
  have none : Uniform (List.map view) (Pure.pure [] : Parse (List α)) (Pure.pure []) := pure rfl
  refine look fun _ _ restyled => ite (by rw [restyled.isAt]) (none.bind close) ?_
  exact (bounded (separatedWithin each)).bind close

theorem whileAtWithin (starts : List String) {left right : Parse α}
    (each : Uniform view left right) (budget : Nat) :
    Uniform (List.map view) (Parse.whileAtWithin starts left budget)
      (Parse.whileAtWithin starts right budget) := by
  induction budget with
  | zero => exact throw rfl
  | succ budget ih =>
      refine look fun _ _ restyled => ite (by rw [restyled.isAtAny]) ?_ (pure rfl)
      refine each.bind fun _ _ same => ih.bind fun _ _ others => pure ?_
      simp only [List.map_cons, same, others]

end Uniform

/-! ## Expressions -/

/-- What a literal stands for, or what is wrong with it, does not depend on its place. -/
theorem literal?_of_form {left right : Token} (same : left.form = right.form) :
    (literal? left).map (Except.mapError Halt.unplaced) =
      (literal? right).map (Except.mapError Halt.unplaced) := by
  rcases left with ⟨kind, text, leftSpan⟩
  rcases right with ⟨_, _, rightSpan⟩
  cases same
  cases kind with
  | integer =>
      simp only [literal?, unreadable]
      split <;> rfl
  | decimal =>
      simp only [literal?, unreadable]
      split <;> rfl
  | character =>
      simp only [literal?, quotedText?, notOneCharacter]
      split <;> rfl
  | string => rfl
  | identifier => rfl
  | operator => rfl

section

variable {expression : Parse Expr} (uniform : Uniform Expr.unplaced expression expression)

include uniform

theorem named_uniform : Uniform Expr.unplaced (named expression) (named expression) := by
  refine Uniform.next.bind fun left right same => .acceptThen ?_ (.acceptThen ?_ ?_)
  · refine (Uniform.itemsUntil ")" uniform).bind fun _ _ arguments => ?_
    refine (Uniform.spanSince _ _).bind fun _ _ _ => .pure ?_
    simp only [Expr.unplaced, Expr.unplacedAll_eq_map, Token.text_of_form same, arguments]
  · refine uniform.bind fun _ _ offset => (Uniform.require "]").bind fun _ _ _ => ?_
    refine (Uniform.spanSince _ _).bind fun _ _ _ => .pure ?_
    simp only [Expr.unplaced, Token.text_of_form same, offset]
  · exact .pure (by simp only [Expr.unplaced, Token.text_of_form same])

theorem groupWith_uniform :
    Uniform Expr.unplaced (groupWith expression) (groupWith expression) := by
  refine (Uniform.require "(").bind fun _ _ _ => uniform.bind fun _ _ inner => ?_
  refine (Uniform.require ")").bind fun _ _ _ => (Uniform.spanSince _ _).bind fun _ _ _ => ?_
  exact .pure (by simp only [Expr.unplaced, inner])

theorem listWith_uniform : Uniform Expr.unplaced (listWith expression) (listWith expression) := by
  refine (Uniform.require "[").bind fun _ _ _ => ?_
  refine (Uniform.itemsUntil "]" uniform).bind fun _ _ elements => ?_
  refine (Uniform.spanSince _ _).bind fun _ _ _ => .pure ?_
  simp only [Expr.unplaced, Expr.unplacedAll_eq_map, elements]

theorem operandWith_uniform :
    Uniform Expr.unplaced (operandWith expression) (operandWith expression) := by
  refine .look fun left right restyled => ?_
  rcases left with ⟨_, left, _⟩
  rcases right with ⟨_, right, _⟩
  cases (show Token.Restyled left right from restyled) with
  | nil => exact .fail _
  | @cons leftToken rightToken _ _ same _ _ =>
      have literals := literal?_of_form same
      simp only
      cases leftFound : literal? leftToken with
      | none =>
          cases rightFound : literal? rightToken with
          | some literal => simp [leftFound, rightFound] at literals
          | none =>
              refine .ite (by rw [Token.kind_of_form same]) (named_uniform uniform) ?_
              exact .ite (by rw [Token.text_of_form same]) (groupWith_uniform uniform) (.fail _)
      | some leftLiteral =>
          cases rightFound : literal? rightToken with
          | none => simp [leftFound, rightFound] at literals
          | some rightLiteral =>
              rw [leftFound, rightFound, Option.map_some, Option.map_some,
                Option.some.injEq] at literals
              refine Uniform.next.bind fun _ _ _ => ?_
              cases leftLiteral with
              | ok leftValue =>
                  cases rightLiteral with
                  | ok rightValue =>
                      have value_eq : leftValue = rightValue := Except.ok.inj literals
                      exact .pure (by simp only [Expr.unplaced, value_eq])
                  | error halt => cases literals
              | error leftHalt =>
                  cases rightLiteral with
                  | ok value => cases literals
                  | error rightHalt => exact .throw (Except.error.inj literals)

end

theorem operationWith_uniform (grammar : Grammar) {expression : Power → Parse Expr}
    (uniform : ∀ power, Uniform Expr.unplaced (expression power) (expression power))
    {left right : Expr} (same : left.unplaced = right.unplaced) (power : Power) :
    Uniform Expr.unplaced (operationWith grammar expression left power)
      (operationWith grammar expression right power) := by
  refine .look fun leftCursor rightCursor restyled => ?_
  rw [restyled.operatorAt?]
  split
  · exact .fail _
  · refine (Uniform.skip _).bind fun _ _ _ => (uniform power).bind fun _ _ operand => .pure ?_
    simp only [Expr.unplaced, same, operand]

theorem chainWithin_uniform (grammar : Grammar) {expression : Power → Parse Expr}
    (uniform : ∀ power, Uniform Expr.unplaced (expression power) (expression power))
    (power : Power) (budget : Nat) {left right : Expr} (same : left.unplaced = right.unplaced) :
    Uniform Expr.unplaced (chainWithin grammar expression power budget left)
      (chainWithin grammar expression power budget right) := by
  induction budget generalizing left right with
  | zero => exact .throw rfl
  | succ budget ih =>
      refine .look fun leftCursor rightCursor restyled => ?_
      rw [restyled.operatorAt?]
      split
      · exact .pure same
      · refine .ite .rfl ?_ (.pure same)
        exact (operationWith_uniform grammar uniform same _).bind fun _ _ whole => ih whole

theorem expressionWithin_uniform (grammar : Grammar) (budget : Nat) (power : Power) :
    Uniform Expr.unplaced (expressionWithin grammar budget power)
      (expressionWithin grammar budget power) := by
  induction budget generalizing power with
  | zero => exact .throw rfl
  | succ budget ih =>
      refine (operandWith_uniform (ih .loosest)).bind fun _ _ same => .bounded fun count => ?_
      exact chainWithin_uniform grammar ih power count same

theorem anyExpression_uniform (grammar : Grammar) :
    Uniform Expr.unplaced (anyExpression grammar) (anyExpression grammar) :=
  .bounded fun budget => expressionWithin_uniform grammar budget .loosest

/-! ## Statements -/

section

variable (grammar : Grammar)

theorem plainStatement_uniform :
    Uniform Stmt.unplaced (plainStatement grammar) (plainStatement grammar) := by
  refine .look fun _ _ _ => (anyExpression_uniform grammar).bind fun left right same => ?_
  refine .acceptThen (.ite ?_ ?_ (.throw rfl)) ?_
  · rw [← Expr.isAccess_unplaced left, same, Expr.isAccess_unplaced]
  · refine (anyExpression_uniform grammar).bind fun _ _ value => ?_
    refine (Uniform.require ";").bind fun _ _ _ => (Uniform.spanSince _ _).bind fun _ _ _ => ?_
    have assignments := congr (congrArg (Stmt.assignment .nowhere) same) value
    exact .pure assignments
  · refine (Uniform.require ";").bind fun _ _ _ => (Uniform.spanSince _ _).bind fun _ _ _ => ?_
    exact .pure (congrArg (Stmt.expression .nowhere) same)

theorem declaration_uniform :
    Uniform Stmt.unplaced (declaration grammar) (declaration grammar) := by
  refine (Uniform.require _).bind fun _ _ _ => (Uniform.requireKind _ _).bind fun _ _ name => ?_
  refine (Uniform.onlyAfter ":" .typeName).bind fun _ _ type => ?_
  refine (Uniform.onlyAfter "=" (anyExpression_uniform grammar)).bind fun _ _ initializer => ?_
  refine (Uniform.require ";").bind fun _ _ _ => (Uniform.spanSince _ _).bind fun _ _ _ => ?_
  rw [Option.map_id, id, id] at type
  exact .pure (by simp only [Stmt.unplaced, Token.text_of_form name, type, initializer])

theorem result_uniform : Uniform Stmt.unplaced (result grammar) (result grammar) := by
  refine (Uniform.require _).bind fun _ _ _ => ?_
  refine (anyExpression_uniform grammar).bind fun _ _ value => ?_
  refine (Uniform.require ";").bind fun _ _ _ => (Uniform.spanSince _ _).bind fun _ _ _ => ?_
  exact .pure (congrArg (Stmt.result .nowhere) value)

variable {statement : Parse Stmt} (uniform : Uniform Stmt.unplaced statement statement)

include uniform

theorem blockWith_uniform (terminators : List String) :
    Uniform Stmt.unplacedAll (blockWith statement terminators)
      (blockWith statement terminators) := by
  refine .bounded fun budget => ?_
  induction budget with
  | zero => exact .throw rfl
  | succ budget ih =>
      refine .look fun _ _ restyled => .ite (by rw [restyled.isAtAny]) (.pure rfl) ?_
      refine .ite (by rw [restyled.isDone]) (.fail _) ?_
      refine uniform.bind fun _ _ first => ih.bind fun _ _ others => .pure ?_
      simp only [Stmt.unplacedAll, first, others]

theorem branchWith_uniform :
    Uniform Stmt.unplaced (branchWith grammar statement) (branchWith grammar statement) := by
  refine (Uniform.require _).bind fun _ _ _ => ?_
  refine (anyExpression_uniform grammar).bind fun leftCondition rightCondition condition => ?_
  refine (Uniform.require "DO").bind fun _ _ _ => ?_
  refine (blockWith_uniform uniform _).bind fun leftThen rightThen thenBody => ?_
  have close (leftElse rightElse : List Stmt)
      (elseBody : Stmt.unplacedAll leftElse = Stmt.unplacedAll rightElse)
      (leftStart rightStart : Position) :
      Uniform Stmt.unplaced (do
        let _ ← require "END"
        return .branch (← spanSince leftStart) leftCondition leftThen leftElse) (do
        let _ ← require "END"
        return .branch (← spanSince rightStart) rightCondition rightThen rightElse) := by
    refine (Uniform.require "END").bind fun _ _ _ => (Uniform.spanSince _ _).bind fun _ _ _ => ?_
    exact .pure (by simp only [Stmt.unplaced, condition, thenBody, elseBody])
  have none : Uniform Stmt.unplacedAll (pure [] : Parse (List Stmt)) (pure []) := .pure rfl
  refine .acceptThen ?_ (none.bind fun _ _ elseBody => close _ _ elseBody _ _)
  exact (blockWith_uniform uniform _).bind fun _ _ elseBody => close _ _ elseBody _ _

theorem casesWithin_uniform (budget : Nat) :
    Uniform Cases.unplaced (casesWithin grammar statement budget)
      (casesWithin grammar statement budget) := by
  induction budget with
  | zero => exact .throw rfl
  | succ budget ih =>
      refine .look fun _ _ restyled => .ite (by rw [restyled.isAt]) ?_ ?_
      · refine Uniform.next.bind fun _ _ _ => ?_
        refine (anyExpression_uniform grammar).bind fun _ _ value => ?_
        refine (Uniform.require ":").bind fun _ _ _ => ?_
        refine (blockWith_uniform uniform _).bind fun _ _ body => ?_
        refine (Uniform.spanSince _ _).bind fun _ _ _ => ih.bind fun _ _ others => .pure ?_
        simp only [Cases.unplaced, value, body, others]
      · refine (Uniform.require "DEFAULT").bind fun _ _ _ => ?_
        refine (blockWith_uniform uniform _).bind fun _ _ body => ?_
        refine (Uniform.spanSince _ _).bind fun _ _ _ => .pure ?_
        exact congrArg (Cases.default .nowhere) body

theorem switchWith_uniform :
    Uniform Stmt.unplaced (switchWith grammar statement) (switchWith grammar statement) := by
  refine (Uniform.require _).bind fun _ _ _ => ?_
  refine (anyExpression_uniform grammar).bind fun _ _ subject => ?_
  refine Uniform.bind (.bounded (casesWithin_uniform grammar uniform)) fun _ _ cases => ?_
  refine (Uniform.require "END").bind fun _ _ _ => (Uniform.spanSince _ _).bind fun _ _ _ => ?_
  have switches := congr (congrArg (Stmt.switch .nowhere) subject) cases
  exact .pure switches

theorem loopWith_uniform :
    Uniform Stmt.unplaced (loopWith grammar statement) (loopWith grammar statement) := by
  refine (Uniform.require _).bind fun _ _ _ => ?_
  refine (anyExpression_uniform grammar).bind fun _ _ condition => ?_
  refine (Uniform.require "DO").bind fun _ _ _ => ?_
  refine (blockWith_uniform uniform _).bind fun _ _ body => ?_
  refine (Uniform.require "END").bind fun _ _ _ => (Uniform.spanSince _ _).bind fun _ _ _ => ?_
  have loops := congr (congrArg (Stmt.loop .nowhere) condition) body
  exact .pure loops

theorem statementWith_uniform :
    Uniform Stmt.unplaced (statementWith grammar statement) (statementWith grammar statement) := by
  refine .look fun _ _ restyled => ?_
  rw [restyled.keyword?]
  split
  · exact declaration_uniform grammar
  · exact branchWith_uniform grammar uniform
  · exact switchWith_uniform grammar uniform
  · exact loopWith_uniform grammar uniform
  · exact result_uniform grammar
  · exact plainStatement_uniform grammar

end

theorem statement_uniform (grammar : Grammar) :
    Uniform Stmt.unplaced (statement grammar) (statement grammar) := by
  refine .bounded fun budget => ?_
  induction budget with
  | zero => exact .throw rfl
  | succ budget ih => exact statementWith_uniform grammar ih

/-! ## Programs -/

theorem global_uniform (grammar : Grammar) :
    Uniform Global.unplaced (global grammar) (global grammar) := by
  refine Uniform.next.bind fun leftKeyword rightKeyword keyword => ?_
  refine (Uniform.requireKind _ _).bind fun leftName rightName name => ?_
  refine (Uniform.require ":").bind fun _ _ _ => ?_
  refine Uniform.typeName.bind fun leftType rightType type => ?_
  have text_eq := Token.text_of_form keyword
  have close (left right : Option Expr) (same : left.map Expr.unplaced = right.map Expr.unplaced) :
      Uniform Global.unplaced (do
        let _ ← require ";"
        return (⟨← spanSince leftKeyword.span.start, leftName.text, leftType,
          leftKeyword.text = "LIST" || leftKeyword.text = "VAR", left, none⟩ : Global)) (do
        let _ ← require ";"
        return ⟨← spanSince rightKeyword.span.start, rightName.text, rightType,
          rightKeyword.text = "LIST" || rightKeyword.text = "VAR", right, none⟩) := by
    refine (Uniform.require ";").bind fun _ _ _ => (Uniform.spanSince _ _).bind fun _ _ _ => ?_
    rw [id, id] at type
    exact .pure (by simp only [Global.unplaced, Token.text_of_form name, type, text_eq, same])
  have some {step : Parse Expr} (uniform : Uniform Expr.unplaced step step) :
      Uniform (Option.map Expr.unplaced) (Option.some <$> step) (Option.some <$> step) :=
    uniform.map fun _ _ same => congrArg Option.some same
  refine .ite (by rw [text_eq]) ?_ (.ite (by rw [text_eq]) ?_ ?_)
  · refine (Uniform.require "=").bind fun _ _ _ => ?_
    exact (some (listWith_uniform (anyExpression_uniform grammar))).bind close
  · exact (Uniform.onlyAfter "=" (anyExpression_uniform grammar)).bind close
  · refine (Uniform.require "=").bind fun _ _ _ => ?_
    exact (some (anyExpression_uniform grammar)).bind close

theorem parameter_uniform : Uniform id parameter parameter := by
  refine (Uniform.requireKind _ _).bind fun _ _ name => (Uniform.require ":").bind fun _ _ _ => ?_
  exact Uniform.typeName.bind fun _ _ type => .pure (by simp_all [Token.text_of_form name])

theorem function_uniform (grammar : Grammar) :
    Uniform Function.unplaced (function grammar) (function grammar) := by
  refine (Uniform.require "FUN").bind fun _ _ _ => (Uniform.requireKind _ _).bind fun _ _ name => ?_
  refine (Uniform.require "(").bind fun _ _ _ => ?_
  refine (Uniform.itemsUntil ")" parameter_uniform).bind fun _ _ parameters => ?_
  refine (Uniform.onlyAfter ":" .typeName).bind fun _ _ type => ?_
  refine (Uniform.require "DO").bind fun _ _ _ => ?_
  refine (blockWith_uniform (statement_uniform grammar) _).bind fun _ _ body => ?_
  refine (Uniform.require "END").bind fun _ _ _ => (Uniform.spanSince _ _).bind fun _ _ _ => ?_
  rw [List.map_id, List.map_id] at parameters
  rw [Option.map_id, id, id] at type
  exact .pure (by simp only [Function.unplaced, Token.text_of_form name, parameters, type, body])

theorem program_uniform (grammar : Grammar) :
    Uniform Program.unplaced (program grammar) (program grammar) := by
  refine Uniform.bind (.bounded (.whileAtWithin _ (global_uniform grammar))) fun _ _ globals => ?_
  refine Uniform.bind (.bounded (.whileAtWithin _ (function_uniform grammar)))
    fun _ _ functions => ?_
  refine .look fun _ _ restyled => .ite (by rw [restyled.isDone]) (.pure ?_) (.fail _)
  simp only [Program.unplaced, globals, functions]

end Parse

namespace Program

/-- What is wrong with the tokens of a program is wrong at a place, or with a literal that cannot be
cut. -/
theorem located_or_severed (tokens : List Token) (file : String) {halt : Halt}
    (failed : Program.parse tokens file = .error halt) :
    (∃ cause position, halt = .reported (.located cause position)) ∨
      halt = .severed ∧ ∃ token ∈ tokens, token.Splits := by
  have within : ∀ token ∈ tokens, token.Within fun _ => True := fun _ _ => ⟨trivial, trivial⟩
  rcases parse_blames within trivial failed with ⟨cause, position, rfl, _⟩ | severed
  · exact .inl ⟨cause, position, rfl⟩
  · exact .inr severed

/-- Tokens that differ in places only, and are joined alike, are read as the same program, or
refused for the same reason. Where reading one of them cuts a text inside a character, reading the
other does so too, and this comes from a literal whose first or last character is wider than a
quote. -/
theorem parse_restyled {left right : List Token} (same : left.map Token.form = right.map Token.form)
    (joined : Token.joints left = Token.joints right) (leftFile rightFile : String) :
    (∃ leftProgram rightProgram, Program.parse left leftFile = .ok leftProgram ∧
      Program.parse right rightFile = .ok rightProgram ∧
      leftProgram.unplaced = rightProgram.unplaced) ∨
    (∃ cause leftPosition rightPosition,
      Program.parse left leftFile = .error (.reported (.located cause leftPosition)) ∧
      Program.parse right rightFile = .error (.reported (.located cause rightPosition))) ∨
    (∃ token ∈ left, token.Splits) ∧ Program.parse left leftFile = .error .severed ∧
      Program.parse right rightFile = .error .severed := by
  have agree := Parse.program_uniform .standard (.ofTokens left leftFile)
    (.ofTokens right rightFile) (Token.Restyled.of_joints same joined)
  have leftFails := @located_or_severed left leftFile
  have rightFails := @located_or_severed right rightFile
  unfold Program.parse at leftFails rightFails ⊢
  generalize Parse.program .standard (.ofTokens left leftFile) = leftResult at *
  generalize Parse.program .standard (.ofTokens right rightFile) = rightResult at *
  cases agree with
  | ok values cursors => exact .inl ⟨_, _, rfl, rfl, values⟩
  | error halts =>
      rcases leftFails rfl with ⟨cause, leftPosition, rfl⟩ | ⟨rfl, splits⟩
      · rcases rightFails rfl with ⟨_, rightPosition, rfl⟩ | ⟨rfl, _⟩
        · have cause_eq := congrArg Diagnostic.cause (Halt.reported.inj halts)
          cases cause_eq
          exact .inr (.inl ⟨cause, leftPosition, rightPosition, rfl, rfl⟩)
        · cases halts
      · rcases rightFails rfl with ⟨_, _, rfl⟩ | ⟨rfl, _⟩
        · cases halts
        · exact .inr (.inr ⟨splits, rfl, rfl⟩)

/-- A line break within a comparison, but not within its operator. -/
theorem parse_restyled_broken :
    ∃ left right, Script.tokens "VAL b:Boolean=1<=2;" "" = .ok left ∧
      Script.tokens "VAL b : Boolean =\n  1\n    <= 2 ;" "" = .ok right ∧
      left.map Token.form = right.map Token.form ∧ Token.joints left = Token.joints right ∧
      Token.joints left = [true] ∧
      ∃ leftProgram rightProgram, Program.parse left "" = .ok leftProgram ∧
        Program.parse right "" = .ok rightProgram ∧
        leftProgram.unplaced = rightProgram.unplaced := by
  have evaluated : ((Script.tokens "VAL b:Boolean=1<=2;" "").toOption.any fun left =>
      (Script.tokens "VAL b : Boolean =\n  1\n    <= 2 ;" "").toOption.any fun right =>
        left.map Token.form = right.map Token.form && Token.joints left = Token.joints right &&
          Token.joints left = [true] && (Program.parse left "").toOption.isSome) = true := by
    decide +kernel
  rcases exists_ok_of_any evaluated with ⟨left, leftRead, passes⟩
  rcases exists_ok_of_any passes with ⟨right, rightRead, passes⟩
  simp only [Bool.and_eq_true, decide_eq_true_eq] at passes
  rcases passes with ⟨⟨⟨same, joined⟩, isJoint⟩, isProgram⟩
  refine ⟨left, right, leftRead, rightRead, same, joined, isJoint, ?_⟩
  rcases parse_restyled same joined "" "" with
    programs | ⟨_, _, _, failed, _⟩ | ⟨_, failed, _⟩
  · exact programs
  · rw [failed] at isProgram
    cases isProgram
  · rw [failed] at isProgram
    cases isProgram

/-- A string literal that is a single wide character, as no text has one, is neither read nor
refused. -/
theorem parse_severed_string :
    let tokens : List Token :=
      [⟨.identifier, "VAL", ⟨0, ""⟩, ⟨3, ""⟩⟩, ⟨.identifier, "x", ⟨4, ""⟩, ⟨5, ""⟩⟩,
        ⟨.operator, ":", ⟨5, ""⟩, ⟨6, ""⟩⟩, ⟨.identifier, "T", ⟨7, ""⟩, ⟨8, ""⟩⟩,
        ⟨.operator, "=", ⟨9, ""⟩, ⟨10, ""⟩⟩, ⟨.string, "é", ⟨11, ""⟩, ⟨13, ""⟩⟩,
        ⟨.operator, ";", ⟨13, ""⟩, ⟨14, ""⟩⟩]
    ¬((∃ program, Program.parse tokens "" = .ok program) ∨
      ∃ diagnostic, Program.parse tokens "" = .error (.reported diagnostic)) := by
  intro tokens
  have stops : Program.parse tokens "" = .error .severed := rfl
  rw [stops]
  rintro (⟨_, parsed⟩ | ⟨_, reported⟩)
  · cases parsed
  · cases reported

end Program

end GradualScript
