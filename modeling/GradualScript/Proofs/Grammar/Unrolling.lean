import GradualScript.Proofs.Grammar.Safety

/-!
# The grammar without budgets

Repetitions and nesting are given a number of steps, but that number is always large enough. So each
of them is equal to what it comes to with one step taken: an expression is an operand and a chain of
operators, a block is a statement and a block, and so on, with no number in sight.

A step with a small number is the step with a large one cut off: it does the same, or it runs out.
Whatever is made of cut steps is cut in the same way.
-/

namespace GradualScript

namespace Parse

variable {α β ι : Type}

/-- Whether a step never runs out of budget. -/
def Ends (step : Parse α) : Prop := ∀ cursor after, step cursor ≠ .error .exhausted after

/-- Whether a step does what another one does, or runs out of budget. -/
def CutOf (cut whole : Parse α) : Prop :=
  ∀ cursor, cut cursor = whole cursor ∨ ∃ after, cut cursor = .error .exhausted after

/-- A safe step that starts inside its bound and fails has found something to report, or a literal
ahead that cannot be cut. -/
theorem Safe.fails {bound least : Nat} {step : Parse α} {good : α → Prop} {cursor after : Cursor}
    {halt : Halt} (safe : Safe (fun _ => True) bound least step good)
    (inside : cursor.ahead.length < bound) (ran : step cursor = .error halt after) :
    (∃ diagnostic, halt = .reported diagnostic) ∨
      halt = .severed ∧ ∃ token ∈ cursor.ahead, token.Splits := by
  have within : cursor.Within fun _ => True :=
    ⟨fun _ _ => ⟨trivial, trivial⟩, fun _ _ => ⟨trivial, trivial⟩, trivial⟩
  have lands := safe cursor within inside
  rw [ran] at lands
  cases lands with
  | error blames =>
      rcases blames with ⟨_, _, same, _⟩
      exact .inl ⟨_, same⟩
  | severed member splits => exact .inr ⟨rfl, _, member, splits⟩

/-- A safe step that starts inside its bound does not run out of budget. -/
theorem Safe.not_exhausted {bound least : Nat} {step : Parse α} {good : α → Prop} {cursor : Cursor}
    (safe : Safe (fun _ => True) bound least step good) (inside : cursor.ahead.length < bound)
    (after : Cursor) : step cursor ≠ .error .exhausted after := by
  intro ran
  rcases safe.fails inside ran with ⟨_, same⟩ | ⟨same, _⟩ <;> cases same

theorem Safe.ends {least : Nat} {step : Parse α} {good : α → Prop}
    (safe : ∀ bound, Safe (fun _ => True) bound least step good) : step.Ends :=
  fun _ after => (safe _).not_exhausted (Nat.lt_succ_self _) after

namespace CutOf

variable {first second third cut whole : Parse α}

theorem refl (step : Parse α) : step.CutOf step := fun _ => .inl rfl

theorem trans (short : first.CutOf second) (long : second.CutOf third) : first.CutOf third := by
  intro cursor
  rcases short cursor with same | exhausted
  · rw [same]
    exact long cursor
  · exact .inr exhausted

theorem exhausted (whole : Parse α) : CutOf (throw .exhausted) whole := fun cursor =>
  .inr ⟨cursor, rfl⟩

theorem eq_of_ends (isCut : cut.CutOf whole) {cursor : Cursor}
    (ends : ∀ after, cut cursor ≠ .error .exhausted after) : cut cursor = whole cursor := by
  rcases isCut cursor with same | ⟨after, ran⟩
  · exact same
  · exact absurd ran (ends after)

theorem bind {cutNext wholeNext : α → Parse β} (isCut : cut.CutOf whole)
    (nextCut : ∀ value, (cutNext value).CutOf (wholeNext value)) :
    (cut >>= cutNext).CutOf (whole >>= wholeNext) := by
  intro cursor
  change EStateM.bind cut cutNext cursor = EStateM.bind whole wholeNext cursor ∨
    ∃ after, EStateM.bind cut cutNext cursor = _
  unfold EStateM.bind
  rcases isCut cursor with same | ⟨after, ran⟩
  · rw [← same]
    cases cut cursor with
    | ok value middle => exact nextCut value middle
    | error halt middle => exact .inl rfl
  · rw [ran]
    exact .inr ⟨after, rfl⟩

theorem look {cutNext wholeNext : Cursor → Parse α}
    (nextCut : ∀ cursor, (cutNext cursor).CutOf (wholeNext cursor)) :
    (get >>= cutNext).CutOf (get >>= wholeNext) := fun cursor => nextCut cursor cursor

theorem after {cutNext wholeNext : α → Parse β} (step : Parse α)
    (nextCut : ∀ value, (cutNext value).CutOf (wholeNext value)) :
    (step >>= cutNext).CutOf (step >>= wholeNext) :=
  bind (refl step) nextCut

theorem ite {condition : Prop} [Decidable condition] {cutYes cutNo yes no : Parse α}
    (yesCut : cutYes.CutOf yes) (noCut : cutNo.CutOf no) :
    CutOf (if condition then cutYes else cutNo) (if condition then yes else no) := by
  split
  · exact yesCut
  · exact noCut

theorem bounded {cut whole : Nat → Parse α} (isCut : ∀ budget, (cut budget).CutOf (whole budget)) :
    (Parse.bounded cut).CutOf (Parse.bounded whole) := fun cursor =>
  isCut (cursor.ahead.length + 1) cursor

end CutOf

/-- A repetition that takes its budget from the tokens ahead is equal to one step of it, if it never
runs out. -/
theorem bounded_unroll (step : Nat → ι → Parse α) (unroll : (ι → Parse α) → ι → Parse α)
    (zero : ∀ index, step 0 index = throw .exhausted)
    (succ : ∀ budget index, step (budget + 1) index = unroll (step budget) index)
    (cuts : ∀ cut whole : ι → Parse α, (∀ index, (cut index).CutOf (whole index)) →
      ∀ index, (unroll cut index).CutOf (unroll whole index))
    (ends : ∀ index, (bounded (step · index)).Ends) (index : ι) :
    bounded (step · index) = unroll (fun index => bounded (step · index)) index := by
  have next (budget : Nat) : ∀ index, (step budget index).CutOf (step (budget + 1) index) := by
    induction budget with
    | zero =>
        intro index
        rw [zero]
        exact .exhausted _
    | succ budget ih =>
        intro index
        rw [succ, succ]
        exact cuts _ _ ih index
  have grows {budget more : Nat} (le : budget ≤ more) (index : ι) :
      (step budget index).CutOf (step more index) := by
    induction le with
    | refl => exact .refl _
    | step _ ih => exact ih.trans (next _ index)
  have whole (budget : Nat) (index : ι) :
      (step budget index).CutOf (bounded (step · index)) := by
    intro cursor
    change _ = step (cursor.ahead.length + 1) index cursor ∨ _
    rcases Nat.le_total budget (cursor.ahead.length + 1) with le | le
    · exact grows le index cursor
    · exact .inl ((grows le index).eq_of_ends (ends index cursor)).symm
  funext cursor
  have once : bounded (step · index) cursor = unroll (step cursor.ahead.length) index cursor :=
    congrFun (succ _ index) cursor
  have notYet := ends index cursor
  rw [once] at notYet ⊢
  exact (cuts _ _ (whole _) index).eq_of_ends notYet

/-! ## Lists of items -/

/-- One item or more, with commas between them. -/
def separated (item : Parse α) : Parse (List α) := bounded (separatedWithin item)

/-- Items as long as the next token is written as one of `starts`. -/
def whileAt (starts : List String) (item : Parse α) : Parse (List α) :=
  bounded (whileAtWithin starts item)

theorem separated_unroll {item : Parse α} {good : α → Prop}
    (safe : ∀ bound, Safe (fun _ => True) bound 0 item good) :
    separated item = (do
      let first ← item
      if ← accept "," then return first :: (← separated item) else return [first]) := by
  refine bounded_unroll (fun budget (_ : Unit) => separatedWithin item budget)
    (fun more _ => do
      let first ← item
      if ← accept "," then return first :: (← more ()) else return [first])
    (fun _ => rfl) (fun _ _ => rfl) ?_ ?_ ()
  · intro cut whole isCut _
    refine .after _ fun first => .after _ fun found => .ite ?_ (.refl _)
    exact .bind (isCut ()) fun _ => .refl _
  · exact fun _ => Safe.ends fun bound => .bounded (Safe.separatedWithin (safe bound))

theorem whileAt_unroll {starts : List String} {item : Parse α} {good : α → Prop}
    (safe : ∀ bound, Safe (fun _ => True) bound 1 item good) :
    whileAt starts item = (do
      if (← get).isAtAny starts then
        let first ← item
        return first :: (← whileAt starts item)
      else
        return []) := by
  refine bounded_unroll (fun budget (_ : Unit) => whileAtWithin starts item budget)
    (fun more _ => do
      if (← get).isAtAny starts then
        let first ← item
        return first :: (← more ())
      else
        return [])
    (fun _ => rfl) (fun _ _ => rfl) ?_ ?_ ()
  · intro cut whole isCut _
    refine .look fun cursor => .ite (.after _ fun first => ?_) (.refl _)
    exact .bind (isCut ()) fun _ => .refl _
  · exact fun _ => Safe.ends fun bound => .bounded (Safe.whileAtWithin (safe bound))

theorem CutOf.separatedWithin {cut whole : Parse α} (isCut : cut.CutOf whole) (budget : Nat) :
    (Parse.separatedWithin cut budget).CutOf (Parse.separatedWithin whole budget) := by
  induction budget with
  | zero => exact .refl _
  | succ budget ih =>
      refine .bind isCut fun first => .after _ fun found => .ite ?_ (.refl _)
      exact .bind ih fun _ => .refl _

theorem CutOf.itemsUntil {cut whole : Parse α} (isCut : cut.CutOf whole) (closer : String) :
    (Parse.itemsUntil closer cut).CutOf (Parse.itemsUntil closer whole) := by
  refine .look fun cursor => .ite (.refl _) (.bind (.bounded ?_) fun _ => .refl _)
  exact .separatedWithin isCut

/-! ## Expressions -/

section

variable {cut whole : Parse Expr} (isCut : cut.CutOf whole)

include isCut

theorem CutOf.named : (Parse.named cut).CutOf (Parse.named whole) := by
  refine .after _ fun token => .after _ fun isCall => .ite ?_ (.after _ fun isElement => .ite ?_ ?_)
  · exact .bind (.itemsUntil isCut _) fun _ => .refl _
  · exact .bind isCut fun _ => .refl _
  · exact .refl _

theorem CutOf.groupWith : (Parse.groupWith cut).CutOf (Parse.groupWith whole) :=
  .after _ fun _ => .bind isCut fun _ => .refl _

theorem CutOf.operandWith : (Parse.operandWith cut).CutOf (Parse.operandWith whole) := by
  refine .look fun cursor => ?_
  split
  · exact .refl _
  · split
    · exact .refl _
    · exact .ite (.named isCut) (.ite (.groupWith isCut) (.refl _))

end

section

variable {cut whole : Power → Parse Expr} (isCut : ∀ power, (cut power).CutOf (whole power))
  {grammar : Grammar}

include isCut

theorem CutOf.operationWith (left : Expr) (power : Power) :
    (Parse.operationWith grammar cut left power).CutOf
      (Parse.operationWith grammar whole left power) := by
  refine .look fun cursor => ?_
  split
  · exact .refl _
  · exact .after _ fun _ => .bind (isCut power) fun _ => .refl _

theorem CutOf.chainWithin (power : Power) (budget : Nat) (left : Expr) :
    (Parse.chainWithin grammar cut power budget left).CutOf
      (Parse.chainWithin grammar whole power budget left) := by
  induction budget generalizing left with
  | zero => exact .refl _
  | succ budget ih =>
      refine .look fun cursor => ?_
      split
      · exact .refl _
      · exact .ite (.bind (.operationWith isCut left _) ih) (.refl _)

end

variable {grammar : Grammar}

theorem expression_safe {places : Position → Prop} {bound : Nat} (power : Power) :
    Safe places bound 1 (expression grammar power) (Expr.Placed places) :=
  .bounded fun budget => (expressionWithin_safe budget power).narrow (Nat.min_le_right bound _)

/-- The operators that bind tighter than `power`, and their right operands, after an expression. -/
def chain (grammar : Grammar) (power : Power) (left : Expr) : Parse Expr :=
  bounded fun count => chainWithin grammar (expression grammar) power count left

/-- A chain of operators up to its first operation, with `more` for what comes after that. -/
def chainTurn (grammar : Grammar) (power : Power) (more : Expr → Parse Expr) (left : Expr) :
    Parse Expr := do
  match grammar.operatorAt? (← get) with
  | none => return left
  | some (operator, _) =>
    let own := grammar.powerOf operator
    if power < own then
      more (← operation grammar left own)
    else
      return left

theorem chain_unroll (power : Power) (left : Expr) :
    chain grammar power left = chainTurn grammar power (chain grammar power) left := by
  refine bounded_unroll (chainWithin grammar (expression grammar) power) (chainTurn grammar power)
    (fun _ => rfl) (fun _ _ => rfl) ?_ ?_ left
  · intro cut whole isCut left
    refine .look fun cursor => ?_
    split
    · exact .refl _
    · exact .ite (.after _ isCut) (.refl _)
  · intro left
    exact Safe.ends fun bound => .bounded fun budget =>
      chainWithin_safe expression_safe power budget left.placed_anywhere

/-- An expression is an operand and a chain of operators. -/
theorem expression_unroll (power : Power) :
    expression grammar power = operand grammar >>= chain grammar power := by
  refine bounded_unroll (expressionWithin grammar)
    (fun inner power => do
      let left ← operandWith (inner .loosest)
      bounded fun count => chainWithin grammar inner power count left)
    (fun _ => rfl) (fun _ _ => rfl) ?_ (fun power => Safe.ends fun _ => expression_safe power) power
  intro cut whole isCut power
  refine .bind (.operandWith (isCut .loosest)) fun left => .bounded fun count => ?_
  exact .chainWithin isCut power count left

/-! ## Statements -/

section

variable {cut whole : Parse Stmt} (isCut : cut.CutOf whole)

include isCut

theorem CutOf.blockWith (terminators : List String) :
    (Parse.blockWith cut terminators).CutOf (Parse.blockWith whole terminators) := by
  refine .bounded fun budget => ?_
  induction budget with
  | zero => exact .refl _
  | succ budget ih =>
      refine .look fun cursor => .ite (.refl _) (.ite (.refl _) (.bind isCut fun first => ?_))
      exact .bind ih fun _ => .refl _

theorem CutOf.casesWithin (budget : Nat) :
    (Parse.casesWithin grammar cut budget).CutOf (Parse.casesWithin grammar whole budget) := by
  induction budget with
  | zero => exact .refl _
  | succ budget ih =>
      refine .look fun cursor => .ite ?_ ?_
      · refine .after _ fun keyword => .after _ fun value => .after _ fun _ => ?_
        refine .bind (.blockWith isCut _) fun body => .after _ fun span => ?_
        exact .bind ih fun _ => .refl _
      · exact .after _ fun keyword => .bind (.blockWith isCut _) fun _ => .refl _

theorem CutOf.branchWith :
    (Parse.branchWith grammar cut).CutOf (Parse.branchWith grammar whole) := by
  refine .after _ fun keyword => .after _ fun condition => .after _ fun _ => ?_
  refine .bind (.blockWith isCut _) fun thenBody => .after _ fun found => .ite ?_ (.refl _)
  exact .bind (.blockWith isCut _) fun _ => .refl _

theorem CutOf.statementWith :
    (Parse.statementWith grammar cut).CutOf (Parse.statementWith grammar whole) := by
  refine .look fun cursor => ?_
  split
  · exact .refl _
  · exact .branchWith isCut
  · refine .after _ fun keyword => .after _ fun subject => ?_
    exact .bind (.bounded (.casesWithin isCut)) fun _ => .refl _
  · refine .after _ fun keyword => .after _ fun condition => .after _ fun _ => ?_
    exact .bind (.blockWith isCut _) fun _ => .refl _
  · exact .refl _
  · exact .refl _

end

/-- A statement is read with statements inside it. -/
theorem statement_unroll : statement grammar = statementWith grammar (statement grammar) := by
  refine bounded_unroll (fun budget (_ : Unit) => statementWithin grammar budget)
    (fun inner _ => statementWith grammar (inner ())) (fun _ => rfl) (fun _ _ => rfl) ?_ ?_ ()
  · intro cut whole isCut _
    exact .statementWith (isCut ())
  · exact fun _ => Safe.ends fun _ => statement_safe

theorem block_unroll (terminators : List String) :
    block grammar terminators = (do
      let cursor ← get
      if cursor.isAtAny terminators then return []
      else if cursor.isDone then fail (terminatorNames terminators)
      else
        let first ← statement grammar
        return first :: (← block grammar terminators)) := by
  refine bounded_unroll
    (fun budget (_ : Unit) => blockWithin (statement grammar) terminators budget)
    (fun more _ => do
      let cursor ← get
      if cursor.isAtAny terminators then return []
      else if cursor.isDone then fail (terminatorNames terminators)
      else
        let first ← statement grammar
        return first :: (← more ()))
    (fun _ => rfl) (fun _ _ => rfl) ?_ ?_ ()
  · intro cut whole isCut _
    refine .look fun cursor => .ite (.refl _) (.ite (.refl _) (.after _ fun first => ?_))
    exact .bind (isCut ()) fun _ => .refl _
  · exact fun _ => Safe.ends fun _ => blockWith_safe statement_safe

/-- The arms of a switch. -/
def arms (grammar : Grammar) : Parse Cases := bounded (casesWithin grammar (statement grammar))

theorem arms_unroll :
    arms grammar = (do
      if (← get).isAt "CASE" then
        let keyword ← next
        let value ← anyExpression grammar
        let _ ← require ":"
        let body ← block grammar ["CASE", "DEFAULT", "END"]
        let span ← spanSince keyword.span.start
        return .case span value body (← arms grammar)
      else
        let keyword ← require "DEFAULT"
        let body ← block grammar ["END"]
        return .default (← spanSince keyword.span.start) body) := by
  refine bounded_unroll (fun budget (_ : Unit) => casesWithin grammar (statement grammar) budget)
    (fun more _ => do
      if (← get).isAt "CASE" then
        let keyword ← next
        let value ← anyExpression grammar
        let _ ← require ":"
        let body ← block grammar ["CASE", "DEFAULT", "END"]
        let span ← spanSince keyword.span.start
        return .case span value body (← more ())
      else
        let keyword ← require "DEFAULT"
        let body ← block grammar ["END"]
        return .default (← spanSince keyword.span.start) body)
    (fun _ => rfl) (fun _ _ => rfl) ?_ ?_ ()
  · intro cut whole isCut _
    refine .look fun cursor => .ite ?_ (.refl _)
    refine .after _ fun keyword => .after _ fun value => .after _ fun _ => .after _ fun body => ?_
    exact .after _ fun span => .bind (isCut ()) fun _ => .refl _
  · exact fun _ => Safe.ends fun bound => .bounded (casesWithin_safe statement_safe)

end Parse

end GradualScript
