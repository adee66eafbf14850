import GradualScript.Proofs.Scope.Change
import GradualScript.Proofs.Typing.Judgement

/-!
# Checked programs are well typed

The checker works through an arena of scopes and stops at the first thing wrong. Here it is shown
that what it lets pass obeys the rules of `Context`: a checker *sees* a context when its arena shows
the tables of the context, and each part of the check takes a checker that sees one context to a
checker that sees the next.
-/

namespace GradualScript

namespace Checker

variable {checker : Checker} {context : Context}

/-- Whether the names that a checker knows are those of a context. -/
structure Sees (checker : Checker) (context : Context) : Prop where
  shows : checker.arena.Shows checker.current context.tables
  declares : checker.arena.Declares context.functions

theorem Sees.of_eq {after : Checker} (sees : checker.Sees context)
    (arena_eq : after.arena = checker.arena) (current_eq : after.current = checker.current) :
    after.Sees context := by
  constructor
  · rw [arena_eq, current_eq]
    exact sees.shows
  · rw [arena_eq]
    exact sees.declares

theorem Sees.variableAt (sees : checker.Sees context) {name : String} {position : Position}
    {found : Variable} (lookup : checker.variableAt name position = .ok found) :
    context.lookup name = some found := by
  rw [Checker.variableAt, sees.shows.findVariable] at lookup
  unfold Context.lookup
  cases result : Table.findIn context.tables name with
  | none => rw [result] at lookup; cases lookup
  | some binding => rw [result] at lookup; cases lookup; rfl

theorem Sees.functionAt (sees : checker.Sees context) {name : String} {arity : Nat}
    {position : Position} {found : Signature}
    (lookup : checker.functionAt name arity position = .ok found) :
    context.functions.find? (name, arity) = some found := by
  rw [Checker.functionAt, sees.shows.findFunction sees.declares] at lookup
  cases result : context.functions.find? (name, arity) with
  | none => rw [result] at lookup; cases lookup
  | some binding => rw [result] at lookup; cases lookup; rfl

end Checker

namespace Ty

theorem allows_of_expect {target received : Ty} {position : Position}
    (expected : target.expect received position = .ok ()) : target.allows received = true := by
  unfold expect at expected
  split at expected
  · assumption
  · cases expected

theorem allows_of_expectArgument {target received : Ty} {position : Position}
    (expected : target.expectArgument received position = .ok ()) :
    target.allows received = true := by
  unfold expectArgument at expected
  split at expected
  · assumption
  · cases expected

theorem element?_of_elementAt {ty element : Ty} {position : Position}
    (found : ty.elementAt position = .ok element) : ty.element? = some element := by
  unfold elementAt at found
  split at found
  · rename_i present
    cases found
    exact present
  · cases found

theorem ofOperation?_of_operationAt {operator : Operator} {left right ty : Ty}
    {position : Position} (found : operationAt operator left right position = .ok ty) :
    ofOperation? operator left right = some ty := by
  unfold operationAt at found
  split at found
  · rename_i present
    cases found
    exact present
  · cases found

end Ty

namespace Checker

variable {checker : Checker} {context : Context}

theorem allows_of_expectArguments {targets types : List Ty} {positions : List Position}
    (enough : positions.length = types.length)
    (expected : expectArguments targets (types.zip positions) = .ok ()) (index : Nat)
    (target received : Ty) (targetAt : targets[index]? = some target)
    (receivedAt : types[index]? = some received) : target.allows received = true := by
  induction targets generalizing types positions index with
  | nil => simp at targetAt
  | cons first targets ih =>
      rcases types with _ | ⟨ty, types⟩
      · simp at receivedAt
      rcases positions with _ | ⟨position, positions⟩
      · simp at enough
      simp only [List.zip_cons_cons, expectArguments] at expected
      cases head : first.expectArgument ty position with
      | error halt => rw [head] at expected; cases expected
      | ok _ =>
          rw [head] at expected
          rcases index with _ | index
          · simp only [List.getElem?_cons_zero, Option.some.injEq] at targetAt receivedAt
            rw [← targetAt, ← receivedAt]
            exact Ty.allows_of_expectArgument head
          · exact ih (Nat.succ.inj enough) expected index targetAt receivedAt

theorem checkExpr_isAccess (checker : Checker) (expr : Expr) :
    (checker.checkExpr expr).1.isAccess = expr.isAccess := by
  cases expr <;> (unfold checkExpr; (repeat' split) <;> rfl)

/-- Checking makes no list of what is none. -/
theorem checkExpr_ne_list (checker : Checker) {expr : Expr}
    (notList : ∀ span label elements, expr ≠ .list span label elements) (span : Span)
    (label : Option Ty) (elements : List Expr) :
    (checker.checkExpr expr).1 ≠ .list span label elements := by
  cases expr with
  | list span label elements => exact absurd rfl (notList span label elements)
  | _ => unfold checkExpr; (repeat' split) <;> exact Expr.noConfusion

theorem checkExpr_isBinary (checker : Checker) (expr : Expr) :
    (checker.checkExpr expr).1.isBinary = expr.isBinary := by
  cases expr <;> (unfold checkExpr; (repeat' split) <;> rfl)

mutual

/-- An expression that passes its check is annotated throughout and of the type found. -/
theorem checkExpr_types (sees : checker.Sees context) :
    (expr : Expr) → {result : Expr} → {ty : Ty} →
    context.PermitsAll result.operations →
    checker.checkExpr expr = (result, .ok ty) → context.Types result ty
  | .literal span label value, result, ty, _, checked => by
      simp only [checkExpr, Prod.mk.injEq, Except.ok.injEq] at checked
      rcases checked with ⟨rfl, rfl⟩
      exact .literal
  | .group span label inner, result, ty, permitted, checked => by
      rw [checkExpr] at checked
      split at checked
      · rename_i isBinary
        rw [← checkExpr_isBinary checker] at isBinary
        rcases innerChecked : checker.checkExpr inner with ⟨inner, halt | found⟩
        · rw [innerChecked] at checked
          cases checked
        · rw [innerChecked] at checked isBinary
          cases checked
          exact .group isBinary (checkExpr_types sees _ permitted innerChecked)
      · cases checked
  | .binary span label operator left right, result, ty, permitted, checked => by
      rw [checkExpr] at checked
      rcases leftChecked : checker.checkExpr left with ⟨left, halt | leftType⟩
      · rw [leftChecked] at checked
        cases checked
      rcases rightChecked : checker.checkExpr right with ⟨right, halt | rightType⟩
      · rw [leftChecked, rightChecked] at checked
        cases checked
      simp only [leftChecked, rightChecked] at checked
      cases operation : Ty.operationAt operator leftType rightType left.start with
      | error halt => rw [operation] at checked; cases checked
      | ok found =>
          rw [operation] at checked
          cases checked
          rw [Expr.operations] at permitted
          exact .binary (checkExpr_types sees _ permitted.tail.left leftChecked)
            (checkExpr_types sees _ permitted.tail.right rightChecked)
            (Ty.ofOperation?_of_operationAt operation) permitted.head
  | .access span label name binding, result, ty, _, checked => by
      rw [checkExpr] at checked
      cases lookup : checker.variableAt name span.start with
      | error halt => rw [lookup] at checked; cases checked
      | ok found =>
          rw [lookup] at checked
          cases checked
          exact .access (sees.variableAt lookup)
  | .element span label name binding offset, result, ty, permitted, checked => by
      rw [checkExpr] at checked
      cases lookup : checker.variableAt name span.start with
      | error halt => rw [lookup] at checked; cases checked
      | ok found =>
          rcases offsetChecked : checker.checkExpr offset with ⟨offset, halt | offsetType⟩
          · rw [lookup, offsetChecked] at checked
            cases checked
          simp only [lookup, offsetChecked] at checked
          cases whole : Ty.integer.expect offsetType offset.start with
          | error halt => rw [whole] at checked; cases checked
          | ok _ =>
              cases element : found.ty.elementAt span.start with
              | error halt => rw [whole, element] at checked; cases checked
              | ok elementType =>
                  rw [whole, element] at checked
                  cases checked
                  exact .element (sees.variableAt lookup)
                    (checkExpr_types sees _ permitted offsetChecked)
                    (Ty.allows_of_expect whole) (Ty.element?_of_elementAt element)
  | .call span label name binding arguments, result, ty, permitted, checked => by
      rw [checkExpr] at checked
      rcases argumentsChecked : checker.checkExprs arguments with ⟨arguments, halt | types⟩
      · rw [argumentsChecked] at checked
        cases checked
      simp only [argumentsChecked] at checked
      cases lookup : checker.functionAt name arguments.length span.start with
      | error halt => rw [lookup] at checked; cases checked
      | ok found =>
          simp only [lookup] at checked
          cases expected :
              expectArguments found.parameters (types.zip (arguments.map Expr.start)) with
          | error halt => rw [expected] at checked; cases checked
          | ok _ =>
              rw [expected] at checked
              cases checked
              have typed := checkExprs_types sees _ permitted argumentsChecked
              exact .call typed (sees.functionAt lookup) (allows_of_expectArguments
                ((List.length_map _).trans typed.length_eq) expected)
  | .list span label elements, result, ty, permitted, checked => by
      rw [checkExpr] at checked
      rcases elementsChecked : checker.checkExprs elements with ⟨elements, halt | types⟩
      · rw [elementsChecked] at checked
        cases checked
      · rw [elementsChecked] at checked
        cases checked
        exact .list (checkExprs_types sees _ permitted elementsChecked)

/-- Expressions that pass their check are annotated throughout and of the types found. -/
theorem checkExprs_types (sees : checker.Sees context) :
    (exprs : List Expr) → {results : List Expr} → {types : List Ty} →
    context.PermitsAll (Expr.operationsOf results) →
    checker.checkExprs exprs = (results, .ok types) → context.TypesAll results types
  | [], results, types, _, checked => by
      rw [checkExprs] at checked
      cases checked
      exact .nil
  | expr :: others, results, types, permitted, checked => by
      rw [checkExprs] at checked
      rcases exprChecked : checker.checkExpr expr with ⟨expr, halt | ty⟩
      · rw [exprChecked] at checked
        cases checked
      rcases othersChecked : checker.checkExprs others with ⟨others, halt | types⟩
      · rw [exprChecked, othersChecked] at checked
        cases checked
      rw [exprChecked, othersChecked] at checked
      cases checked
      rw [Expr.operationsOf] at permitted
      exact .cons (checkExpr_types sees _ permitted.left exprChecked)
        (checkExprs_types sees _ permitted.right othersChecked)

end

theorem checkAgainst_types (sees : checker.Sees context) {target : Ty} {expr result : Expr}
    (permitted : context.PermitsAll result.operations)
    (checked : checker.checkAgainst target expr = (result, .ok ())) :
    ∃ ty, context.Types result ty ∧ target.allows ty = true := by
  unfold checkAgainst at checked
  rcases exprChecked : checker.checkExpr expr with ⟨expr, halt | ty⟩
  · rw [exprChecked] at checked
    cases checked
  · simp only [exprChecked, Prod.mk.injEq] at checked
    rcases checked with ⟨rfl, expected⟩
    exact ⟨ty, checkExpr_types sees _ permitted exprChecked, Ty.allows_of_expect expected⟩

/-! ## Statements -/

/-- Whether a checker differs from an earlier one at most in the variables of the current scope. -/
structure Follows (before after : Checker) : Prop where
  current : after.current = before.current
  returnType : after.returnType = before.returnType
  arena : Arena.SameBut before.current before.arena after.arena

theorem Follows.refl (checker : Checker) : checker.Follows checker :=
  ⟨rfl, rfl, .refl _ _⟩

theorem Follows.trans {first second third : Checker} (earlier : first.Follows second)
    (later : second.Follows third) : first.Follows third :=
  ⟨later.current.trans earlier.current, later.returnType.trans earlier.returnType,
    earlier.arena.trans (earlier.current ▸ later.arena)⟩

theorem Sees.enter (sees : checker.Sees context) : checker.enter.1.Sees context.enter :=
  ⟨sees.shows.push, sees.declares.push (Nat.zero_lt_of_lt sees.shows.lt_depth) _⟩

/-- Leaving a scope gives back the checker that entered it. -/
theorem leave_enter {inner : Checker} (notEmpty : 0 < checker.arena.depth)
    (follows : checker.enter.1.Follows inner) : inner.leave checker.enter.2 = .ok checker := by
  rcases follows.arena.parent_push with ⟨scope, found, parent_eq⟩
  have parent : inner.arena.parent checker.enter.2 = .ok (some checker.current) := by
    have scope_eq := Arena.scope_eq_ok found
    rw [Arena.parent, show checker.enter.2 = checker.arena.depth from rfl, scope_eq, ← parent_eq]
    rfl
  have arena_eq : inner.arena.dropFrom checker.enter.2 = checker.arena :=
    follows.arena.dropFrom_push notEmpty
  have returnType_eq : inner.returnType = checker.returnType := follows.returnType
  rw [leave, parent]
  simp only [bind, Except.bind, pure, Except.pure, arena_eq, Option.getD_some]
  rcases inner with ⟨innerArena, innerCurrent, innerType⟩
  simp only at returnType_eq
  rw [returnType_eq]

/-- A check that passes in a scope of its own passes inside it, and nothing is left of the scope. -/
theorem inScope_ok {τ : Type} {check : Checker → Step τ} {after : Checker} {tree : τ}
    (sees : checker.Sees context)
    (keeps : ∀ inner, check checker.enter.1 = (inner, tree, .ok ()) →
      checker.enter.1.Follows inner)
    (checked : checker.inScope check = (after, tree, .ok ())) :
    after = checker ∧ ∃ inner, check checker.enter.1 = (inner, tree, .ok ()) := by
  unfold inScope at checked
  rcases ran : check checker.enter.1 with ⟨inner, result, outcome⟩
  simp only [ran] at checked
  cases left : inner.leave checker.enter.2 with
  | error halt => rw [left] at checked; cases checked
  | ok outer =>
      rw [left] at checked
      cases checked
      have back := leave_enter (Nat.zero_lt_of_lt sees.shows.lt_depth) (keeps inner ran)
      rw [left] at back
      cases back
      exact ⟨rfl, inner, rfl⟩

theorem declare_ok {binding : Variable} {position : Position} {after : Checker}
    {table : Table String Variable} {locals : List (Table String Variable)}
    (sees : checker.Sees context) (inside : context.locals = table :: locals)
    (declared : checker.declare binding position = .ok after) :
    table.find? binding.name = none ∧
      after.Sees { context with locals := table.insert binding.name binding :: locals } ∧
      checker.Follows after := by
  unfold declare at declared
  cases added : checker.arena.addVariable checker.current binding.name binding position with
  | error halt => rw [added] at declared; cases declared
  | ok arena =>
      rw [added] at declared
      cases declared
      rcases Arena.addVariable_eq_ok_iff.mp added with ⟨scope, found, fresh, rfl⟩
      have shows := sees.shows
      rw [Context.tables, inside, List.cons_append] at shows
      rcases shows.table with ⟨shown, shownFound, table_eq⟩
      rw [found] at shownFound
      cases shownFound
      exact ⟨table_eq ▸ fresh, ⟨shows.put _ _, sees.declares.put _ _ _⟩, ⟨rfl, rfl, .put _ _ _ _⟩⟩

theorem resolve_ok {text : String} {position : Position} {ty : Ty}
    (resolved : resolve text position = .ok ty) : Ty.ofName? text = some ty := by
  unfold resolve at resolved
  split at resolved
  · rename_i found
    cases resolved
    exact found
  · cases resolved

theorem mapM_resolve_ok {typeName : Option String} {position : Position} {declared : Option Ty}
    (resolved : typeName.mapM (resolve · position) = .ok declared) :
    declared = typeName.bind Ty.ofName? ∧
      ∀ text, typeName = some text → (Ty.ofName? text).isSome = true := by
  cases typeName with
  | none =>
      cases resolved
      refine ⟨rfl, ?_⟩
      intro _ impossible
      cases impossible
  | some text =>
      cases found : resolve text position with
      | error halt =>
          rw [Option.mapM_some, found] at resolved
          cases resolved
      | ok ty =>
          have named := resolve_ok found
          rw [Option.mapM_some, found] at resolved
          cases resolved
          refine ⟨by rw [Option.bind_some, named], ?_⟩
          intro other same
          cases same
          rw [named]
          rfl

theorem checkInitializer_initializes (sees : checker.Sees context) {name : String}
    {declared : Option Ty} {initializer result : Option Expr} {position : Position} {ty : Ty}
    (permitted : context.PermitsAll (Expr.operationsIn result))
    (checked : checker.checkInitializer name declared initializer position = (result, .ok ty)) :
    context.Initializes declared result ty := by
  rcases declared with _ | declared <;> rcases initializer with _ | initializer
  · cases checked
  · rcases exprChecked : checker.checkExpr initializer with ⟨expr, outcome⟩
    simp only [checkInitializer, exprChecked, Prod.mk.injEq] at checked
    rcases checked with ⟨rfl, rfl⟩
    exact .inferred (checkExpr_types sees _ permitted exprChecked)
  · cases checked
    exact .missing
  · rcases exprChecked : checker.checkAgainst declared initializer with ⟨expr, halt | _⟩
    · simp only [checkInitializer, exprChecked, Prod.mk.injEq] at checked
      cases checked.2
    · simp only [checkInitializer, exprChecked, Prod.mk.injEq] at checked
      rcases checked with ⟨rfl, same⟩
      cases same
      rcases checkAgainst_types sees permitted exprChecked with ⟨found, typed, allowed⟩
      exact .given typed allowed

theorem checkDeclaration_accepts (sees : checker.Sees context) (inside : context.locals ≠ [])
    {span : Span} {name : String} {typeName : Option String} {initializer : Option Expr}
    {binding : Option Variable} {after : Checker} {result : Stmt}
    (permitted : context.PermitsAll result.operations)
    (checked : checker.checkDeclaration span name typeName initializer binding =
      (after, result, .ok ())) :
    ∃ locals, locals ≠ [] ∧
      context.Accepts checker.returnType result { context with locals } ∧
      after.Sees { context with locals } ∧ checker.Follows after := by
  rcases List.exists_cons_of_ne_nil inside with ⟨table, locals, locals_eq⟩
  unfold checkDeclaration at checked
  cases resolved : typeName.mapM (resolve · span.start) with
  | error halt => rw [resolved] at checked; cases checked
  | ok declared =>
      rcases mapM_resolve_ok resolved with ⟨rfl, known⟩
      simp only [resolved] at checked
      rcases initialized : checker.checkInitializer name (typeName.bind Ty.ofName?) initializer
        span.start with ⟨initializer, halt | ty⟩
      · simp only [initialized] at checked
        cases checked
      simp only [initialized] at checked
      cases declared : checker.declare ⟨name, ty, true⟩ span.start with
      | error halt => rw [declared] at checked; cases checked
      | ok next =>
          rw [declared] at checked
          cases checked
          rcases declare_ok sees locals_eq declared with ⟨fresh, nextSees, follows⟩
          have initial := checkInitializer_initializes sees permitted initialized
          exact ⟨_, List.cons_ne_nil _ _, .declaration locals_eq fresh known initial, nextSees,
            follows⟩

theorem checkAssignment_accepts (sees : checker.Sees context) {span : Span}
    {receiver value : Expr} {result : Stmt} (named : receiver.isAccess = true)
    (permitted : context.PermitsAll result.operations)
    (checked : checker.checkAssignment span receiver value = (result, .ok ())) :
    context.Accepts checker.returnType result context := by
  unfold checkAssignment at checked
  have receiver_isAccess := checker.checkExpr_isAccess receiver
  rcases receiverChecked : checker.checkExpr receiver with ⟨receiver, halt | target⟩
  · rw [receiverChecked] at checked
    cases checked
  rw [receiverChecked] at receiver_isAccess
  simp only [receiverChecked] at checked
  cases isMutable : expectMutable receiver with
  | error halt => rw [isMutable] at checked; cases checked
  | ok _ =>
      simp only [isMutable] at checked
      rcases valueChecked : checker.checkAgainst target value with ⟨value, outcome⟩
      simp only [valueChecked, Prod.mk.injEq] at checked
      rcases checked with ⟨rfl, rfl⟩
      rw [Stmt.operations] at permitted
      rcases checkAgainst_types sees permitted.right valueChecked with ⟨ty, valueTyped, allowed⟩
      have receiverTyped := checkExpr_types sees _ permitted.left receiverChecked
      exact .assignment (receiver_isAccess.trans named) receiverTyped isMutable valueTyped allowed

/-- A block that passes its check is well typed inside a new scope. -/
theorem inScope_accepts (sees : checker.Sees context) {after : Checker}
    {body result : List Stmt}
    (accepts : ∀ inner, checkStmts checker.enter.1 body = (inner, result, .ok ()) →
      ∃ locals, context.enter.AcceptsAll checker.returnType result { context.enter with locals } ∧
        checker.enter.1.Follows inner)
    (checked : checker.inScope (checkStmts · body) = (after, result, .ok ())) :
    after = checker ∧ ∃ next, context.enter.AcceptsAll checker.returnType result next := by
  have keeps (inner : Checker) (ran : checkStmts checker.enter.1 body = (inner, result, .ok ())) :
      checker.enter.1.Follows inner := by
    rcases accepts inner ran with ⟨_, _, follows⟩
    exact follows
  rcases inScope_ok sees keeps checked with ⟨same, inner, ran⟩
  rcases accepts inner ran with ⟨_, accepted, _⟩
  exact ⟨same, _, accepted⟩

mutual

/-- A statement that passes its check is well typed, and the checker goes on seeing its context. -/
theorem checkStmt_accepts :
    (statement : Stmt) → {checker : Checker} → {context : Context} → {after : Checker} →
    {result : Stmt} → checker.Sees context → context.locals ≠ [] → statement.Targeted →
    context.PermitsAll result.operations →
    checker.checkStmt statement = (after, result, .ok ()) →
    ∃ locals, locals ≠ [] ∧
      context.Accepts checker.returnType result { context with locals } ∧
      after.Sees { context with locals } ∧ checker.Follows after
  | .expression span expr, checker, context, after, result, sees, inside, _, permitted,
      checked => by
      rw [checkStmt] at checked
      split at checked
      · rcases exprChecked : checker.checkExpr expr with ⟨expr, halt | ty⟩
        · rw [exprChecked] at checked
          cases checked
        · rw [exprChecked] at checked
          cases checked
          exact ⟨context.locals, inside,
            .expression (checkExpr_types sees _ permitted exprChecked), sees, .refl _⟩
      · cases checked
  | .declaration span name typeName initializer binding, checker, context, after, result, sees,
      inside, _, permitted, checked => by
      rw [checkStmt] at checked
      exact checkDeclaration_accepts sees inside permitted checked
  | .assignment span receiver value, checker, context, after, result, sees, inside, named,
      permitted, checked => by
      rw [checkStmt, Prod.mk.injEq] at checked
      rcases checked with ⟨rfl, checked⟩
      exact ⟨context.locals, inside, checkAssignment_accepts sees named permitted checked, sees,
        .refl _⟩
  | .branch span condition thenBody elseBody, checker, context, after, result, sees, inside, named,
      permitted, checked => by
      rw [checkStmt] at checked
      rcases conditionChecked : checker.checkAgainst .boolean condition with ⟨condition, halt | _⟩
      · rw [conditionChecked] at checked
        cases checked
      simp only [conditionChecked] at checked
      rcases thenChecked : checker.inScope (checkStmts · thenBody) with
        ⟨thenChecker, thenResult, halt | _⟩
      · simp only [thenChecked] at checked
        cases checked
      simp only [thenChecked] at checked
      rcases elseChecked : thenChecker.inScope (checkStmts · elseBody) with
        ⟨elseChecker, elseResult, outcome⟩
      simp only [elseChecked, Prod.mk.injEq] at checked
      rcases checked with ⟨rfl, rfl, rfl⟩
      rw [Stmt.operations] at permitted
      rcases checkAgainst_types sees permitted.left conditionChecked with ⟨ty, typed, allowed⟩
      rcases inScope_accepts sees (fun _ => checkStmts_accepts thenBody sees.enter
        (List.cons_ne_nil _ _) named.1 permitted.right.left) thenChecked with
        ⟨rfl, _, thenAccepted⟩
      rcases inScope_accepts sees (fun _ => checkStmts_accepts elseBody sees.enter
        (List.cons_ne_nil _ _) named.2 permitted.right.right) elseChecked with
        ⟨rfl, _, elseAccepted⟩
      exact ⟨context.locals, inside, .branch typed allowed thenAccepted elseAccepted, sees, .refl _⟩
  | .switch span subject cases, checker, context, after, result, sees, inside, named, permitted,
      checked => by
      rw [checkStmt] at checked
      rcases subjectChecked : checker.checkExpr subject with ⟨subject, halt | ty⟩
      · rw [subjectChecked] at checked
        cases checked
      simp only [subjectChecked] at checked
      rcases casesChecked : checkCases checker ty cases with ⟨casesChecker, casesResult, outcome⟩
      simp only [casesChecked, Prod.mk.injEq] at checked
      rcases checked with ⟨rfl, rfl, rfl⟩
      rw [Stmt.operations] at permitted
      rcases checkCases_accepts cases sees named permitted.right casesChecked with ⟨rfl, accepted⟩
      have typed := checkExpr_types sees _ permitted.left subjectChecked
      exact ⟨context.locals, inside, .switch typed accepted, sees, .refl _⟩
  | .loop span condition body, checker, context, after, result, sees, inside, named, permitted,
      checked => by
      rw [checkStmt] at checked
      rcases conditionChecked : checker.checkAgainst .boolean condition with ⟨condition, halt | _⟩
      · rw [conditionChecked] at checked
        cases checked
      simp only [conditionChecked] at checked
      rcases bodyChecked : checker.inScope (checkStmts · body) with
        ⟨bodyChecker, bodyResult, outcome⟩
      simp only [bodyChecked, Prod.mk.injEq] at checked
      rcases checked with ⟨rfl, rfl, rfl⟩
      rw [Stmt.operations] at permitted
      rcases checkAgainst_types sees permitted.left conditionChecked with ⟨ty, typed, allowed⟩
      rcases inScope_accepts sees (fun _ => checkStmts_accepts body sees.enter
        (List.cons_ne_nil _ _) named permitted.right) bodyChecked with ⟨rfl, _, accepted⟩
      exact ⟨context.locals, inside, .loop typed allowed accepted, sees, .refl _⟩
  | .result span value, checker, context, after, result, sees, inside, _, permitted, checked => by
      rw [checkStmt] at checked
      rcases valueChecked : checker.checkAgainst checker.returnType value with ⟨value, outcome⟩
      simp only [valueChecked, Prod.mk.injEq] at checked
      rcases checked with ⟨rfl, rfl, rfl⟩
      rcases checkAgainst_types sees permitted valueChecked with ⟨ty, typed, allowed⟩
      exact ⟨context.locals, inside, .result typed allowed, sees, .refl _⟩

/-- Arms of a switch that pass their check are well typed. -/
theorem checkCases_accepts :
    (cases : Cases) → {checker : Checker} → {context : Context} → {subject : Ty} →
    {after : Checker} → {result : Cases} → checker.Sees context → cases.Targeted →
    context.PermitsAll result.operations →
    checkCases checker subject cases = (after, result, .ok ()) →
    after = checker ∧ context.AcceptsCases checker.returnType subject result
  | .default span body, checker, context, subject, after, result, sees, named, permitted,
      checked => by
      rw [checkCases] at checked
      rcases bodyChecked : checker.inScope (checkStmts · body) with
        ⟨bodyChecker, bodyResult, outcome⟩
      simp only [bodyChecked, Prod.mk.injEq] at checked
      rcases checked with ⟨rfl, rfl, rfl⟩
      rcases inScope_accepts sees (fun _ => checkStmts_accepts body sees.enter
        (List.cons_ne_nil _ _) named permitted) bodyChecked with ⟨rfl, _, accepted⟩
      exact ⟨rfl, .default accepted⟩
  | .case span value body others, checker, context, subject, after, result, sees, named, permitted,
      checked => by
      rw [checkCases] at checked
      rcases valueChecked : checker.checkAgainst subject value with ⟨value, halt | _⟩
      · rw [valueChecked] at checked
        cases checked
      simp only [valueChecked] at checked
      rcases bodyChecked : checker.inScope (checkStmts · body) with
        ⟨bodyChecker, bodyResult, halt | _⟩
      · simp only [bodyChecked] at checked
        cases checked
      simp only [bodyChecked] at checked
      rcases othersChecked : checkCases bodyChecker subject others with
        ⟨othersChecker, othersResult, outcome⟩
      simp only [othersChecked, Prod.mk.injEq] at checked
      rcases checked with ⟨rfl, rfl, rfl⟩
      rw [Cases.operations] at permitted
      rcases checkAgainst_types sees permitted.left valueChecked with ⟨ty, typed, allowed⟩
      rcases inScope_accepts sees (fun _ => checkStmts_accepts body sees.enter
        (List.cons_ne_nil _ _) named.1 permitted.right.left) bodyChecked with ⟨rfl, _, accepted⟩
      rcases checkCases_accepts others sees named.2 permitted.right.right othersChecked with
        ⟨rfl, rest⟩
      exact ⟨rfl, .case typed allowed accepted rest⟩

/-- Statements that pass their check are well typed one after the other. -/
theorem checkStmts_accepts :
    (statements : List Stmt) → {checker : Checker} → {context : Context} → {after : Checker} →
    {result : List Stmt} → checker.Sees context → context.locals ≠ [] →
    Stmt.AllTargeted statements →
    context.PermitsAll (Stmt.operationsOf result) →
    checkStmts checker statements = (after, result, .ok ()) →
    ∃ locals, context.AcceptsAll checker.returnType result { context with locals } ∧
      checker.Follows after
  | [], checker, context, after, result, _, _, _, _, checked => by
      rw [checkStmts] at checked
      cases checked
      exact ⟨context.locals, .nil, .refl _⟩
  | statement :: others, checker, context, after, result, sees, inside, named, permitted,
      checked => by
      rw [checkStmts] at checked
      rcases statementChecked : checkStmt checker statement with ⟨middle, statement, halt | _⟩
      · rw [statementChecked] at checked
        cases checked
      simp only [statementChecked] at checked
      rcases othersChecked : checkStmts middle others with ⟨last, others, outcome⟩
      simp only [othersChecked, Prod.mk.injEq] at checked
      rcases checked with ⟨rfl, rfl, rfl⟩
      rw [Stmt.operationsOf] at permitted
      rcases checkStmt_accepts _ sees inside named.1 permitted.left statementChecked with
        ⟨locals, stillInside, accepted, middleSees, follows⟩
      rcases checkStmts_accepts _ middleSees stillInside named.2 permitted.right othersChecked with
        ⟨final, rest, later⟩
      rw [follows.returnType] at rest
      exact ⟨final, .cons accepted rest, follows.trans later⟩

end

end Checker

end GradualScript
