import GradualScript.Proofs.Typing.Faults

/-!
# Checking again

A check writes down what it finds, and it may be made again on what was written. For expressions and
statements the second check comes to the same result and writes the same down, whether the first one
passed or stopped midway, because a check never reads an annotation. An expression that passed may
even be checked again where more names are known.
-/

namespace GradualScript

namespace Checker

variable {before after last checker : Checker}

/-- Whether what a checker finds under a name, another one finds as well. -/
structure Knows (before after : Checker) : Prop where
  onVariables : ∀ name found, before.arena.findVariable before.current name = .ok (some found) →
    after.arena.findVariable after.current name = .ok (some found)
  onFunctions : ∀ name arity found,
    before.arena.findFunction before.current name arity = .ok (some found) →
      after.arena.findFunction after.current name arity = .ok (some found)

namespace Knows

theorem refl (checker : Checker) : checker.Knows checker :=
  ⟨fun _ _ found => found, fun _ _ _ found => found⟩

theorem trans (earlier : before.Knows after) (later : after.Knows last) : before.Knows last := by
  constructor
  · intro name found known
    exact later.onVariables name found (earlier.onVariables name found known)
  · intro name arity found known
    exact later.onFunctions name arity found (earlier.onFunctions name arity found known)

theorem variableAt (knows : before.Knows after) {name : String} {position : Position}
    {found : Variable} (lookup : before.variableAt name position = .ok found) :
    after.variableAt name position = .ok found := by
  unfold Checker.variableAt at lookup ⊢
  generalize result : before.arena.findVariable before.current name = searched at lookup
  rcases searched with halt | _ | binding
  · cases lookup
  · cases lookup
  · cases lookup
    rw [knows.onVariables name found result]
    rfl

theorem functionAt (knows : before.Knows after) {name : String} {arity : Nat}
    {position : Position} {found : Signature}
    (lookup : before.functionAt name arity position = .ok found) :
    after.functionAt name arity position = .ok found := by
  unfold Checker.functionAt at lookup ⊢
  generalize result : before.arena.findFunction before.current name arity = searched at lookup
  rcases searched with halt | _ | binding
  · cases lookup
  · cases lookup
  · cases lookup
    rw [knows.onFunctions name arity found result]
    rfl

end Knows

/-! ## Expressions -/

theorem checkExpr_isCall (checker : Checker) (expr : Expr) :
    (checker.checkExpr expr).1.isCall = expr.isCall := by
  cases expr <;> (unfold checkExpr; (repeat' split) <;> rfl)

mutual

/-- An expression is checked again with the same result, also by a checker that knows more if the
first check passed. -/
theorem checkExpr_again (knows : before.Knows after) (expr : Expr)
    (settled : ∀ halt, (before.checkExpr expr).2 = .error halt → after = before) :
    after.checkExpr (before.checkExpr expr).1 = before.checkExpr expr := by
  cases expr with
  | literal span label value => simp only [checkExpr]
  | group span label inner =>
      by_cases binary : inner.isBinary = true
      · have again := checkExpr_again knows inner
        have stillBinary := checkExpr_isBinary before inner
        simp only [checkExpr, binary, if_true] at settled ⊢
        rcases checked : before.checkExpr inner with ⟨result, halt | ty⟩ <;>
          simp only [checked] at again settled stillBinary ⊢
        · simp only [checkExpr, stillBinary, binary, again settled, if_true]
        · simp only [checkExpr, stillBinary, binary, again (by simp), if_true]
      · simp [checkExpr, binary]
  | binary span label operator left right =>
      have leftAgain := checkExpr_again knows left
      have rightAgain := checkExpr_again knows right
      simp only [checkExpr] at settled ⊢
      rcases leftChecked : before.checkExpr left with ⟨leftResult, halt | leftType⟩
      · simp only [leftChecked] at leftAgain settled ⊢
        simp only [checkExpr, leftAgain fun _ _ => settled _ rfl]
      simp only [leftChecked] at leftAgain settled ⊢
      rcases rightChecked : before.checkExpr right with ⟨rightResult, halt | rightType⟩
      · simp only [rightChecked] at rightAgain settled ⊢
        simp only [checkExpr, leftAgain (by simp), rightAgain fun _ _ => settled _ rfl]
      simp only [rightChecked] at rightAgain settled ⊢
      cases operation : Ty.operationAt operator leftType rightType leftResult.start <;>
        simp only [checkExpr, leftAgain (by simp), rightAgain (by simp), operation]
  | access span label name binding =>
      simp only [checkExpr] at settled ⊢
      cases lookup : before.variableAt name span.start with
      | error halt =>
          simp only [lookup] at settled ⊢
          rw [settled halt rfl]
          simp only [checkExpr, lookup]
      | ok found => simp only [checkExpr, knows.variableAt lookup]
  | element span label name binding offset =>
      have again := checkExpr_again knows offset
      simp only [checkExpr] at settled ⊢
      cases lookup : before.variableAt name span.start with
      | error halt =>
          simp only [lookup] at settled ⊢
          rw [settled halt rfl]
          simp only [checkExpr, lookup]
      | ok found =>
          simp only [lookup] at settled ⊢
          rcases checked : before.checkExpr offset with ⟨result, halt | ty⟩
          · simp only [checked] at again settled ⊢
            simp only [checkExpr, knows.variableAt lookup, again fun _ _ => settled _ rfl]
          · simp only [checked] at again settled ⊢
            cases element : Ty.integer.expect ty result.start *> found.ty.elementAt span.start <;>
              simp only [checkExpr, knows.variableAt lookup, again (by simp), element]
  | call span label name binding arguments =>
      have again := checkExprs_again knows arguments
      simp only [checkExpr] at settled ⊢
      rcases checked : before.checkExprs arguments with ⟨results, halt | types⟩
      · simp only [checked] at again settled ⊢
        simp only [checkExpr, again fun _ _ => settled _ rfl]
      simp only [checked] at again settled ⊢
      cases lookup : before.functionAt name results.length span.start with
      | error halt =>
          simp only [lookup] at settled ⊢
          have same := settled halt rfl
          simp only [checkExpr, again (by simp)]
          rw [same, lookup]
      | ok found =>
          simp only
          cases expected :
              expectArguments found.parameters (types.zip (results.map Expr.start)) <;>
            simp only [checkExpr, again (by simp), knows.functionAt lookup, expected]
  | list span label elements =>
      have again := checkExprs_again knows elements
      simp only [checkExpr] at settled ⊢
      rcases checked : before.checkExprs elements with ⟨results, halt | types⟩
      · simp only [checked] at again settled ⊢
        simp only [checkExpr, again fun _ _ => settled _ rfl]
      · simp only [checked] at again ⊢
        simp only [checkExpr, again (by simp)]

theorem checkExprs_again (knows : before.Knows after) (exprs : List Expr)
    (settled : ∀ halt, (before.checkExprs exprs).2 = .error halt → after = before) :
    after.checkExprs (before.checkExprs exprs).1 = before.checkExprs exprs := by
  cases exprs with
  | nil => simp only [checkExprs]
  | cons expr others =>
      have exprAgain := checkExpr_again knows expr
      have othersAgain := checkExprs_again knows others
      simp only [checkExprs] at settled ⊢
      rcases exprChecked : before.checkExpr expr with ⟨result, halt | ty⟩
      · simp only [exprChecked] at exprAgain settled ⊢
        simp only [checkExprs, exprAgain fun _ _ => settled _ rfl]
      simp only [exprChecked] at exprAgain settled ⊢
      rcases othersChecked : before.checkExprs others with ⟨results, halt | types⟩
      · simp only [othersChecked] at othersAgain settled ⊢
        simp only [checkExprs, exprAgain (by simp), othersAgain fun _ _ => settled _ rfl]
      · simp only [othersChecked] at othersAgain ⊢
        simp only [checkExprs, exprAgain (by simp), othersAgain (by simp)]

end

theorem checkAgainst_again (knows : before.Knows after) (target : Ty) (expr : Expr)
    (settled : ∀ halt, (before.checkAgainst target expr).2 = .error halt → after = before) :
    after.checkAgainst target (before.checkAgainst target expr).1 =
      before.checkAgainst target expr := by
  have again := checkExpr_again knows expr
  unfold checkAgainst at settled ⊢
  rcases checked : before.checkExpr expr with ⟨result, halt | ty⟩
  · simp only [checked] at again settled ⊢
    simp only [again fun _ _ => settled _ rfl]
  · simp only [checked] at again ⊢
    simp only [again (by simp)]

/-! ## Statements -/

theorem inScope_again {τ : Type} {check : Checker → τ → Step τ} {tree : τ}
    (again : check checker.enter.1 (check checker.enter.1 tree).2.1 =
      check checker.enter.1 tree) :
    checker.inScope (check · (checker.inScope (check · tree)).2.1) =
      checker.inScope (check · tree) := by
  have tree_eq : (checker.inScope (check · tree)).2.1 = (check checker.enter.1 tree).2.1 := by
    unfold inScope
    simp only
    split <;> rfl
  rw [tree_eq]
  unfold inScope
  simp only [again]

theorem checkInitializer_again (checker : Checker) (name : String) (declared : Option Ty)
    (initializer : Option Expr) (position : Position) :
    checker.checkInitializer name declared
        (checker.checkInitializer name declared initializer position).1 position =
      checker.checkInitializer name declared initializer position := by
  rcases declared with _ | declared <;> rcases initializer with _ | initializer
  · rfl
  · have again := checkExpr_again (.refl checker) initializer fun _ _ => rfl
    simp only [checkInitializer, again]
  · rfl
  · have again := checkAgainst_again (.refl checker) declared initializer fun _ _ => rfl
    simp only [checkInitializer, again]

theorem checkDeclaration_again (checker : Checker) (span : Span) (name : String)
    (typeName : Option String) (initializer : Option Expr) (binding : Option Variable) :
    checker.checkStmt (checker.checkDeclaration span name typeName initializer binding).2.1 =
      checker.checkDeclaration span name typeName initializer binding := by
  unfold checkDeclaration
  cases resolved : typeName.mapM (resolve · span.start) with
  | error halt => simp only [checkStmt, checkDeclaration, resolved]
  | ok declared =>
      have again := checkInitializer_again checker name declared initializer span.start
      rcases checked : checker.checkInitializer name declared initializer span.start with
        ⟨result, halt | ty⟩
      · simp only [checked] at again ⊢
        simp only [checkStmt, checkDeclaration, resolved, again]
      · simp only [checked] at again ⊢
        cases declaring : checker.declare ⟨name, ty, true⟩ span.start <;>
          simp only [checkStmt, checkDeclaration, resolved, again, declaring]

theorem checkAssignment_again (checker : Checker) (span : Span) (receiver value : Expr) :
    checker.checkStmt (checker.checkAssignment span receiver value).1 =
      (checker, checker.checkAssignment span receiver value) := by
  have receiverAgain := checkExpr_again (.refl checker) receiver fun _ _ => rfl
  unfold checkAssignment
  rcases checked : checker.checkExpr receiver with ⟨result, halt | target⟩
  · simp only [checked] at receiverAgain ⊢
    simp only [checkStmt, checkAssignment, receiverAgain]
  · have valueAgain := checkAgainst_again (.refl checker) target value fun _ _ => rfl
    simp only [checked] at receiverAgain ⊢
    cases mutability : expectMutable result <;>
      simp only [checkStmt, checkAssignment, receiverAgain, mutability, valueAgain]

mutual

/-- A statement is checked again with the same result. -/
theorem checkStmt_again (checker : Checker) (statement : Stmt) :
    checker.checkStmt (checker.checkStmt statement).2.1 = checker.checkStmt statement := by
  cases statement with
  | expression span expr =>
      have again := checkExpr_again (.refl checker) expr fun _ _ => rfl
      have stillCall := checkExpr_isCall checker expr
      by_cases isCall : expr.isCall = true
      · simp only [checkStmt, isCall, stillCall, again, if_true]
      · simp [checkStmt, isCall]
  | declaration span name typeName initializer binding =>
      rw [checkStmt]
      exact checkDeclaration_again checker span name typeName initializer binding
  | assignment span receiver value =>
      rw [checkStmt]
      exact checkAssignment_again checker span receiver value
  | branch span condition thenBody elseBody =>
      have again := checkAgainst_again (.refl checker) .boolean condition fun _ _ => rfl
      have thenAgain := inScope_again (checkStmts_again checker.enter.1 thenBody)
      simp only [checkStmt]
      rcases checked : checker.checkAgainst .boolean condition with ⟨result, halt | _⟩
      · simp only [checked] at again ⊢
        simp only [checkStmt, again]
      simp only [checked] at again ⊢
      rcases thenChecked : checker.inScope (checkStmts · thenBody) with
        ⟨middle, thenResult, halt | _⟩
      · simp only [thenChecked] at thenAgain ⊢
        simp only [checkStmt, again, thenAgain]
      · have elseAgain := inScope_again (checkStmts_again middle.enter.1 elseBody)
        simp only [thenChecked] at thenAgain ⊢
        simp only [checkStmt, again, thenAgain, elseAgain]
  | switch span subject cases =>
      have again := checkExpr_again (.refl checker) subject fun _ _ => rfl
      simp only [checkStmt]
      rcases checked : checker.checkExpr subject with ⟨result, halt | ty⟩
      · simp only [checked] at again ⊢
        simp only [checkStmt, again]
      · have casesAgain := checkCases_again checker ty cases
        simp only [checked] at again ⊢
        simp only [checkStmt, again, casesAgain]
  | loop span condition body =>
      have again := checkAgainst_again (.refl checker) .boolean condition fun _ _ => rfl
      have bodyAgain := inScope_again (checkStmts_again checker.enter.1 body)
      simp only [checkStmt]
      rcases checked : checker.checkAgainst .boolean condition with ⟨result, halt | _⟩
      · simp only [checked] at again ⊢
        simp only [checkStmt, again]
      · simp only [checked] at again ⊢
        simp only [checkStmt, again, bodyAgain]
  | result span value =>
      have again := checkAgainst_again (.refl checker) checker.returnType value fun _ _ => rfl
      simp only [checkStmt, again]

theorem checkCases_again (checker : Checker) (subject : Ty) (cases : Cases) :
    checker.checkCases subject (checker.checkCases subject cases).2.1 =
      checker.checkCases subject cases := by
  cases cases with
  | default span body =>
      have bodyAgain := inScope_again (checkStmts_again checker.enter.1 body)
      simp only [checkCases, bodyAgain]
  | case span value body others =>
      have again := checkAgainst_again (.refl checker) subject value fun _ _ => rfl
      have bodyAgain := inScope_again (checkStmts_again checker.enter.1 body)
      simp only [checkCases]
      rcases checked : checker.checkAgainst subject value with ⟨result, halt | _⟩
      · simp only [checked] at again ⊢
        simp only [checkCases, again]
      simp only [checked] at again ⊢
      rcases bodyChecked : checker.inScope (checkStmts · body) with ⟨middle, bodyResult, halt | _⟩
      · simp only [bodyChecked] at bodyAgain ⊢
        simp only [checkCases, again, bodyAgain]
      · have othersAgain := checkCases_again middle subject others
        simp only [bodyChecked] at bodyAgain ⊢
        simp only [checkCases, again, bodyAgain, othersAgain]

theorem checkStmts_again (checker : Checker) (statements : List Stmt) :
    checker.checkStmts (checker.checkStmts statements).2.1 = checker.checkStmts statements := by
  cases statements with
  | nil => simp only [checkStmts]
  | cons statement others =>
      have again := checkStmt_again checker statement
      simp only [checkStmts]
      rcases checked : checker.checkStmt statement with ⟨middle, result, halt | _⟩
      · simp only [checked] at again ⊢
        simp only [checkStmts, again]
      · have othersAgain := checkStmts_again middle others
        simp only [checked] at again ⊢
        simp only [checkStmts, again, othersAgain]

end

/-! ## Bodies -/

theorem checkInside_again (inner : Checker) (function : Function) :
    inner.checkInside (inner.checkInside function).2.1 = inner.checkInside function := by
  unfold checkInside
  rcases declared : declareParameters function.span.start inner function.parameters with
    ⟨middle, halt | _⟩
  · simp only [declared]
  · have again := checkStmts_again middle function.body
    simp only [declared, again]

/-- Whether a function is another one up to its body. -/
def SameHeading (function other : Function) : Prop := ∃ body, other = { function with body }

theorem checkBody_sameHeading (checker : Checker) (function : Function) :
    SameHeading function (checker.checkBody function).2.1 := by
  have inside (inner : Checker) : SameHeading function (inner.checkInside function).2.1 := by
    unfold checkInside
    split
    · exact ⟨function.body, rfl⟩
    · exact ⟨_, rfl⟩
  rw [checkBody_eq_inScope]
  unfold inScope
  simp only
  split <;> exact inside _

/-- A function is checked again with the same result. -/
theorem checkBody_again (checker : Checker) (function : Function) :
    checker.checkBody (checker.checkBody function).2.1 = checker.checkBody function := by
  have expected_eq : expected (checker.checkBody function).2.1 = expected function := by
    rcases checkBody_sameHeading checker function with ⟨body, result_eq⟩
    rw [result_eq]
    rfl
  rw [checkBody_eq_inScope, expected_eq, checkBody_eq_inScope checker function]
  exact inScope_again (checkInside_again _ function)

/-- The type that the body before had to give back does not matter to a function. -/
theorem checkBody_returnType (checker : Checker) (returnType : Ty) (function : Function) :
    { checker with returnType }.checkBody function = checker.checkBody function := by
  rw [checkBody_eq_inScope, checkBody_eq_inScope]

end Checker

end GradualScript
