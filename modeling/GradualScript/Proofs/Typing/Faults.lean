import GradualScript.Proofs.Program.Places
import GradualScript.Proofs.Scope.Order
import GradualScript.Proofs.Typing.Checked

/-!
# What a check finds wrong

Whatever a check finds wrong with a piece of program is a checking error at a place of that piece.
The checked tree has the places of the tree, since a check only writes down types and what names
refer to, and the check is back in the scope in which it was made.
-/

namespace GradualScript

namespace Checker

/-- Whether scopes are in order and the current one is there. -/
structure WellFormed (checker : Checker) : Prop where
  ordered : checker.arena.Ordered
  inside : checker.current < checker.arena.depth

/-- Whether what was found wrong, if anything, is wrong at one of certain places. -/
def Faults {α : Type} (places : Position → Prop) (outcome : Except Halt α) : Prop :=
  ∀ halt, outcome = .error halt → halt.Blames .checking places

/-- Whether a checked tree is as stated, and what was found wrong is wrong at a place. -/
structure Points {τ α : Type} (places : Position → Prop) (good : τ → Prop)
    (checked : Checked τ α) : Prop where
  tree : good checked.1
  faults : Faults places checked.2

variable {places : Position → Prop}

namespace Faults

variable {α β : Type}

theorem ok (value : α) : Faults places (.ok value : Except Halt α) := by
  intro halt failed
  cases failed

theorem error {halt : Halt} (blames : halt.Blames .checking places) :
    Faults places (.error halt : Except Halt α) := by
  rintro _ ⟨⟩
  exact blames

theorem located {cause : Cause} {position : Position} (checking : cause.phase = .checking)
    (placed : places position) :
    Faults places (.error (.reported (.located cause position)) : Except Halt α) :=
  error ⟨cause, position, rfl, checking, placed⟩

/-- A failure that is passed on. -/
theorem passOn {halt : Halt} (faults : Faults places (.error halt : Except Halt α)) :
    Faults places (.error halt : Except Halt β) :=
  error (faults halt rfl)

theorem bind {outcome : Except Halt α} {next : α → Except Halt β} (faults : Faults places outcome)
    (rest : ∀ value, Faults places (next value)) : Faults places (outcome >>= next) := by
  cases outcome with
  | ok value => exact rest value
  | error halt => exact faults.passOn

theorem map {outcome : Except Halt α} (faults : Faults places outcome) (change : α → β) :
    Faults places (outcome.map change) := by
  cases outcome with
  | ok value => exact ok _
  | error halt => exact faults.passOn

theorem ite {condition : Prop} [Decidable condition] {first second : Except Halt α}
    (whenTrue : Faults places first) (whenFalse : Faults places second) :
    Faults places (if condition then first else second) := by
  split
  · exact whenTrue
  · exact whenFalse

theorem expect (target received : Ty) {position : Position} (placed : places position) :
    Faults places (target.expect received position) :=
  .ite (.ok ()) (.located rfl placed)

theorem expectArguments (targets : List Ty) (received : List (Ty × Position))
    (placed : ∀ item ∈ received, places item.2) :
    Faults places (Checker.expectArguments targets received) := by
  induction targets generalizing received with
  | nil => exact .ok ()
  | cons target targets ih =>
      cases received with
      | nil => exact .ok ()
      | cons first others =>
          rcases List.forall_mem_cons.mp placed with ⟨firstPlaced, othersPlaced⟩
          exact .bind (.ite (.ok ()) (.located rfl firstPlaced)) fun _ => ih others othersPlaced

theorem elementAt (ty : Ty) {position : Position} (placed : places position) :
    Faults places (ty.elementAt position) := by
  unfold Ty.elementAt
  split
  · exact .ok _
  · exact .located rfl placed

theorem operationAt (operator : Operator) (left right : Ty) {position : Position}
    (placed : places position) : Faults places (Ty.operationAt operator left right position) := by
  unfold Ty.operationAt
  split
  · exact .ok _
  · exact .located rfl placed

theorem resolve (name : String) {position : Position} (placed : places position) :
    Faults places (Checker.resolve name position) := by
  unfold Checker.resolve
  split
  · exact .ok _
  · exact .located rfl placed

end Faults

variable {checker : Checker}

theorem WellFormed.variableAt (formed : checker.WellFormed) (name : String)
    {position : Position} (placed : places position) :
    Faults places (checker.variableAt name position) := by
  rcases formed.ordered.search (·.variableTable.find? name) formed.inside with ⟨place, searched⟩
  rw [Checker.variableAt, Arena.findVariable_of_search searched]
  cases place with
  | none => exact .located rfl placed
  | some place => exact .ok _

theorem WellFormed.functionAt (formed : checker.WellFormed) (name : String) (arity : Nat)
    {position : Position} (placed : places position) :
    Faults places (checker.functionAt name arity position) := by
  rcases formed.ordered.search (·.functionTable.find? (name, arity)) formed.inside with
    ⟨place, searched⟩
  rw [Checker.functionAt, Arena.findFunction_of_search searched]
  cases place with
  | none => exact .located rfl placed
  | some place => exact .ok _

/-- The places of arguments are those that the function is checked against. -/
theorem places_of_zip {arguments : List Expr} (placed : Expr.AllPlaced places arguments)
    (types : List Ty) : ∀ item ∈ types.zip (arguments.map Expr.start), places item.2 := by
  intro item member
  have start := (List.of_mem_zip member).2
  rcases List.mem_map.mp start with ⟨argument, among, same⟩
  rw [← same]
  exact (Expr.allPlaced_iff.mp placed argument among).start

mutual

theorem checkExpr_points (formed : checker.WellFormed) (expr : Expr) (placed : expr.Placed places) :
    Points places (Expr.Placed places) (checker.checkExpr expr) := by
  cases expr with
  | literal span ty value =>
      simp only [checkExpr]
      exact ⟨placed, .ok _⟩
  | group span ty inner =>
      have found := checkExpr_points formed inner placed.2
      simp only [checkExpr]
      split
      · split
        · rename_i passed
          rw [passed] at found
          exact ⟨⟨placed.1, found.tree⟩, .ok _⟩
        · rename_i failed
          rw [failed] at found
          exact ⟨⟨placed.1, found.tree⟩, found.faults⟩
      · exact ⟨placed, .located rfl placed.1⟩
  | binary span ty operator left right =>
      rcases placed with ⟨placed, leftPlaced, rightPlaced⟩
      have leftFound := checkExpr_points formed left leftPlaced
      have rightFound := checkExpr_points formed right rightPlaced
      simp only [checkExpr]
      split
      · rename_i failed
        rw [failed] at leftFound
        exact ⟨⟨placed, leftFound.tree, rightPlaced⟩, leftFound.faults⟩
      · rename_i passed
        rw [passed] at leftFound
        split
        · rename_i failed
          rw [failed] at rightFound
          exact ⟨⟨placed, leftFound.tree, rightFound.tree⟩, rightFound.faults⟩
        · rename_i rightPassed
          rw [rightPassed] at rightFound
          split
          · rename_i failed
            refine ⟨⟨placed, leftFound.tree, rightFound.tree⟩, .error ?_⟩
            exact Faults.operationAt _ _ _ leftFound.tree.start _ failed
          · exact ⟨⟨placed, leftFound.tree, rightFound.tree⟩, .ok _⟩
  | access span ty name binding =>
      simp only [checkExpr]
      split
      · rename_i failed
        exact ⟨placed, .error (formed.variableAt _ placed _ failed)⟩
      · exact ⟨placed, .ok _⟩
  | element span ty name binding offset =>
      rcases placed with ⟨placed, offsetPlaced⟩
      have found := checkExpr_points formed offset offsetPlaced
      simp only [checkExpr]
      split
      · rename_i failed
        exact ⟨⟨placed, offsetPlaced⟩, .error (formed.variableAt _ placed _ failed)⟩
      · split
        · rename_i failed
          rw [failed] at found
          exact ⟨⟨placed, found.tree⟩, found.faults⟩
        · rename_i passed
          rw [passed] at found
          split
          · rename_i failed
            refine ⟨⟨placed, found.tree⟩, .error ?_⟩
            exact Faults.bind (.expect _ _ found.tree.start) (fun _ => .elementAt _ placed) _ failed
          · exact ⟨⟨placed, found.tree⟩, .ok _⟩
  | call span ty name binding arguments =>
      rcases placed with ⟨placed, argumentsPlaced⟩
      have found := checkExprs_points formed arguments argumentsPlaced
      simp only [checkExpr]
      split
      · rename_i failed
        rw [failed] at found
        exact ⟨⟨placed, found.tree⟩, found.faults.passOn⟩
      · rename_i types passed
        rw [passed] at found
        split
        · rename_i failed
          exact ⟨⟨placed, found.tree⟩, .error (formed.functionAt _ _ placed _ failed)⟩
        · split
          · rename_i failed
            refine ⟨⟨placed, found.tree⟩, .error ?_⟩
            exact Faults.expectArguments _ _ (places_of_zip found.tree types) _ failed
          · exact ⟨⟨placed, found.tree⟩, .ok _⟩
  | list span ty elements =>
      have found := checkExprs_points formed elements placed.2
      simp only [checkExpr]
      split
      · rename_i failed
        rw [failed] at found
        exact ⟨⟨placed.1, found.tree⟩, found.faults.passOn⟩
      · rename_i passed
        rw [passed] at found
        exact ⟨⟨placed.1, found.tree⟩, .ok _⟩

theorem checkExprs_points (formed : checker.WellFormed) (exprs : List Expr)
    (placed : Expr.AllPlaced places exprs) :
    Points places (Expr.AllPlaced places) (checker.checkExprs exprs) := by
  cases exprs with
  | nil =>
      simp only [checkExprs]
      exact ⟨trivial, .ok _⟩
  | cons expr others =>
      rcases placed with ⟨placed, othersPlaced⟩
      have first := checkExpr_points formed expr placed
      have rest := checkExprs_points formed others othersPlaced
      simp only [checkExprs]
      split
      · rename_i failed
        rw [failed] at first
        exact ⟨⟨first.tree, othersPlaced⟩, first.faults.passOn⟩
      · rename_i passed
        rw [passed] at first
        split
        · rename_i failed
          rw [failed] at rest
          exact ⟨⟨first.tree, rest.tree⟩, rest.faults⟩
        · rename_i restPassed
          rw [restPassed] at rest
          exact ⟨⟨first.tree, rest.tree⟩, .ok _⟩

end

theorem checkAgainst_points (formed : checker.WellFormed) (target : Ty) {expr : Expr}
    (placed : expr.Placed places) :
    Points places (Expr.Placed places) (checker.checkAgainst target expr) := by
  have found := checkExpr_points formed expr placed
  unfold checkAgainst
  split
  · rename_i failed
    rw [failed] at found
    exact ⟨found.tree, found.faults.passOn⟩
  · rename_i passed
    rw [passed] at found
    exact ⟨found.tree, .expect _ _ found.tree.start⟩

/-! ## Statements -/

theorem WellFormed.follows {after : Checker} (formed : checker.WellFormed)
    (follows : checker.Follows after) : after.WellFormed := by
  refine ⟨formed.ordered.sameBut follows.arena, ?_⟩
  rw [follows.current, follows.arena.depth]
  exact formed.inside

theorem WellFormed.enter (formed : checker.WellFormed) : checker.enter.1.WellFormed := by
  refine ⟨formed.ordered.push formed.inside, ?_⟩
  change checker.arena.depth < (checker.arena.push checker.current).1.depth
  rw [Arena.depth_push]
  exact Nat.lt_succ_self _

/-- Whether a check came back to the scope in which it was made, with a tree as stated, and what it
found wrong is wrong at a place. -/
structure Settles {τ : Type} (places : Position → Prop) (good : τ → Prop) (checker : Checker)
    (step : Step τ) : Prop where
  follows : checker.Follows step.1
  points : Points places good step.2

variable {τ : Type} {good : τ → Prop}

theorem Settles.still {checked : Checked τ Unit} (points : Points places good checked) :
    checker.Settles places good (checker, checked) :=
  ⟨.refl checker, points⟩

/-- A check in a scope of its own leaves nothing behind. -/
theorem inScope_points (check : Checker → Step τ) (formed : checker.WellFormed)
    (settles : checker.enter.1.Settles places good (check checker.enter.1)) :
    ∃ tree outcome, checker.inScope check = (checker, tree, outcome) ∧ good tree ∧
      Faults places outcome := by
  unfold Checker.inScope
  rcases ran : check checker.enter.1 with ⟨inner, tree, outcome⟩
  rw [ran] at settles
  have left := leave_enter (Nat.zero_lt_of_lt formed.inside) settles.follows
  exact ⟨tree, outcome, by simp only [ran, left], settles.points.tree, settles.points.faults⟩

theorem declare_faults (formed : checker.WellFormed) (binding : Variable) {position : Position}
    (placed : places position) : Faults places (checker.declare binding position) := by
  rcases Arena.exists_scope formed.inside with ⟨scope, found⟩
  rw [declare, Arena.addVariable, Arena.scope_eq_ok found]
  refine .bind ?_ fun _ => .ok _
  exact .ite (.located rfl placed) (.ok _)

theorem follows_of_declare {binding : Variable} {position : Position} {after : Checker}
    (declared : checker.declare binding position = .ok after) : checker.Follows after := by
  unfold declare at declared
  cases added : checker.arena.addVariable checker.current binding.name binding position with
  | error halt =>
      rw [added] at declared
      cases declared
  | ok arena =>
      rw [added] at declared
      cases declared
      rcases Arena.addVariable_eq_ok_iff.mp added with ⟨_, _, _, rfl⟩
      exact ⟨rfl, rfl, .put _ _ _ _⟩

theorem checkInitializer_points (formed : checker.WellFormed) (name : String)
    (declared : Option Ty) {initializer : Option Expr} {position : Position}
    (placed : places position) (initialPlaced : ∀ expr ∈ initializer, expr.Placed places) :
    Points places (fun initializer => ∀ expr ∈ initializer, expr.Placed places)
      (checker.checkInitializer name declared initializer position) := by
  unfold checkInitializer
  split
  · have found := checkAgainst_points formed ‹Ty› (initialPlaced _ rfl)
    exact ⟨by simpa using found.tree, found.faults.map _⟩
  · exact ⟨by simp, .ok _⟩
  · have found := checkExpr_points formed _ (initialPlaced _ rfl)
    exact ⟨by simpa using found.tree, found.faults⟩
  · exact ⟨by simp, .located rfl placed⟩

theorem checkDeclaration_settles (formed : checker.WellFormed) {span : Span} (name : String)
    (typeName : Option String) {initializer : Option Expr} (binding : Option Variable)
    (placed : places span.start) (initialPlaced : ∀ expr ∈ initializer, expr.Placed places) :
    checker.Settles places (Stmt.Placed places)
      (checker.checkDeclaration span name typeName initializer binding) := by
  unfold checkDeclaration
  split
  · rename_i failed
    refine .still ⟨⟨placed, initialPlaced⟩, .error ?_⟩
    cases typeName with
    | none => cases failed
    | some text => exact Faults.map (.resolve text placed) some _ failed
  · rename_i declared _
    have found := checkInitializer_points formed name declared placed initialPlaced
    split
    · rename_i failed
      rw [failed] at found
      exact .still ⟨⟨placed, found.tree⟩, found.faults.passOn⟩
    · rename_i passed
      rw [passed] at found
      simp only
      split
      · rename_i failed
        exact .still ⟨⟨placed, found.tree⟩, .error (declare_faults formed _ placed _ failed)⟩
      · rename_i declared
        exact ⟨follows_of_declare declared, ⟨placed, found.tree⟩, .ok _⟩

theorem expectMutable_faults {receiver : Expr} (placed : receiver.Placed places) :
    Faults places (expectMutable receiver) := by
  unfold expectMutable
  split
  · exact .ite (.ok _) (.located rfl placed.start)
  · exact .ite (.ok _) (.located rfl placed.start)
  · exact .ok _

theorem checkAssignment_points (formed : checker.WellFormed) {span : Span}
    {receiver value : Expr} (placed : (Stmt.assignment span receiver value).Placed places) :
    Points places (Stmt.Placed places) (checker.checkAssignment span receiver value) := by
  rcases placed with ⟨placed, receiverPlaced, valuePlaced⟩
  have found := checkExpr_points formed receiver receiverPlaced
  unfold checkAssignment
  split
  · rename_i failed
    rw [failed] at found
    exact ⟨⟨placed, found.tree, valuePlaced⟩, found.faults.passOn⟩
  · rename_i target passed
    rw [passed] at found
    split
    · rename_i failed
      exact ⟨⟨placed, found.tree, valuePlaced⟩, .error (expectMutable_faults found.tree _ failed)⟩
    · have valueFound := checkAgainst_points formed target valuePlaced
      exact ⟨⟨placed, found.tree, valueFound.tree⟩, valueFound.faults⟩

mutual

theorem checkStmt_settles {checker : Checker} (formed : checker.WellFormed) (statement : Stmt)
    (placed : statement.Placed places) :
    checker.Settles places (Stmt.Placed places) (checker.checkStmt statement) := by
  cases statement with
  | expression span expr =>
      simp only [checkStmt]
      split
      · have found := checkExpr_points formed expr placed.2
        exact .still ⟨⟨placed.1, found.tree⟩, found.faults.map _⟩
      · exact .still ⟨placed, .located rfl placed.2.start⟩
  | declaration span name typeName initializer binding =>
      simp only [checkStmt]
      exact checkDeclaration_settles formed name typeName binding placed.1 placed.2
  | assignment span receiver value =>
      simp only [checkStmt]
      exact .still (checkAssignment_points formed placed)
  | branch span condition thenBody elseBody =>
      rcases placed with ⟨placed, conditionPlaced, thenPlaced, elsePlaced⟩
      rcases inScope_points (checkStmts · thenBody) formed
        (checkStmts_settles formed.enter thenBody thenPlaced) with
        ⟨thenTree, thenOutcome, thenChecked, thenGood, thenFaults⟩
      rcases inScope_points (checkStmts · elseBody) formed
        (checkStmts_settles formed.enter elseBody elsePlaced) with
        ⟨elseTree, elseOutcome, elseChecked, elseGood, elseFaults⟩
      have found := checkAgainst_points formed .boolean conditionPlaced
      simp only [checkStmt]
      split
      · rename_i failed
        rw [failed] at found
        exact .still ⟨⟨placed, found.tree, thenPlaced, elsePlaced⟩, found.faults⟩
      · rename_i passed
        rw [passed] at found
        rw [thenChecked]
        cases thenOutcome with
        | error halt => exact .still ⟨⟨placed, found.tree, thenGood, elsePlaced⟩, thenFaults⟩
        | ok _ =>
            simp only [elseChecked]
            exact .still ⟨⟨placed, found.tree, thenGood, elseGood⟩, elseFaults⟩
  | switch span subject cases =>
      rcases placed with ⟨placed, subjectPlaced, casesPlaced⟩
      have found := checkExpr_points formed subject subjectPlaced
      simp only [checkStmt]
      split
      · rename_i failed
        rw [failed] at found
        exact .still ⟨⟨placed, found.tree, casesPlaced⟩, found.faults.passOn⟩
      · rename_i ty passed
        rw [passed] at found
        have settles := checkCases_settles formed ty cases casesPlaced
        exact ⟨settles.follows, ⟨placed, found.tree, settles.points.tree⟩, settles.points.faults⟩
  | loop span condition body =>
      rcases placed with ⟨placed, conditionPlaced, bodyPlaced⟩
      rcases inScope_points (checkStmts · body) formed
        (checkStmts_settles formed.enter body bodyPlaced) with
        ⟨tree, outcome, checked, bodyGood, bodyFaults⟩
      have found := checkAgainst_points formed .boolean conditionPlaced
      simp only [checkStmt]
      split
      · rename_i failed
        rw [failed] at found
        exact .still ⟨⟨placed, found.tree, bodyPlaced⟩, found.faults⟩
      · rename_i passed
        rw [passed] at found
        rw [checked]
        exact .still ⟨⟨placed, found.tree, bodyGood⟩, bodyFaults⟩
  | result span value =>
      have found := checkAgainst_points formed checker.returnType placed.2
      simp only [checkStmt]
      exact .still ⟨⟨placed.1, found.tree⟩, found.faults⟩

theorem checkCases_settles {checker : Checker} (formed : checker.WellFormed) (subject : Ty)
    (cases : Cases) (placed : cases.Placed places) :
    checker.Settles places (Cases.Placed places) (checker.checkCases subject cases) := by
  cases cases with
  | default span body =>
      rcases inScope_points (checkStmts · body) formed
        (checkStmts_settles formed.enter body placed.2) with
        ⟨tree, outcome, checked, bodyGood, bodyFaults⟩
      simp only [checkCases, checked]
      exact .still ⟨⟨placed.1, bodyGood⟩, bodyFaults⟩
  | case span value body others =>
      rcases placed with ⟨placed, valuePlaced, bodyPlaced, othersPlaced⟩
      rcases inScope_points (checkStmts · body) formed
        (checkStmts_settles formed.enter body bodyPlaced) with
        ⟨tree, outcome, checked, bodyGood, bodyFaults⟩
      have found := checkAgainst_points formed subject valuePlaced
      simp only [checkCases]
      split
      · rename_i failed
        rw [failed] at found
        exact .still ⟨⟨placed, found.tree, bodyPlaced, othersPlaced⟩, found.faults⟩
      · rename_i passed
        rw [passed] at found
        rw [checked]
        cases outcome with
        | error halt => exact .still ⟨⟨placed, found.tree, bodyGood, othersPlaced⟩, bodyFaults⟩
        | ok _ =>
            have settles := checkCases_settles formed subject others othersPlaced
            exact ⟨settles.follows, ⟨placed, found.tree, bodyGood, settles.points.tree⟩,
              settles.points.faults⟩

theorem checkStmts_settles {checker : Checker} (formed : checker.WellFormed)
    (statements : List Stmt) (placed : Stmt.AllPlaced places statements) :
    checker.Settles places (Stmt.AllPlaced places) (checker.checkStmts statements) := by
  cases statements with
  | nil =>
      simp only [checkStmts]
      exact .still ⟨trivial, .ok _⟩
  | cons statement others =>
      rcases placed with ⟨placed, othersPlaced⟩
      have first := checkStmt_settles formed statement placed
      simp only [checkStmts]
      split
      · rename_i failed
        rw [failed] at first
        exact ⟨first.follows, ⟨first.points.tree, othersPlaced⟩, first.points.faults⟩
      · rename_i passed
        rw [passed] at first
        have rest := checkStmts_settles (formed.follows first.follows) others othersPlaced
        exact ⟨first.follows.trans rest.follows, ⟨first.points.tree, rest.points.tree⟩,
          rest.points.faults⟩

end

theorem declareParameters_settles (formed : checker.WellFormed) {position : Position}
    (placed : places position) (parameters : List Parameter) :
    checker.Follows (declareParameters position checker parameters).1 ∧
      Faults places (declareParameters position checker parameters).2 := by
  induction parameters generalizing checker with
  | nil => exact ⟨.refl checker, .ok ()⟩
  | cons parameter parameters ih =>
      simp only [declareParameters]
      split
      · rename_i failed
        exact ⟨.refl checker, .error (declare_faults formed _ placed _ failed)⟩
      · rename_i declared
        have follows := follows_of_declare declared
        rcases ih (formed.follows follows) with ⟨later, found⟩
        exact ⟨follows.trans later, found⟩

/-! ## Functions -/

/-- What is checked of a function in the scope of its body. -/
def checkInside (inner : Checker) (function : Function) : Step Function :=
  match declareParameters function.span.start inner function.parameters with
  | (inner, .error halt) => (inner, function, .error halt)
  | (inner, .ok ()) =>
    match inner.checkStmts function.body with
    | (inner, body, outcome) => (inner, { function with body }, outcome)

/-- The type that the body of a function has to give back. -/
def expected (function : Function) : Ty := (function.binding.map Signature.result).getD .nil

theorem checkBody_eq_inScope (checker : Checker) (function : Function) :
    checker.checkBody function =
      { checker with returnType := expected function }.inScope (checkInside · function) := rfl

theorem checkInside_settles (formed : checker.WellFormed) {function : Function}
    (placed : function.Placed places) :
    checker.Settles places (Function.Placed places) (checker.checkInside function) := by
  unfold checkInside
  rcases declareParameters_settles formed placed.1 function.parameters with ⟨follows, found⟩
  split
  · rename_i failed
    rw [failed] at follows found
    exact ⟨follows, placed, found⟩
  · rename_i declared
    rw [declared] at follows
    have body := checkStmts_settles (formed.follows follows) function.body placed.2
    exact ⟨follows.trans body.follows, ⟨placed.1, body.points.tree⟩, body.points.faults⟩

/-- The check of a function states the type that its body has to give back, and otherwise leaves the
checker as it was. -/
theorem checkBody_points (formed : checker.WellFormed) {function : Function}
    (placed : function.Placed places) :
    ∃ tree outcome,
      checker.checkBody function =
        ({ checker with returnType := expected function }, tree, outcome) ∧
      tree.Placed places ∧ Faults places outcome := by
  have stated : WellFormed { checker with returnType := expected function } :=
    ⟨formed.ordered, formed.inside⟩
  rw [checkBody_eq_inScope]
  exact inScope_points (checkInside · function) stated (checkInside_settles stated.enter placed)

/-! ## Declarations of the root -/

theorem initial_formed : initial.WellFormed :=
  ⟨.ofFunctions _, Nat.zero_lt_one⟩

/-- Declaring a global changes nothing but the variables of the root. -/
theorem declareGlobal_formed {known : Option Variable} {binding : Variable} {position : Position}
    {after : Checker} (formed : checker.WellFormed)
    (declared : checker.declareGlobal known binding position = .ok after) : after.WellFormed := by
  simp only [declareGlobal, bind, Except.bind, pure, Except.pure] at declared
  split at declared
  · cases declared
  split at declared
  · cases declared
    exact formed
  split at declared
  · cases declared
  · rename_i added
    cases declared
    rcases Arena.addVariable_eq_ok_iff.mp added with ⟨_, _, _, rfl⟩
    have same : Arena.SameBut Arena.root checker.arena _ := .put _ _ binding.name binding
    refine ⟨formed.ordered.sameBut same, ?_⟩
    rw [same.depth]
    exact formed.inside

theorem declareSignature_formed {known : Option Signature} {binding : Signature} {arity : Nat}
    {position : Position} {after : Checker} (formed : checker.WellFormed)
    (declared : checker.declareSignature known binding arity position = .ok after) :
    after.WellFormed := by
  simp only [declareSignature, bind, Except.bind, pure, Except.pure] at declared
  split at declared
  · cases declared
  split at declared
  · cases declared
    exact formed
  split at declared
  · cases declared
  · rename_i added
    cases declared
    rcases Arena.addFunction_eq_ok_iff.mp added with ⟨_, _, _, rfl⟩
    refine ⟨formed.ordered.putFunction _ _ _, ?_⟩
    simp only [Arena.depth, Arena.putFunction, Array.size_modify]
    exact formed.inside

end Checker

end GradualScript
