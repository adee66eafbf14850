import GradualScript.Proofs.Scope.Reordering
import GradualScript.Proofs.Typing.Idempotence

/-!
# Checking functions in another order

A check asks an arena for names and adds names to it, so checkers whose arenas are reordered come to
the same result. The headings of functions can be declared in any order, if they can be declared in
one, and from then on all that is known is known of each function in the same way. A body leaves the
checker as it was, but for the type that a function has to give back, and that is set anew for each.
-/

namespace GradualScript

namespace Checker

variable {left right checker : Checker} {τ : Type}

/-- Whether nothing tells two checkers apart but the order in which functions were declared. -/
structure Reordered (left right : Checker) : Prop where
  arena : left.arena.Reordered right.arena
  current : right.current = left.current
  returnType : right.returnType = left.returnType

/-- Whether two steps differ in the order of declared functions only. -/
inductive Alike : Step τ → Step τ → Prop
  | intro {left right : Checker} (still : left.Reordered right) (tree : τ)
      (outcome : Except Halt Unit) : Alike (left, tree, outcome) (right, tree, outcome)

namespace Reordered

theorem enter (same : left.Reordered right) : left.enter.1.Reordered right.enter.1 := by
  refine ⟨?_, same.arena.depth_eq, same.returnType⟩
  change (left.arena.push left.current).1.Reordered (right.arena.push right.current).1
  rw [same.current]
  exact same.arena.push left.current

theorem leave (same : left.Reordered right) (id : ScopeId) :
    Arena.Agree Reordered (left.leave id) (right.leave id) := by
  simp only [Checker.leave, same.arena.parent_eq]
  cases left.arena.parent id with
  | error halt => exact .failed halt
  | ok parent => exact .done ⟨same.arena.dropFrom id, rfl, same.returnType⟩

theorem declare (same : left.Reordered right) (binding : Variable) (position : Position) :
    Arena.Agree Reordered (left.declare binding position) (right.declare binding position) := by
  have added := same.arena.addVariable left.current binding.name binding position
  simp only [Checker.declare, same.current]
  generalize left.arena.addVariable _ _ _ _ = onLeft at added ⊢
  generalize right.arena.addVariable _ _ _ _ = onRight at added ⊢
  cases added with
  | done still => exact .done ⟨still, rfl, same.returnType⟩
  | failed halt => exact .failed halt

theorem variableAt_eq (same : left.Reordered right) (name : String) (position : Position) :
    right.variableAt name position = left.variableAt name position := by
  rw [variableAt, variableAt, same.current, same.arena.findVariable_eq]

theorem functionAt_eq (same : left.Reordered right) (name : String) (arity : Nat)
    (position : Position) :
    right.functionAt name arity position = left.functionAt name arity position := by
  rw [functionAt, functionAt, same.current, same.arena.findFunction_eq]

end Reordered

/-! ## Expressions -/

mutual

theorem checkExpr_reordered (same : left.Reordered right) (expr : Expr) :
    right.checkExpr expr = left.checkExpr expr := by
  cases expr with
  | literal span ty value => simp only [checkExpr]
  | group span ty inner => simp only [checkExpr, checkExpr_reordered same inner]
  | binary span ty operator first second =>
      simp only [checkExpr, checkExpr_reordered same first, checkExpr_reordered same second]
  | access span ty name binding => simp only [checkExpr, same.variableAt_eq]
  | element span ty name binding offset =>
      simp only [checkExpr, same.variableAt_eq, checkExpr_reordered same offset]
  | call span ty name binding arguments =>
      simp only [checkExpr, same.functionAt_eq, checkExprs_reordered same arguments]
  | list span ty elements => simp only [checkExpr, checkExprs_reordered same elements]

theorem checkExprs_reordered (same : left.Reordered right) (exprs : List Expr) :
    right.checkExprs exprs = left.checkExprs exprs := by
  cases exprs with
  | nil => simp only [checkExprs]
  | cons expr others =>
      simp only [checkExprs, checkExpr_reordered same expr, checkExprs_reordered same others]

end

theorem checkAgainst_reordered (same : left.Reordered right) (target : Ty) (expr : Expr) :
    right.checkAgainst target expr = left.checkAgainst target expr := by
  simp only [checkAgainst, checkExpr_reordered same]

/-! ## Statements -/

theorem inScope_alike (same : left.Reordered right) {check other : Checker → Step τ}
    (inside : ∀ {left right : Checker}, left.Reordered right → Alike (check left) (other right)) :
    Alike (left.inScope check) (right.inScope other) := by
  have entered := inside same.enter
  have number : right.enter.2 = left.enter.2 := same.arena.depth_eq
  unfold inScope
  simp only [number]
  generalize check left.enter.1 = onLeft at entered ⊢
  generalize other right.enter.1 = onRight at entered ⊢
  cases entered with
  | @intro inner twin still tree outcome =>
      have leaves := still.leave left.enter.2
      simp only
      generalize inner.leave left.enter.2 = outer at leaves ⊢
      generalize twin.leave left.enter.2 = twinOuter at leaves ⊢
      cases leaves with
      | done after => exact .intro after tree outcome
      | failed halt => exact .intro still tree (.error halt)

theorem checkDeclaration_alike (same : left.Reordered right) (span : Span) (name : String)
    (typeName : Option String) (initializer : Option Expr) (binding : Option Variable) :
    Alike (left.checkDeclaration span name typeName initializer binding)
      (right.checkDeclaration span name typeName initializer binding) := by
  have initial (declared : Option Ty) :
      right.checkInitializer name declared initializer span.start =
        left.checkInitializer name declared initializer span.start := by
    rcases declared with _ | declared <;> rcases initializer with _ | initializer <;>
      simp only [checkInitializer, checkAgainst_reordered same, checkExpr_reordered same]
  simp only [checkDeclaration, initial]
  cases typeName.mapM (resolve · span.start) with
  | error halt => exact .intro same _ _
  | ok declared =>
      simp only
      rcases left.checkInitializer name declared initializer span.start with
        ⟨initializer, halt | ty⟩
      · exact .intro same _ _
      · have declares := same.declare ⟨name, ty, true⟩ span.start
        simp only
        generalize left.declare ⟨name, ty, true⟩ span.start = onLeft at declares ⊢
        generalize right.declare ⟨name, ty, true⟩ span.start = onRight at declares ⊢
        cases declares with
        | done still => exact .intro still _ _
        | failed halt => exact .intro same _ _

/-- A step whose tree is put into a larger one. -/
theorem Alike.map {σ : Type} {onLeft onRight : Step τ} (alike : Alike onLeft onRight)
    (change : τ → σ) :
    Alike (onLeft.1, change onLeft.2.1, onLeft.2.2)
      (onRight.1, change onRight.2.1, onRight.2.2) := by
  cases alike with
  | intro still tree outcome => exact .intro still (change tree) outcome

mutual

theorem checkStmt_alike {left right : Checker} (same : left.Reordered right) (statement : Stmt) :
    Alike (left.checkStmt statement) (right.checkStmt statement) := by
  cases statement with
  | expression span expr =>
      simp only [checkStmt, checkExpr_reordered same]
      split <;> exact .intro same _ _
  | declaration span name typeName initializer binding =>
      simp only [checkStmt]
      exact checkDeclaration_alike same span name typeName initializer binding
  | assignment span receiver value =>
      simp only [checkStmt, checkAssignment, checkExpr_reordered same, checkAgainst_reordered same]
      exact .intro same _ _
  | branch span condition thenBody elseBody =>
      simp only [checkStmt, checkAgainst_reordered same]
      rcases left.checkAgainst .boolean condition with ⟨condition, halt | _⟩
      · exact .intro same _ _
      · have first := inScope_alike same (checkStmts_alike · thenBody)
        simp only
        generalize left.inScope (checkStmts · thenBody) = onLeft at first ⊢
        generalize right.inScope (checkStmts · thenBody) = onRight at first ⊢
        cases first with
        | intro still thenBody outcome =>
            rcases outcome with halt | _
            · exact .intro still _ _
            · exact (inScope_alike still (checkStmts_alike · elseBody)).map _
  | switch span subject cases =>
      simp only [checkStmt, checkExpr_reordered same]
      rcases left.checkExpr subject with ⟨subject, halt | ty⟩
      · exact .intro same _ _
      · exact (checkCases_alike same ty cases).map _
  | loop span condition body =>
      simp only [checkStmt, checkAgainst_reordered same]
      rcases left.checkAgainst .boolean condition with ⟨condition, halt | _⟩
      · exact .intro same _ _
      · exact (inScope_alike same (checkStmts_alike · body)).map _
  | result span value =>
      simp only [checkStmt, same.returnType, checkAgainst_reordered same]
      exact .intro same _ _

theorem checkCases_alike {left right : Checker} (same : left.Reordered right) (subject : Ty)
    (cases : Cases) : Alike (left.checkCases subject cases) (right.checkCases subject cases) := by
  cases cases with
  | default span body =>
      simp only [checkCases]
      exact (inScope_alike same (checkStmts_alike · body)).map _
  | case span value body others =>
      simp only [checkCases, checkAgainst_reordered same]
      rcases left.checkAgainst subject value with ⟨value, halt | _⟩
      · exact .intro same _ _
      · have first := inScope_alike same (checkStmts_alike · body)
        simp only
        generalize left.inScope (checkStmts · body) = onLeft at first ⊢
        generalize right.inScope (checkStmts · body) = onRight at first ⊢
        cases first with
        | intro still body outcome =>
            rcases outcome with halt | _
            · exact .intro still _ _
            · exact (checkCases_alike still subject others).map _

theorem checkStmts_alike {left right : Checker} (same : left.Reordered right)
    (statements : List Stmt) :
    Alike (left.checkStmts statements) (right.checkStmts statements) := by
  cases statements with
  | nil =>
      simp only [checkStmts]
      exact .intro same _ _
  | cons statement others =>
      have first := checkStmt_alike same statement
      simp only [checkStmts]
      generalize left.checkStmt statement = onLeft at first ⊢
      generalize right.checkStmt statement = onRight at first ⊢
      cases first with
      | intro still statement outcome =>
          rcases outcome with halt | _
          · exact .intro still _ _
          · exact (checkStmts_alike still others).map _

end

/-! ## Bodies -/

theorem declareParameters_alike (same : left.Reordered right) (position : Position)
    (parameters : List Parameter) :
    (declareParameters position left parameters).1.Reordered
        (declareParameters position right parameters).1 ∧
      (declareParameters position right parameters).2 =
        (declareParameters position left parameters).2 := by
  induction parameters generalizing left right with
  | nil => exact ⟨same, rfl⟩
  | cons parameter others ih =>
      have declares := same.declare ⟨parameter.name, .any, true⟩ position
      simp only [declareParameters]
      generalize left.declare ⟨parameter.name, .any, true⟩ position = onLeft at declares ⊢
      generalize right.declare ⟨parameter.name, .any, true⟩ position = onRight at declares ⊢
      cases declares with
      | done still => exact ih still
      | failed halt => exact ⟨same, rfl⟩

theorem checkInside_alike (same : left.Reordered right) (function : Function) :
    Alike (left.checkInside function) (right.checkInside function) := by
  rcases declareParameters_alike same function.span.start function.parameters with
    ⟨still, outcome_eq⟩
  unfold checkInside
  rcases onLeft : declareParameters function.span.start left function.parameters with
    ⟨inner, outcome⟩
  rcases onRight : declareParameters function.span.start right function.parameters with
    ⟨twin, twinOutcome⟩
  rw [onLeft, onRight] at still outcome_eq
  cases outcome_eq
  rcases outcome with halt | _
  · exact .intro still _ _
  · exact (checkStmts_alike still function.body).map fun body => { function with body }

theorem checkBody_alike (same : left.Reordered right) (function : Function) :
    Alike (left.checkBody function) (right.checkBody function) := by
  rw [checkBody_eq_inScope, checkBody_eq_inScope]
  have stated : Reordered { left with returnType := expected function }
      { right with returnType := expected function } :=
    ⟨same.arena, same.current, rfl⟩
  exact inScope_alike stated (checkInside_alike · function)

/-- What checking makes of a function whose heading is declared. -/
def bodyChecked (checker : Checker) (function : Function) : Function :=
  (checker.checkBody function).2.1

theorem bodyChecked_reordered (same : left.Reordered right) (function : Function) :
    right.bodyChecked function = left.bodyChecked function ∧
      (right.checkBody function).2.2 = (left.checkBody function).2.2 := by
  have alike := checkBody_alike same function
  unfold bodyChecked
  generalize left.checkBody function = onLeft at alike ⊢
  generalize right.checkBody function = onRight at alike ⊢
  cases alike with
  | intro => exact ⟨rfl, rfl⟩

/-- Bodies are checked each for itself. -/
theorem checkBodies_ok_iff (formed : checker.WellFormed) {functions results : List Function} :
    (∃ after, checkEach checkBody checker functions = (after, results, .ok ())) ↔
      results = functions.map checker.bodyChecked ∧
        ∀ function ∈ functions, (checker.checkBody function).2.2 = .ok () := by
  induction functions generalizing checker results with
  | nil => simp [checkEach, eq_comm]
  | cons function others ih =>
      rcases checkBody_points formed function.placed_anywhere with ⟨tree, outcome, checked, _⟩
      -- All that a body leaves behind is the result it expected, which the next one replaces.
      let next : Checker := { checker with returnType := expected function }
      have nextFormed : next.WellFormed := ⟨formed.ordered, formed.inside⟩
      have sameBody (other : Function) : next.checkBody other = checker.checkBody other :=
        checkBody_returnType checker _ other
      have sameTree : next.bodyChecked = checker.bodyChecked := by
        funext other
        rw [bodyChecked, sameBody, bodyChecked]
      have rest (results : List Function) :
          (∃ after, checkEach checkBody next others = (after, results, .ok ())) ↔
            results = others.map checker.bodyChecked ∧
              ∀ function ∈ others, (checker.checkBody function).2.2 = .ok () := by
        rw [ih nextFormed, sameTree]
        simp only [sameBody]
      have tree_eq : checker.bodyChecked function = tree := by rw [bodyChecked, checked]
      rw [List.map_cons, List.forall_mem_cons, tree_eq]
      constructor
      · rintro ⟨after, passed⟩
        rcases checkEach_cons_ok passed with ⟨middle, result, others, rfl, first, further⟩
        rw [checked] at first
        cases first
        rcases (rest others).mp ⟨after, further⟩ with ⟨rfl, each⟩
        exact ⟨rfl, by rw [checked], each⟩
      · rintro ⟨rfl, first, each⟩
        rw [checked] at first
        cases first
        rcases (rest _).mpr ⟨rfl, each⟩ with ⟨after, further⟩
        refine ⟨after, ?_⟩
        simp only [next] at further
        simp only [checkEach, checked, further]

/-! ## Headings -/

/-- A function with the signature that its heading states. -/
def headed (function : Function) : Function :=
  { function with binding := (signatureOf function).toOption }

/-- What the heading of a function adds to a table of functions. -/
def entry? (function : Function) : Option ((String × Nat) × Signature) :=
  function.binding.map ((function.name, function.arity), ·)

/-- A function that is not known yet is declared where there is none of its name and arity. -/
theorem declareSignature_eq_ok_iff (formed : checker.WellFormed) {binding : Signature} {arity : Nat}
    {position : Position} {after : Checker} :
    checker.declareSignature none binding arity position = .ok after ↔
      checker.arena.Lacks (binding.name, arity) ∧
        after = { checker with
          arena := checker.arena.putFunction Arena.root (binding.name, arity) binding } := by
  have inside : Arena.root < checker.arena.depth := Nat.zero_lt_of_lt formed.inside
  rcases formed.ordered.search (·.functionTable.find? (binding.name, arity)) inside with
    ⟨place, searched⟩
  unfold declareSignature
  rw [Arena.findFunction_of_search searched]
  simp only [bind, Except.bind, Option.isSome_none, Bool.false_and, Bool.false_eq_true, if_false]
  cases added : checker.arena.addFunction Arena.root binding.name arity binding position with
  | error halt =>
      constructor
      · intro impossible
        cases impossible
      · rintro ⟨lacks, _⟩
        rw [Arena.addFunction_root_eq_ok_iff.mpr ⟨lacks, rfl⟩] at added
        cases added
  | ok arena =>
      rcases Arena.addFunction_root_eq_ok_iff.mp added with ⟨lacks, rfl⟩
      constructor
      · intro declared
        cases declared
        exact ⟨lacks, rfl⟩
      · rintro ⟨_, rfl⟩
        rfl

theorem headed_eq {function : Function} {signature : Signature}
    (stated : signatureOf function = .ok signature) :
    headed function = { function with binding := some signature } := by
  rw [headed, stated]
  rfl

theorem checkHeading_eq_ok_iff (formed : checker.WellFormed) {function result : Function}
    {after : Checker} (unbound : function.binding = none) :
    checker.checkHeading function = (after, result, .ok ()) ↔
      ∃ signature, signatureOf function = .ok signature ∧ result = headed function ∧
        checker.arena.Lacks (function.name, function.arity) ∧
          after = { checker with
            arena := checker.arena.putFunction Arena.root (function.name, function.arity)
              signature } := by
  have named {signature : Signature} (stated : signatureOf function = .ok signature) :
      signature.name = function.name := by
    rw [(signatureOf_ok stated).1]
  constructor
  · intro checked
    rcases checkHeading_cases checker function with
      ⟨halt, failed⟩ | ⟨signature, next, stated, declared, passed⟩
    · rw [failed] at checked
      cases checked
    · rw [passed] at checked
      cases checked
      rw [unbound, declareSignature_eq_ok_iff formed, named stated] at declared
      exact ⟨signature, stated, (headed_eq stated).symm, declared⟩
  · rintro ⟨signature, stated, rfl, lacks, rfl⟩
    rw [← named stated] at lacks ⊢
    have declared (position : Position) :
        checker.declareSignature none signature function.arity position = _ :=
      (declareSignature_eq_ok_iff formed).mpr ⟨lacks, rfl⟩
    simp only [checkHeading, stated, unbound, declared, headed_eq stated]

/-- Headings are declared one after the other, where there is nothing of their name and arity. -/
theorem checkHeadings_ok_iff (formed : checker.WellFormed) {functions results : List Function}
    (unbound : ∀ function ∈ functions, function.binding = none) {after : Checker} :
    checkEach checkHeading checker functions = (after, results, .ok ()) ↔
      results = functions.map headed ∧
        (∀ function ∈ functions, ∃ signature, signatureOf function = .ok signature) ∧
        ∃ arena, checker.arena.AddsFunctions ((functions.map headed).filterMap entry?) arena ∧
          after = { checker with arena } := by
  induction functions generalizing checker results with
  | nil =>
      constructor
      · intro checked
        cases checked
        exact ⟨rfl, by simp, _, .nil, rfl⟩
      · rintro ⟨rfl, _, arena, adds, rfl⟩
        cases adds
        rfl
  | cons function others ih =>
      rcases List.forall_mem_cons.mp unbound with ⟨functionUnbound, othersUnbound⟩
      have entries {signature : Signature} (stated : signatureOf function = .ok signature) :
          ((function :: others).map headed).filterMap entry? =
            ((function.name, function.arity), signature) ::
              (others.map headed).filterMap entry? := by
        rw [List.map_cons, headed_eq stated]
        rfl
      have nextFormed (signature : Signature) : WellFormed { checker with
          arena := checker.arena.putFunction Arena.root (function.name, function.arity)
            signature } :=
        ⟨formed.ordered.putFunction _ _ _,
          Nat.lt_of_lt_of_eq formed.inside (Arena.depth_putFunction ..).symm⟩
      constructor
      · intro checked
        rcases checkEach_cons_ok checked with ⟨middle, result, rest, rfl, first, further⟩
        rcases (checkHeading_eq_ok_iff formed functionUnbound).mp first with
          ⟨signature, stated, rfl, lacks, rfl⟩
        rcases (ih (nextFormed signature) othersUnbound).mp further with
          ⟨rfl, othersStated, arena, adds, rfl⟩
        refine ⟨rfl, List.forall_mem_cons.mpr ⟨⟨signature, stated⟩, othersStated⟩, arena, ?_, rfl⟩
        rw [entries stated]
        exact .cons lacks adds
      · rintro ⟨rfl, allStated, arena, adds, rfl⟩
        rcases List.forall_mem_cons.mp allStated with ⟨⟨signature, stated⟩, othersStated⟩
        rw [entries stated] at adds
        cases adds with
        | cons lacks rest =>
            have first := (checkHeading_eq_ok_iff formed functionUnbound).mpr
              ⟨signature, stated, rfl, lacks, rfl⟩
            have further := (ih (nextFormed signature) othersUnbound).mpr
              ⟨rfl, othersStated, arena, rest, rfl⟩
            simp only [checkEach, first, further, List.map_cons]

/-! ## Programs -/

theorem expectMain_eq_ok_iff {functions : List Function} :
    checker.expectMain functions = .ok () ↔
      ∃ signature, checker.arena.findFunction Arena.root mainName 0 = .ok (some signature) ∧
        signature.result = .integer := by
  unfold expectMain
  rcases checker.arena.findFunction Arena.root mainName 0 with halt | _ | signature
  · simp [bind, Except.bind]
  · simp [bind, Except.bind]
  · by_cases whole : signature.result = .integer <;>
      simp [bind, Except.bind, whole, pure, Except.pure]

/-- Whether the functions of a program pass, after its globals, and what is then known. -/
structure AcceptsFunctions (first : Checker) (functions : List Function) (second : Checker) :
    Prop where
  stated : ∀ function ∈ functions, ∃ signature, signatureOf function = .ok signature
  declared : ∃ arena, first.arena.AddsFunctions ((functions.map headed).filterMap entry?) arena ∧
    second = { first with arena }
  bodies : ∀ function ∈ functions, (second.checkBody (headed function)).2.2 = .ok ()
  main : ∃ signature, second.arena.findFunction Arena.root mainName 0 = .ok (some signature) ∧
    signature.result = .integer

theorem AcceptsFunctions.perm {first second : Checker} {functions others : List Function}
    (accepts : AcceptsFunctions first functions second) (reordered : functions.Perm others) :
    ∃ last, AcceptsFunctions first others last ∧ second.Reordered last := by
  rcases accepts.declared with ⟨arena, adds, second_eq⟩
  rcases adds.perm ((reordered.map headed).filterMap entry?) (.refl first.arena) with
    ⟨otherArena, otherAdds, still⟩
  have same : second.Reordered { first with arena := otherArena } := by
    rw [second_eq]
    exact ⟨still, rfl, rfl⟩
  refine ⟨_, ⟨?_, ⟨otherArena, otherAdds, rfl⟩, ?_, ?_⟩, same⟩
  · intro function member
    exact accepts.stated function (reordered.mem_iff.mpr member)
  · intro function member
    rw [(bodyChecked_reordered same _).2]
    exact accepts.bodies function (reordered.mem_iff.mpr member)
  · rw [same.arena.findFunction_eq]
    exact accepts.main

/-- The two rounds over the functions, and the look for `main`. -/
theorem rounds_ok_iff {first : Checker} (top : first.AtTop) {functions results : List Function}
    (unbound : ∀ function ∈ functions, function.binding = none) :
    (∃ second headings third, checkEach checkHeading first functions = (second, headings, .ok ()) ∧
      checkEach checkBody second headings = (third, results, .ok ()) ∧
        third.expectMain results = .ok ()) ↔
      ∃ second, AcceptsFunctions first functions second ∧
        results = functions.map fun function => second.bodyChecked (headed function) := by
  have formed {second : Checker} {headings : List Function}
      (passed : checkEach checkHeading first functions = (second, headings, .ok ())) :
      second.WellFormed := by
    have knows := checkEach_knows
      (fun function member => checkHeading_declaring (unbound function member)) top
    rw [passed] at knows
    exact knows.2.formed
  have unchanged {second third : Checker} {headings : List Function} (formed : second.WellFormed)
      (passed : checkEach checkBody second headings = (third, results, .ok ())) :
      third.arena = second.arena := by
    rcases checkBodies_eq formed headings with ⟨_, third_eq⟩
    rw [passed] at third_eq
    have arena_eq := congrArg Checker.arena third_eq
    exact arena_eq
  constructor
  · rintro ⟨second, headings, third, headed, checked, main⟩
    have secondFormed := formed headed
    rw [expectMain_eq_ok_iff, unchanged secondFormed checked] at main
    rcases (checkHeadings_ok_iff top.formed unbound).mp headed with ⟨rfl, stated, declared⟩
    rcases (checkBodies_ok_iff secondFormed).mp ⟨third, checked⟩ with ⟨rfl, each⟩
    refine ⟨second, ⟨stated, declared, ?_, main⟩, List.map_map⟩
    intro function member
    exact each _ (List.mem_map_of_mem member)
  · rintro ⟨second, accepts, rfl⟩
    have headed := (checkHeadings_ok_iff top.formed unbound).mpr
      ⟨rfl, accepts.stated, accepts.declared⟩
    have secondFormed := formed headed
    rcases (checkBodies_ok_iff secondFormed).mpr
      ⟨List.map_map.symm, List.forall_mem_map.mpr accepts.bodies⟩ with ⟨third, checked⟩
    refine ⟨second, _, third, headed, checked, ?_⟩
    rw [expectMain_eq_ok_iff, unchanged secondFormed checked]
    exact accepts.main

end Checker

namespace Program

open Checker

variable {program : Program} {functions : List Function}

theorem Unchecked.perm (unchecked : program.Unchecked)
    (reordered : program.functions.Perm functions) :
    (⟨program.globals, functions⟩ : Program).Unchecked :=
  ⟨unchecked.globals,
    fun function member => unchecked.functions function (reordered.mem_iff.mpr member),
    fun function member => unchecked.bodies function (reordered.mem_iff.mpr member)⟩

theorem check_eq_ok_iff (unchecked : program.Unchecked) {checked : Program} :
    program.check = (checked, .ok ()) ↔
      ∃ first globals second, checkEach checkGlobal initial program.globals =
          (first, globals, .ok ()) ∧ AcceptsFunctions first program.functions second ∧
        checked = ⟨globals, program.functions.map fun function =>
          second.bodyChecked (headed function)⟩ := by
  have atTop {first : Checker} {globals : List Global}
      (passed : checkEach checkGlobal initial program.globals = (first, globals, .ok ())) :
      first.AtTop := by
    have knows := checkEach_knows
      (fun global member => checkGlobal_declaring (unchecked.globals global member)) initial_atTop
    rw [passed] at knows
    exact knows.2
  constructor
  · intro accepted
    unfold check checkProgram at accepted
    rcases globalsChecked : checkEach checkGlobal initial program.globals with
      ⟨first, globals, halt | _⟩
    · rw [globalsChecked] at accepted
      cases accepted
    simp only [globalsChecked] at accepted
    rcases headingsChecked : checkEach checkHeading first program.functions with
      ⟨second, headings, halt | _⟩
    · rw [headingsChecked] at accepted
      cases accepted
    simp only [headingsChecked] at accepted
    rcases bodiesChecked : checkEach checkBody second headings with ⟨third, results, halt | _⟩
    · rw [bodiesChecked] at accepted
      cases accepted
    simp only [bodiesChecked, Prod.mk.injEq] at accepted
    rcases accepted with ⟨rfl, main⟩
    rcases (rounds_ok_iff (atTop globalsChecked) unchecked.functions).mp
      ⟨second, headings, third, headingsChecked, bodiesChecked, main⟩ with ⟨last, accepts, rfl⟩
    exact ⟨first, globals, last, rfl, accepts, rfl⟩
  · rintro ⟨first, globals, last, globalsChecked, accepts, rfl⟩
    rcases (rounds_ok_iff (atTop globalsChecked) unchecked.functions).mpr ⟨last, accepts, rfl⟩ with
      ⟨second, headings, third, headingsChecked, bodiesChecked, main⟩
    simp only [check, checkProgram, globalsChecked, headingsChecked, bodiesChecked, main]

/-- A program with its functions in another order is accepted as well, and each function is
annotated in the same way. -/
theorem check_perm (unchecked : program.Unchecked) (reordered : program.functions.Perm functions)
    {checked : Program} (accepted : program.check = (checked, .ok ())) :
    ∃ annotate : Function → Function, checked.functions = program.functions.map annotate ∧
      (⟨program.globals, functions⟩ : Program).check =
        (⟨checked.globals, functions.map annotate⟩, .ok ()) := by
  rcases (check_eq_ok_iff unchecked).mp accepted with
    ⟨first, globals, second, globalsChecked, accepts, rfl⟩
  rcases accepts.perm reordered with ⟨last, otherAccepts, same⟩
  refine ⟨_, rfl, (check_eq_ok_iff (unchecked.perm reordered)).mpr ?_⟩
  refine ⟨first, globals, last, globalsChecked, otherAccepts, ?_⟩
  simp only [(bodyChecked_reordered same _).1]

end Program

end GradualScript
