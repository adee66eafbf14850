import GradualScript.Proofs.Typing.Checked

/-!
# Accepted programs are well typed

A program is checked in three rounds: its globals, the headings of its functions, their bodies. Each
round takes what the one before has declared, and what comes out in the end obeys the rules of
`Program.WellTyped`. This is so for a program as it is read, in which no name has been declared yet;
of a program that says itself what it declares, the checker believes it.
-/

namespace GradualScript

namespace Checker

variable {checker : Checker} {context : Context}

theorem Sees.initial (permits : Operator → Ty → Prop) :
    initial.Sees ⟨nativeSignatures, .empty, [], permits⟩ :=
  ⟨.ofFunctions _, .ofFunctions _⟩

/-- A round passes when the first thing passes, and then the others. -/
theorem checkEach_cons_ok {τ : Type} {check : Checker → τ → Step τ} {after : Checker} {tree : τ}
    {others results : List τ}
    (checked : checkEach check checker (tree :: others) = (after, results, .ok ())) :
    ∃ middle result rest, results = result :: rest ∧ check checker tree = (middle, result, .ok ()) ∧
      checkEach check middle others = (after, rest, .ok ()) := by
  rw [checkEach] at checked
  rcases treeChecked : check checker tree with ⟨middle, result, halt | _⟩
  · rw [treeChecked] at checked
    cases checked
  simp only [treeChecked] at checked
  rcases othersChecked : checkEach check middle others with ⟨last, rest, outcome⟩
  simp only [othersChecked, Prod.mk.injEq] at checked
  rcases checked with ⟨rfl, rfl, rfl⟩
  exact ⟨middle, result, rest, rfl, rfl, othersChecked⟩

/-! ## Globals -/

theorem allows_of_expectElements {target : Ty} {elements : List Expr} {types : List Ty}
    (enough : elements.length = types.length)
    (expected : expectElements target elements types = .ok ()) :
    ∀ ty ∈ types, target.allows ty = true := by
  induction types generalizing elements with
  | nil => simp
  | cons first types ih =>
      rcases elements with _ | ⟨element, elements⟩
      · cases enough
      simp only [expectElements, List.zip_cons_cons, List.forM] at expected
      cases head : target.expect first element.start with
      | error halt => rw [head] at expected; cases expected
      | ok _ =>
          rw [head] at expected
          intro ty member
          rcases List.mem_cons.mp member with rfl | later
          · exact Ty.allows_of_expect head
          · exact ih (Nat.succ.inj enough) expected ty later

theorem checkGlobalValue_initializes (sees : checker.Sees context) {declared ty : Ty}
    {initializer result : Option Expr}
    (permitted : context.PermitsAll (Expr.operationsIn result))
    (checked : checker.checkGlobalValue declared initializer = (result, .ok ty)) :
    context.InitializesGlobal declared result ty := by
  unfold checkGlobalValue at checked
  split at checked
  · cases checked
    exact .missing
  · rename_i span label elements
    rcases elementsChecked : checker.checkExprs elements with ⟨elements, halt | types⟩
    · rw [elementsChecked] at checked
      cases checked
    simp only [elementsChecked] at checked
    cases expected : expectElements declared elements types with
    | error halt => rw [expected] at checked; cases checked
    | ok _ =>
        rw [expected] at checked
        cases checked
        have typed := checkExprs_types sees _ permitted elementsChecked
        exact .list typed (allows_of_expectElements typed.length_eq expected)
  · rename_i expr notList
    have stillNotList := checker.checkExpr_ne_list notList
    rcases exprChecked : checker.checkAgainst declared expr with ⟨result, halt | _⟩
    · rw [exprChecked] at checked
      cases checked
    rw [exprChecked] at checked
    cases checked
    rcases checkAgainst_types sees permitted exprChecked with ⟨found, typed, allowed⟩
    refine .given ?_ typed allowed
    intro span label elements same
    apply stillNotList span label elements
    rw [← same]
    unfold checkAgainst at exprChecked
    split at exprChecked
    · cases exprChecked
    · rename_i inner
      rw [inner]
      exact congrArg Prod.fst exprChecked

theorem declareGlobal_ok {binding : Variable} {position : Position} {after : Checker}
    (sees : checker.Sees context) (atRoot : checker.current = Arena.root)
    (top : context.locals = [])
    (declared : checker.declareGlobal none binding position = .ok after) :
    context.globals.find? binding.name = none ∧
      after.Sees { context with globals := context.globals.insert binding.name binding } ∧
      after.current = Arena.root := by
  have shows := sees.shows
  rw [Context.tables, top, List.nil_append, atRoot] at shows
  unfold declareGlobal at declared
  rw [shows.findVariable] at declared
  cases added : checker.arena.addVariable Arena.root binding.name binding position with
  | error halt => simp [added, bind, Except.bind] at declared
  | ok arena =>
      simp only [added, bind, Except.bind, pure, Except.pure, Option.isSome_none, Bool.false_and,
        Bool.false_eq_true, if_false, Except.ok.injEq] at declared
      rcases Arena.addVariable_eq_ok_iff.mp added with ⟨scope, found, fresh, rfl⟩
      rcases shows.table with ⟨shown, shownFound, table_eq⟩
      rw [found] at shownFound
      cases shownFound
      subst declared
      refine ⟨table_eq ▸ fresh, ⟨?_, sees.declares.put _ _ _⟩, atRoot⟩
      simp only [Context.tables, top, List.nil_append, atRoot]
      exact shows.put _ _

/-- What one global adds to a context. -/
theorem checkGlobal_declares {global result : Global} {after : Checker}
    (sees : checker.Sees context) (atRoot : checker.current = Arena.root)
    (top : context.locals = []) (unbound : global.binding = none)
    (permitted : context.PermitsAll (Expr.operationsIn result.initializer))
    (checked : checkGlobal checker global = (after, result, .ok ())) :
    ∃ declared ty, Ty.ofName? result.typeName = some declared ∧
      context.InitializesGlobal declared result.initializer ty ∧
      context.globals.find? result.name = none ∧
      result.binding = some ⟨result.name, ty, result.isMutable⟩ ∧
      after.Sees
        { context with
          globals := context.globals.insert result.name ⟨result.name, ty, result.isMutable⟩ } ∧
      after.current = Arena.root := by
  unfold checkGlobal at checked
  cases named : resolve global.typeName global.span.start with
  | error halt => rw [named] at checked; cases checked
  | ok declared =>
      simp only [named, unbound] at checked
      rcases valueChecked : checker.checkGlobalValue declared global.initializer with
        ⟨initializer, halt | ty⟩
      · rw [valueChecked] at checked
        cases checked
      simp only [valueChecked] at checked
      cases declaring : checker.declareGlobal none ⟨global.name, ty, global.isMutable⟩
        global.span.start with
      | error halt => rw [declaring] at checked; cases checked
      | ok next =>
          rw [declaring] at checked
          cases checked
          have initial := checkGlobalValue_initializes sees permitted valueChecked
          rcases declareGlobal_ok sees atRoot top declaring with ⟨fresh, nextSees, nextRoot⟩
          exact ⟨declared, ty, resolve_ok named, initial, fresh, rfl, nextSees, nextRoot⟩

theorem checkGlobals_declares (globals : List Global) {checker : Checker} {context : Context}
    {after : Checker} {results : List Global} (sees : checker.Sees context)
    (atRoot : checker.current = Arena.root) (top : context.locals = [])
    (unbound : ∀ global ∈ globals, global.binding = none)
    (permitted : context.PermitsAll (results.flatMap (Expr.operationsIn ·.initializer)))
    (checked : checkEach checkGlobal checker globals = (after, results, .ok ())) :
    ∃ table, Context.DeclaresGlobals context results { context with globals := table } ∧
      after.Sees { context with globals := table } ∧ after.current = Arena.root := by
  induction globals generalizing checker context results with
  | nil =>
      cases checked
      exact ⟨context.globals, .nil, sees, atRoot⟩
  | cons global others ih =>
      rcases checkEach_cons_ok checked with
        ⟨middle, result, otherResults, rfl, globalChecked, othersChecked⟩
      rcases List.forall_mem_cons.mp unbound with ⟨globalUnbound, othersUnbound⟩
      rw [List.flatMap_cons] at permitted
      rcases checkGlobal_declares sees atRoot top globalUnbound permitted.left globalChecked with
        ⟨declared, ty, named, initial, fresh, bound, middleSees, middleRoot⟩
      rcases ih middleSees middleRoot top othersUnbound permitted.right othersChecked with
        ⟨table, rest, lastSees, lastRoot⟩
      exact ⟨table, .cons named initial fresh bound rest, lastSees, lastRoot⟩

/-! ## Headings -/

theorem declareSignature_ok {binding : Signature} {arity : Nat} {position : Position}
    {after : Checker} (sees : checker.Sees context) (atRoot : checker.current = Arena.root)
    (declared : checker.declareSignature none binding arity position = .ok after) :
    context.functions.find? (binding.name, arity) = none ∧
      after.Sees
        { context with functions := context.functions.insert (binding.name, arity) binding } ∧
      after.current = Arena.root := by
  unfold declareSignature at declared
  have known := sees.shows.findFunction sees.declares binding.name arity
  rw [atRoot] at known
  cases added : checker.arena.addFunction Arena.root binding.name arity binding position with
  | error halt => simp [known, added, bind, Except.bind] at declared
  | ok arena =>
      simp only [known, added, bind, Except.bind, pure, Except.pure, Option.isSome_none,
        Bool.false_and, Bool.false_eq_true, if_false, Except.ok.injEq] at declared
      rcases Arena.addFunction_eq_ok_iff.mp added with ⟨scope, found, fresh, rfl⟩
      have table_eq := sees.declares _ _ found
      rw [if_pos rfl] at table_eq
      subst declared
      exact ⟨table_eq ▸ fresh,
        ⟨sees.shows.putFunction _ _ _, sees.declares.putFunction _ _⟩, atRoot⟩

theorem mapM_resolve_parameters {parameters : List Parameter} {position : Position}
    {types : List Ty}
    (resolved : (parameters.mapM fun parameter => resolve parameter.typeName position) =
      .ok types) :
    types = parameters.filterMap (Ty.ofName? ·.typeName) ∧ types.length = parameters.length := by
  induction parameters generalizing types with
  | nil =>
      cases resolved
      exact ⟨rfl, rfl⟩
  | cons parameter others ih =>
      rw [List.mapM_cons] at resolved
      cases first : resolve parameter.typeName position with
      | error halt => rw [first] at resolved; cases resolved
      | ok ty =>
          rw [first] at resolved
          cases rest : others.mapM fun parameter => resolve parameter.typeName position with
          | error halt => rw [rest] at resolved; cases resolved
          | ok otherTypes =>
              rw [rest] at resolved
              cases resolved
              rcases ih rest with ⟨rfl, length_eq⟩
              exact ⟨by rw [List.filterMap_cons, resolve_ok first], congrArg (· + 1) length_eq⟩

/-- A signature says what the heading of its function says. -/
theorem signatureOf_ok {function : Function} {signature : Signature}
    (stated : signatureOf function = .ok signature) :
    signature = ⟨function.name, function.parameterTypes, function.resultType⟩ ∧
      signature.parameters.length = function.arity := by
  unfold signatureOf at stated
  cases parameters : function.parameters.mapM fun parameter =>
      resolve parameter.typeName function.span.start with
  | error halt => rw [parameters] at stated; cases stated
  | ok types =>
      rcases mapM_resolve_parameters parameters with ⟨rfl, length_eq⟩
      rw [parameters] at stated
      rcases resultName : function.resultTypeName with _ | text
      · simp only [resultName] at stated
        cases stated
        exact ⟨by simp only [Function.parameterTypes, Function.resultType, resultName,
          Option.bind_none, Option.getD_none], length_eq⟩
      · cases result : resolve text function.span.start with
        | error halt =>
            simp only [resultName, result] at stated
            cases stated
        | ok ty =>
            simp only [resultName, result] at stated
            cases stated
            exact ⟨by simp only [Function.parameterTypes, Function.resultType, resultName,
              Option.bind_some, resolve_ok result, Option.getD_some], length_eq⟩

/-- What one heading adds to a context. -/
theorem checkHeading_declares {function result : Function} {after : Checker}
    (sees : checker.Sees context) (atRoot : checker.current = Arena.root)
    (unbound : function.binding = none)
    (checked : checkHeading checker function = (after, result, .ok ())) :
    ∃ signature, signatureOf result = .ok signature ∧
      context.functions.find? (result.name, result.arity) = none ∧
      result.binding = some signature ∧ result.body = function.body ∧
      after.Sees
        { context with
          functions := context.functions.insert (result.name, result.arity) signature } ∧
      after.current = Arena.root := by
  unfold checkHeading at checked
  cases stated : signatureOf function with
  | error halt => rw [stated] at checked; cases checked
  | ok signature =>
      simp only [stated, unbound] at checked
      cases declaring : checker.declareSignature none signature function.arity
        function.span.start with
      | error halt => rw [declaring] at checked; cases checked
      | ok next =>
          rw [declaring] at checked
          cases checked
          have name_eq : signature.name = function.name := by rw [(signatureOf_ok stated).1]
          rcases declareSignature_ok sees atRoot declaring with ⟨fresh, nextSees, nextRoot⟩
          rw [name_eq] at fresh nextSees
          exact ⟨signature, stated, fresh, rfl, rfl, nextSees, nextRoot⟩

theorem checkHeadings_declares (functions : List Function) {checker : Checker} {context : Context}
    {after : Checker} {results : List Function} (sees : checker.Sees context)
    (atRoot : checker.current = Arena.root)
    (unbound : ∀ function ∈ functions, function.binding = none)
    (targeted : ∀ function ∈ functions, Stmt.AllTargeted function.body)
    (checked : checkEach checkHeading checker functions = (after, results, .ok ())) :
    ∃ table, Context.DeclaresFunctions context.functions results table ∧
      after.Sees { context with functions := table } ∧ after.current = Arena.root ∧
      ∀ function ∈ results, Stmt.AllTargeted function.body := by
  induction functions generalizing checker context results with
  | nil =>
      cases checked
      exact ⟨context.functions, .nil, sees, atRoot, targeted⟩
  | cons function others ih =>
      rcases checkEach_cons_ok checked with
        ⟨middle, result, otherResults, rfl, headingChecked, othersChecked⟩
      rcases List.forall_mem_cons.mp unbound with ⟨functionUnbound, othersUnbound⟩
      rcases List.forall_mem_cons.mp targeted with ⟨bodyTargeted, othersTargeted⟩
      rcases checkHeading_declares sees atRoot functionUnbound headingChecked with
        ⟨signature, stated, fresh, bound, body_eq, middleSees, middleRoot⟩
      rcases ih middleSees middleRoot othersUnbound othersTargeted othersChecked with
        ⟨table, rest, lastSees, lastRoot, resultsTargeted⟩
      refine ⟨table, .cons stated fresh bound rest, lastSees, lastRoot, ?_⟩
      exact List.forall_mem_cons.mpr ⟨body_eq ▸ bodyTargeted, resultsTargeted⟩

/-! ## Bodies -/

theorem declareParameters_ok (parameters : List Parameter) {position : Position}
    {checker after : Checker} {context : Context} {table : Table String Variable}
    (sees : checker.Sees { context with locals := [table] })
    (declared : declareParameters position checker parameters = (after, .ok ())) :
    (∀ parameter ∈ parameters, table.find? parameter.name = none) ∧
      (parameters.map Parameter.name).Nodup ∧
      after.Sees
        { context with
          locals := [parameters.foldl (fun table parameter =>
            table.insert parameter.name ⟨parameter.name, .any, true⟩) table] } ∧
      checker.Follows after := by
  induction parameters generalizing checker table with
  | nil =>
      cases declared
      exact ⟨by simp, List.nodup_nil, sees, .refl _⟩
  | cons parameter others ih =>
      rw [declareParameters] at declared
      cases declaring : checker.declare ⟨parameter.name, .any, true⟩ position with
      | error halt => rw [declaring] at declared; cases declared
      | ok next =>
          rw [declaring] at declared
          rcases declare_ok sees rfl declaring with ⟨fresh, nextSees, follows⟩
          rcases ih nextSees declared with ⟨othersFresh, distinct, lastSees, later⟩
          have othersDiffer (other : Parameter) (member : other ∈ others) :
              parameter.name ≠ other.name ∧ table.find? other.name = none := by
            have missing := othersFresh other member
            rw [Table.find?_insert] at missing
            split at missing
            · cases missing
            · rename_i different
              exact ⟨different, missing⟩
          refine ⟨?_, ?_, lastSees, follows.trans later⟩
          · intro other member
            rcases List.mem_cons.mp member with rfl | elsewhere
            · exact fresh
            · exact (othersDiffer other elsewhere).2
          · rw [List.map_cons, List.nodup_cons]
            refine ⟨?_, distinct⟩
            intro repeated
            rcases List.mem_map.mp repeated with ⟨other, member, same⟩
            exact (othersDiffer other member).1 same.symm

/-- What is checked inside the scope of the parameters of a function. -/
theorem checkInside_accepts {checker inner : Checker} {context : Context}
    {function result : Function} (sees : checker.Sees { context with locals := [.empty] })
    (targeted : Stmt.AllTargeted function.body)
    (permitted : context.PermitsAll (Stmt.operationsOf result.body))
    (checked : (match declareParameters function.span.start checker function.parameters with
      | (inner, .error halt) => (inner, function, .error halt)
      | (inner, .ok ()) =>
        match inner.checkStmts function.body with
        | (inner, body, outcome) => (inner, { function with body }, outcome)) =
      (inner, result, .ok ())) :
    checker.Follows inner ∧ (∃ body, result = { function with body }) ∧
      (function.parameters.map Parameter.name).Nodup ∧
      ∃ next, Context.AcceptsAll
        { context with locals := [Context.parameterTable function.parameters] }
        checker.returnType result.body next := by
  rcases declared : declareParameters function.span.start checker function.parameters with
    ⟨middle, halt | _⟩
  · rw [declared] at checked
    cases checked
  simp only [declared] at checked
  rcases bodyChecked : middle.checkStmts function.body with ⟨last, body, outcome⟩
  simp only [bodyChecked, Prod.mk.injEq] at checked
  rcases checked with ⟨rfl, rfl, rfl⟩
  rcases declareParameters_ok function.parameters sees declared with
    ⟨_, distinct, middleSees, follows⟩
  rcases checkStmts_accepts _ middleSees (List.cons_ne_nil _ _) targeted permitted bodyChecked with
    ⟨locals, accepted, later⟩
  rw [follows.returnType] at accepted
  exact ⟨follows.trans later, ⟨body, rfl⟩, distinct, _, accepted⟩

theorem checkBody_accepts (sees : checker.Sees context) (top : context.locals = [])
    {function result : Function} {after : Checker} (targeted : Stmt.AllTargeted function.body)
    (permitted : context.PermitsAll (Stmt.operationsOf result.body))
    (checked : checker.checkBody function = (after, result, .ok ())) :
    (∃ body, result = { function with body }) ∧ after.arena = checker.arena ∧
      after.current = checker.current ∧
      ∀ signature, function.binding = some signature → context.AcceptsBody result signature := by
  unfold checkBody at checked
  generalize stated : (function.binding.map Signature.result).getD .nil = returnType at checked
  have returnSees : { checker with returnType }.Sees context := ⟨sees.shows, sees.declares⟩
  have innerSees := returnSees.enter
  rw [Context.enter, top] at innerSees
  rcases inScope_ok returnSees
    (fun _ ran => (checkInside_accepts innerSees targeted permitted ran).1) checked with
    ⟨rfl, inner, ran⟩
  rcases checkInside_accepts innerSees targeted permitted ran with
    ⟨_, ⟨body, rfl⟩, distinct, next, accepted⟩
  refine ⟨⟨body, rfl⟩, rfl, rfl, ?_⟩
  intro signature bound
  rw [bound] at stated
  subst stated
  exact ⟨distinct, next, accepted⟩

/-- Checking bodies changes nothing but the bodies, and leaves every name as it was. -/
theorem checkBodies_accepts (functions : List Function) {checker : Checker} {context : Context}
    {signatures table : Table (String × Nat) Signature} {after : Checker}
    {results : List Function} (sees : checker.Sees context) (top : context.locals = [])
    (declares : Context.DeclaresFunctions signatures functions table)
    (targeted : ∀ function ∈ functions, Stmt.AllTargeted function.body)
    (permitted : context.PermitsAll (results.flatMap (Stmt.operationsOf ·.body)))
    (checked : checkEach checkBody checker functions = (after, results, .ok ())) :
    Context.DeclaresFunctions signatures results table ∧ after.arena = checker.arena ∧
      after.current = checker.current ∧
      ∀ function ∈ results, ∀ signature, function.binding = some signature →
        context.AcceptsBody function signature := by
  induction functions generalizing checker signatures results with
  | nil =>
      cases checked
      exact ⟨declares, rfl, rfl, by simp⟩
  | cons function others ih =>
      rcases checkEach_cons_ok checked with
        ⟨middle, result, otherResults, rfl, bodyChecked, othersChecked⟩
      rw [List.flatMap_cons] at permitted
      rcases List.forall_mem_cons.mp targeted with ⟨bodyTargeted, othersTargeted⟩
      rcases checkBody_accepts sees top bodyTargeted permitted.left bodyChecked with
        ⟨⟨body, rfl⟩, arena_eq, current_eq, accepted⟩
      have middleSees := sees.of_eq arena_eq current_eq
      cases declares with
      | cons stated fresh bound rest =>
          rcases ih middleSees rest othersTargeted permitted.right othersChecked with
            ⟨othersDeclared, lastArena, lastCurrent, othersAccepted⟩
          refine ⟨.cons stated fresh bound othersDeclared, lastArena.trans arena_eq,
            lastCurrent.trans current_eq, ?_⟩
          intro other member signature otherBound
          rcases List.mem_cons.mp member with rfl | later
          · exact accepted signature otherBound
          · exact othersAccepted other later signature otherBound

theorem expectMain_ok {functions : List Function} (sees : checker.Sees context)
    (atRoot : checker.current = Arena.root) (expected : checker.expectMain functions = .ok ()) :
    ∃ signature, context.functions.find? (mainName, 0) = some signature ∧
      signature.result = .integer := by
  have known := sees.shows.findFunction sees.declares mainName 0
  rw [atRoot] at known
  unfold expectMain at expected
  rw [known] at expected
  cases found : context.functions.find? (mainName, 0) with
  | none => rw [found] at expected; cases expected
  | some signature =>
      simp only [found, bind, Except.bind] at expected
      split at expected
      · rename_i whole
        exact ⟨signature, rfl, whole⟩
      · cases expected

/-- What has been declared when all three rounds have passed. -/
theorem rounds_declare {program : Program} (unchecked : program.Unchecked)
    {first second third : Checker} {globals : List Global} {headings functions : List Function}
    (globalsChecked : checkEach checkGlobal initial program.globals = (first, globals, .ok ()))
    (headingsChecked :
      checkEach checkHeading first program.functions = (second, headings, .ok ()))
    (bodiesChecked : checkEach checkBody second headings = (third, functions, .ok ())) :
    ∃ context : Context,
      (context.permits = fun operator ty =>
        (operator, some ty) ∈ (⟨globals, functions⟩ : Program).operations) ∧
      context.locals = [] ∧
      Context.DeclaresGlobals ⟨nativeSignatures, .empty, [], context.permits⟩ globals
        ⟨nativeSignatures, context.globals, [], context.permits⟩ ∧
      Context.DeclaresFunctions nativeSignatures functions context.functions ∧
      third.Sees context ∧ third.current = Arena.root ∧
      ∀ function ∈ functions, ∀ signature, function.binding = some signature →
        context.AcceptsBody function signature := by
  let permits : Operator → Ty → Prop := fun operator ty =>
    (operator, some ty) ∈ (⟨globals, functions⟩ : Program).operations
  have uses : (⟨.empty, .empty, [], permits⟩ : Context).PermitsAll
      (⟨globals, functions⟩ : Program).operations :=
    fun _ _ occurs => occurs
  rcases checkGlobals_declares program.globals (.initial permits) rfl rfl unchecked.globals
    uses.left globalsChecked with ⟨globalTable, declaresGlobals, firstSees, firstRoot⟩
  rcases checkHeadings_declares program.functions firstSees firstRoot unchecked.functions
    unchecked.bodies headingsChecked with
    ⟨functionTable, declaresHeadings, secondSees, secondRoot, targeted⟩
  rcases checkBodies_accepts headings secondSees rfl declaresHeadings targeted uses.right
    bodiesChecked with ⟨declaresFunctions, arena_eq, current_eq, bodies⟩
  exact ⟨⟨functionTable, globalTable, [], permits⟩, rfl, rfl, declaresGlobals, declaresFunctions,
    secondSees.of_eq arena_eq current_eq, current_eq.trans secondRoot, bodies⟩

end Checker

namespace Program

/-- A program that passes its check obeys the rules, with its own operations as the permitted ones.
-/
theorem wellTyped_of_check {program checked : Program} (unchecked : program.Unchecked)
    (accepted : program.check = (checked, .ok ())) :
    ∃ context, checked.WellTyped context ∧
      context.permits = fun operator ty => (operator, some ty) ∈ checked.operations := by
  unfold check Checker.checkProgram at accepted
  rcases globalsChecked : Checker.checkEach Checker.checkGlobal Checker.initial program.globals with
    ⟨first, globals, halt | _⟩
  · rw [globalsChecked] at accepted
    cases accepted
  simp only [globalsChecked] at accepted
  rcases headingsChecked : Checker.checkEach Checker.checkHeading first program.functions with
    ⟨second, headings, halt | _⟩
  · rw [headingsChecked] at accepted
    cases accepted
  simp only [headingsChecked] at accepted
  rcases bodiesChecked : Checker.checkEach Checker.checkBody second headings with
    ⟨third, functions, halt | _⟩
  · rw [bodiesChecked] at accepted
    cases accepted
  simp only [bodiesChecked, Prod.mk.injEq] at accepted
  rcases accepted with ⟨rfl, mainExpected⟩
  rcases Checker.rounds_declare unchecked globalsChecked headingsChecked bodiesChecked with
    ⟨context, permits_eq, top, declaresGlobals, declaresFunctions, sees, atRoot, bodies⟩
  have main := Checker.expectMain_ok sees atRoot mainExpected
  exact ⟨context, ⟨top, declaresGlobals, declaresFunctions, bodies, main⟩, permits_eq⟩

end Program

end GradualScript
