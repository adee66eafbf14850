import Mathlib.Data.List.Forall2
import GradualScript.Proofs.Grammar.Reading
import GradualScript.Proofs.Typing.Accepted
import GradualScript.Proofs.Typing.Recheck
import GradualScript.Script

/-!
# Programs that are checked twice

A program that was checked may be checked again, by the same checker or by a new one, and comes out
as it went in. Globals and functions are what makes this more than `Checker.checkStmt_again`: they
are declared once, and a second check has to see that it is the one that declared them.

A new checker declares them again in the same order. A checker that has seen the program knows all
of it from the start, which is more than it knew of the first global when it was checked; but it
still knows what it knew then, and of a global that was refused it knows no more than before.
-/

namespace GradualScript

namespace Checker

variable {before after last checker : Checker}

/-! ## Rounds -/

/-- Whether a checker is outside of all functions, and all that it knows is declared there. -/
structure AtTop (checker : Checker) : Prop where
  formed : checker.WellFormed
  current : checker.current = Arena.root
  sees : ∃ context : Context, context.locals = [] ∧ checker.Sees context

theorem initial_atTop : initial.AtTop :=
  ⟨initial_formed, rfl, _, rfl, Sees.initial fun _ _ => True⟩

theorem Sees.findVariable {context : Context} (sees : checker.Sees context)
    (top : context.locals = []) (name : String) :
    checker.arena.findVariable checker.current name = .ok (context.globals.find? name) := by
  rw [sees.shows.findVariable, Context.tables, top, List.nil_append, Table.findIn,
    List.findSome?_singleton]

theorem Sees.findFunction {context : Context} (sees : checker.Sees context) (name : String)
    (arity : Nat) :
    checker.arena.findFunction checker.current name arity =
      .ok (context.functions.find? (name, arity)) :=
  sees.shows.findFunction sees.declares name arity

section Rounds

variable {τ : Type} {check : Checker → τ → Step τ} {trees : List τ}

/-- A round is made again with the same result if this is so for each of its things. -/
theorem checkEach_again (holds : Checker → Prop)
    (keeps : ∀ checker, ∀ tree ∈ trees, holds checker → holds (check checker tree).1)
    (again : ∀ checker, ∀ tree ∈ trees, holds checker →
      check checker (check checker tree).2.1 = check checker tree) (start : holds checker) :
    checkEach check checker (checkEach check checker trees).2.1 =
      checkEach check checker trees := by
  induction trees generalizing checker with
  | nil => rfl
  | cons tree others ih =>
      have treeAgain := again checker tree List.mem_cons_self start
      have treeKeeps := keeps checker tree List.mem_cons_self start
      simp only [checkEach]
      rcases checked : check checker tree with ⟨middle, result, halt | _⟩
      · simp only [checked] at treeAgain ⊢
        simp only [checkEach, treeAgain]
      · simp only [checked] at treeAgain treeKeeps ⊢
        have othersAgain := ih
          (fun checker other member => keeps checker other (List.mem_cons_of_mem tree member))
          (fun checker other member => again checker other (List.mem_cons_of_mem tree member))
          treeKeeps
        simp only [checkEach, treeAgain, othersAgain]

/-- What the check of a thing that declares a name does. -/
structure Declaring (check : Checker → τ → Step τ) (tree : τ) : Prop where
  again : ∀ checker, checker.AtTop → check checker (check checker tree).2.1 = check checker tree
  knows : ∀ checker, checker.AtTop →
    checker.Knows (check checker tree).1 ∧ (check checker tree).1.AtTop
  still : ∀ checker halt, (check checker tree).2.2 = .error halt → (check checker tree).1 = checker
  known : ∀ checker last, checker.AtTop → (check checker tree).2.2 = .ok () →
    (check checker tree).1.Knows last → last.current = Arena.root →
      check last (check checker tree).2.1 = (last, (check checker tree).2)

theorem checkEach_knows (declaring : ∀ tree ∈ trees, Declaring check tree)
    (top : checker.AtTop) :
    checker.Knows (checkEach check checker trees).1 ∧ (checkEach check checker trees).1.AtTop := by
  induction trees generalizing checker with
  | nil => exact ⟨.refl checker, top⟩
  | cons tree others ih =>
      rcases List.forall_mem_cons.mp declaring with ⟨first, rest⟩
      rcases first.knows checker top with ⟨knows, middleTop⟩
      simp only [checkEach]
      rcases checked : check checker tree with ⟨middle, result, halt | _⟩
      · rw [checked] at knows middleTop
        exact ⟨knows, middleTop⟩
      · rw [checked] at knows middleTop
        rcases ih rest middleTop with ⟨later, lastTop⟩
        exact ⟨knows.trans later, lastTop⟩

theorem declaring_again (declaring : ∀ tree ∈ trees, Declaring check tree) (top : checker.AtTop) :
    checkEach check checker (checkEach check checker trees).2.1 =
      checkEach check checker trees :=
  checkEach_again AtTop (fun _ tree member top => ((declaring tree member).knows _ top).2)
    (fun _ tree member top => (declaring tree member).again _ top) top

/-- A checker that knows what a round has declared makes the round again and declares nothing. -/
theorem checkEach_known (last : Checker) (declaring : ∀ tree ∈ trees, Declaring check tree)
    (top : checker.AtTop)
    (knows : (checkEach check checker trees).1.Knows last) (atRoot : last.current = Arena.root)
    (settled : ∀ halt, (checkEach check checker trees).2.2 = .error halt →
      last = (checkEach check checker trees).1) :
    checkEach check last (checkEach check checker trees).2.1 =
      (last, (checkEach check checker trees).2) := by
  induction trees generalizing checker with
  | nil => rfl
  | cons tree others ih =>
      rcases List.forall_mem_cons.mp declaring with ⟨first, rest⟩
      have again := first.again checker top
      have still := first.still checker
      have known := first.known checker last top
      have middleTop := (first.knows checker top).2
      simp only [checkEach] at knows settled ⊢
      rcases checked : check checker tree with ⟨middle, result, halt | _⟩
      · simp only [checked] at again still settled ⊢
        have same : last = checker := (settled halt rfl).trans (still halt rfl)
        simp only [checkEach, same, again, still halt rfl]
      · simp only [checked] at known middleTop knows settled ⊢
        have later := (checkEach_knows rest middleTop).1
        simp only [checkEach, known trivial (later.trans knows) atRoot,
          ih rest middleTop knows settled]

end Rounds

/-! ## Globals -/

theorem checkGlobalValue_of_ne_list {declared : Ty} {expr : Expr}
    (notList : ∀ span label elements, expr ≠ .list span label elements) :
    checker.checkGlobalValue declared (some expr) =
      (some (checker.checkAgainst declared expr).1,
        (checker.checkAgainst declared expr).2.map fun _ => declared) := by
  cases expr with
  | list span label elements => exact absurd rfl (notList span label elements)
  | _ => rfl

theorem checkGlobalValue_again (knows : before.Knows after) (declared : Ty)
    (initializer : Option Expr)
    (settled : ∀ halt, (before.checkGlobalValue declared initializer).2 = .error halt →
      after = before) :
    after.checkGlobalValue declared (before.checkGlobalValue declared initializer).1 =
      before.checkGlobalValue declared initializer := by
  rcases initializer with _ | initializer
  · rfl
  by_cases isList : ∃ span label elements, initializer = .list span label elements
  · rcases isList with ⟨span, label, elements, rfl⟩
    have again := checkExprs_again knows elements
    simp only [checkGlobalValue] at settled ⊢
    rcases checked : before.checkExprs elements with ⟨results, halt | types⟩
    · simp only [checked] at again settled ⊢
      simp only [again fun _ _ => settled _ rfl]
    · simp only [checked] at again ⊢
      cases fits : expectElements declared results types <;>
        simp only [again (by simp), fits]
  · have notList : ∀ span label elements, initializer ≠ .list span label elements := by
      intro span label elements same
      exact isList ⟨span, label, elements, same⟩
    have again := checkAgainst_again knows declared initializer
    rw [checkGlobalValue_of_ne_list notList] at settled ⊢
    have stillNotList : ∀ span label elements,
        (before.checkAgainst declared initializer).1 ≠ .list span label elements := by
      intro span label elements
      have same : (before.checkAgainst declared initializer).1 =
          (before.checkExpr initializer).1 := by
        unfold checkAgainst
        split <;> simp only [*]
      rw [same]
      exact checkExpr_ne_list before notList span label elements
    rw [checkGlobalValue_of_ne_list stillNotList, again]
    intro halt failed
    refine settled halt ?_
    rw [failed]
    rfl

/-- A global that is not known is declared in the same way whether or not it is written down, and
then it is known. -/
theorem declareGlobal_fresh {binding : Variable} {position : Position} (top : checker.AtTop)
    (declared : checker.declareGlobal none binding position = .ok after) :
    checker.declareGlobal (some binding) binding position = .ok after ∧ checker.Knows after ∧
      after.AtTop ∧ after.arena.findVariable after.current binding.name = .ok (some binding) := by
  rcases top.sees with ⟨context, noLocals, sees⟩
  rcases declareGlobal_ok sees top.current noLocals declared with ⟨fresh, afterSees, afterRoot⟩
  have unknown := sees.findVariable noLocals binding.name
  rw [top.current, fresh] at unknown
  refine ⟨?_, ⟨?_, ?_⟩, ⟨declareGlobal_formed top.formed declared, afterRoot, _, ?_, afterSees⟩, ?_⟩
  · unfold declareGlobal at declared ⊢
    rw [unknown] at declared ⊢
    exact declared
  · intro name found known
    rw [sees.findVariable noLocals, Except.ok.injEq] at known
    rw [afterSees.findVariable noLocals, Table.find?_insert]
    split
    · rename_i same
      rw [← same, fresh] at known
      cases known
    · rw [known]
  · intro name arity found known
    rw [sees.findFunction] at known
    rw [afterSees.findFunction]
    exact known
  · exact noLocals
  · rw [afterSees.findVariable noLocals, Table.find?_insert, if_pos rfl]

theorem declareGlobal_known {binding : Variable} (atRoot : checker.current = Arena.root)
    (known : checker.arena.findVariable checker.current binding.name = .ok (some binding))
    (position : Position) :
    checker.declareGlobal (some binding) binding position = .ok checker := by
  unfold declareGlobal
  rw [← atRoot, known]
  simp [bind, Except.bind, pure, Except.pure]

/-- The check of a global either stops and leaves the checker as it was, or declares the global. -/
theorem checkGlobal_cases (checker : Checker) (global : Global) :
    (∃ initializer halt,
      checker.checkGlobal global = (checker, { global with initializer }, .error halt)) ∨
    ∃ declared initializer ty next,
      resolve global.typeName global.span.start = .ok declared ∧
      checker.checkGlobalValue declared global.initializer = (initializer, .ok ty) ∧
      checker.declareGlobal global.binding ⟨global.name, ty, global.isMutable⟩
        global.span.start = .ok next ∧
      checker.checkGlobal global = (next,
        { global with initializer, binding := some ⟨global.name, ty, global.isMutable⟩ },
        .ok ()) := by
  unfold checkGlobal
  cases named : resolve global.typeName global.span.start with
  | error halt => exact .inl ⟨_, halt, rfl⟩
  | ok declared =>
      simp only
      rcases checked : checker.checkGlobalValue declared global.initializer with
        ⟨initializer, halt | ty⟩
      · exact .inl ⟨initializer, halt, rfl⟩
      · simp only
        cases declaring : checker.declareGlobal global.binding ⟨global.name, ty, global.isMutable⟩
            global.span.start with
        | error halt => exact .inl ⟨initializer, halt, rfl⟩
        | ok next => exact .inr ⟨declared, initializer, ty, next, rfl, checked, declaring, rfl⟩

theorem checkGlobal_again {global : Global} (unbound : global.binding = none)
    (top : checker.AtTop) :
    checker.checkGlobal (checker.checkGlobal global).2.1 = checker.checkGlobal global := by
  unfold checkGlobal
  cases named : resolve global.typeName global.span.start with
  | error halt => simp only [named]
  | ok declared =>
      have again := checkGlobalValue_again (.refl checker) declared global.initializer
        fun _ _ => rfl
      rcases checked : checker.checkGlobalValue declared global.initializer with
        ⟨initializer, halt | ty⟩
      · simp only [checked] at again ⊢
        simp only [named, again]
      · simp only [checked, unbound] at again ⊢
        cases declaring : checker.declareGlobal none ⟨global.name, ty, global.isMutable⟩
            global.span.start with
        | error halt => simp only [named, again, declaring]
        | ok next => simp only [named, again, (declareGlobal_fresh top declaring).1]

theorem checkGlobal_declaring {global : Global} (unbound : global.binding = none) :
    Declaring checkGlobal global := by
  refine ⟨fun _ top => checkGlobal_again unbound top, ?_, ?_, ?_⟩
  · intro checker top
    rcases checkGlobal_cases checker global with
      ⟨_, _, stopped⟩ | ⟨_, _, _, _, _, _, declaring, passed⟩
    · rw [stopped]
      exact ⟨.refl checker, top⟩
    · rw [unbound] at declaring
      rcases declareGlobal_fresh top declaring with ⟨_, knows, nextTop, _⟩
      rw [passed]
      exact ⟨knows, nextTop⟩
  · intro checker halt failed
    rcases checkGlobal_cases checker global with
      ⟨_, _, stopped⟩ | ⟨_, _, _, _, _, _, _, passed⟩
    · rw [stopped]
    · rw [passed] at failed
      cases failed
  · intro checker last top ok knows atRoot
    rcases checkGlobal_cases checker global with
      ⟨_, _, stopped⟩ | ⟨declared, initializer, ty, next, named, checked, declaring, passed⟩
    · rw [stopped] at ok
      cases ok
    · rw [unbound] at declaring
      rcases declareGlobal_fresh top declaring with ⟨_, earlier, _, known⟩
      rw [passed] at knows ⊢
      have again := checkGlobalValue_again (earlier.trans knows) declared global.initializer
        (by simp [checked])
      rw [checked] at again
      have skipped := declareGlobal_known atRoot (knows.onVariables _ _ known) global.span.start
      simp only [checkGlobal, named, again, skipped]

/-! ## Headings -/

theorem declareSignature_fresh {binding : Signature} {arity : Nat} {position : Position}
    (top : checker.AtTop)
    (declared : checker.declareSignature none binding arity position = .ok after) :
    checker.declareSignature (some binding) binding arity position = .ok after ∧
      checker.Knows after ∧ after.AtTop ∧
      after.arena.findFunction after.current binding.name arity = .ok (some binding) := by
  rcases top.sees with ⟨context, noLocals, sees⟩
  rcases declareSignature_ok sees top.current declared with ⟨fresh, afterSees, afterRoot⟩
  have unknown := sees.findFunction binding.name arity
  rw [top.current, fresh] at unknown
  refine ⟨?_, ⟨?_, ?_⟩,
    ⟨declareSignature_formed top.formed declared, afterRoot, _, ?_, afterSees⟩, ?_⟩
  · unfold declareSignature at declared ⊢
    rw [unknown] at declared ⊢
    exact declared
  · intro name found known
    rw [sees.findVariable noLocals] at known
    rw [afterSees.findVariable noLocals]
    exact known
  · intro name otherArity found known
    rw [sees.findFunction, Except.ok.injEq] at known
    rw [afterSees.findFunction, Table.find?_insert]
    split
    · rename_i same
      rw [← same, fresh] at known
      cases known
    · rw [known]
  · exact noLocals
  · rw [afterSees.findFunction, Table.find?_insert, if_pos rfl]

theorem declareSignature_known {binding : Signature} {arity : Nat}
    (atRoot : checker.current = Arena.root)
    (known : checker.arena.findFunction checker.current binding.name arity = .ok (some binding))
    (position : Position) :
    checker.declareSignature (some binding) binding arity position = .ok checker := by
  unfold declareSignature
  rw [← atRoot, known]
  simp [bind, Except.bind, pure, Except.pure]

/-- The check of a heading either stops and changes nothing, or declares the function. -/
theorem checkHeading_cases (checker : Checker) (function : Function) :
    (∃ halt, checker.checkHeading function = (checker, function, .error halt)) ∨
    ∃ found next,
      signatureOf function = .ok found ∧
      checker.declareSignature function.binding found function.arity function.span.start =
        .ok next ∧
      checker.checkHeading function = (next, { function with binding := some found }, .ok ()) := by
  unfold checkHeading
  cases stated : signatureOf function with
  | error halt => exact .inl ⟨halt, rfl⟩
  | ok found =>
      simp only
      cases declaring : checker.declareSignature function.binding found function.arity
          function.span.start with
      | error halt => exact .inl ⟨halt, rfl⟩
      | ok next => exact .inr ⟨found, next, rfl, declaring, rfl⟩

theorem checkHeading_declaring {function : Function} (unbound : function.binding = none) :
    Declaring checkHeading function := by
  have bound (found : Signature) :
      signatureOf { function with binding := some found } = signatureOf function := rfl
  refine ⟨?_, ?_, ?_, ?_⟩
  · intro checker top
    rcases checkHeading_cases checker function with
      ⟨_, stopped⟩ | ⟨found, next, stated, declaring, passed⟩
    · rw [stopped]
      exact stopped
    · rw [unbound] at declaring
      rw [passed]
      rw [← bound found] at stated
      have same := (declareSignature_fresh top declaring).1
      have arity_eq : ({ function with binding := some found } : Function).arity =
        function.arity := rfl
      simp only [checkHeading, stated, arity_eq, same]
  · intro checker top
    rcases checkHeading_cases checker function with ⟨_, stopped⟩ | ⟨_, _, _, declaring, passed⟩
    · rw [stopped]
      exact ⟨.refl checker, top⟩
    · rw [unbound] at declaring
      rcases declareSignature_fresh top declaring with ⟨_, knows, nextTop, _⟩
      rw [passed]
      exact ⟨knows, nextTop⟩
  · intro checker halt failed
    rcases checkHeading_cases checker function with ⟨_, stopped⟩ | ⟨_, _, _, _, passed⟩
    · rw [stopped]
    · rw [passed] at failed
      cases failed
  · intro checker last top ok knows atRoot
    rcases checkHeading_cases checker function with
      ⟨_, stopped⟩ | ⟨found, next, stated, declaring, passed⟩
    · rw [stopped] at ok
      cases ok
    · rw [unbound] at declaring
      rcases declareSignature_fresh top declaring with ⟨_, _, _, known⟩
      rw [passed] at knows ⊢
      rw [← bound found] at stated
      have skipped := declareSignature_known atRoot (knows.onFunctions _ _ _ known)
        function.span.start
      have arity_eq : ({ function with binding := some found } : Function).arity =
        function.arity := rfl
      simp only [checkHeading, stated, arity_eq, skipped]

/-! ## Programs -/

theorem checkBodies_again (checker : Checker) (functions : List Function) :
    checkEach checkBody checker (checkEach checkBody checker functions).2.1 =
      checkEach checkBody checker functions :=
  checkEach_again (fun _ => True) (fun _ _ _ _ => trivial)
    (fun checker function _ _ => checkBody_again checker function) trivial

theorem checkBodies_eq (formed : checker.WellFormed) (functions : List Function) :
    ∃ returnType, (checkEach checkBody checker functions).1 = { checker with returnType } := by
  induction functions generalizing checker with
  | nil => exact ⟨checker.returnType, rfl⟩
  | cons function others ih =>
      rcases checkBody_points formed function.placed_anywhere with ⟨tree, outcome, checked, _⟩
      simp only [checkEach, checked]
      cases outcome with
      | error halt => exact ⟨_, rfl⟩
      | ok _ => exact ih ⟨formed.ordered, formed.inside⟩

/-- The checker that has checked the functions checks them again with the same result. -/
theorem checkBodies_known (formed : checker.WellFormed) (functions : List Function) :
    checkEach checkBody (checkEach checkBody checker functions).1
        (checkEach checkBody checker functions).2.1 =
      checkEach checkBody checker functions := by
  cases functions with
  | nil => rfl
  | cons function others =>
      rcases checkBodies_eq formed (function :: others) with ⟨returnType, after_eq⟩
      have again := checkBodies_again checker (function :: others)
      rw [after_eq]
      -- Only the first function sees the type that the checker expected before.
      have forget : ∀ results : List Function, results ≠ [] →
          checkEach checkBody { checker with returnType } results =
            checkEach checkBody checker results := by
        intro results notEmpty
        rcases List.exists_cons_of_ne_nil notEmpty with ⟨first, rest, rfl⟩
        simp only [checkEach, checkBody_returnType]
      rw [forget, again]
      simp only [checkEach]
      split <;> simp

theorem checkBodies_sameHeading (checker : Checker) (functions : List Function) :
    List.Forall₂ SameHeading functions (checkEach checkBody checker functions).2.1 := by
  induction functions generalizing checker with
  | nil => exact .nil
  | cons function others ih =>
      have first := checkBody_sameHeading checker function
      have rest := ih (checker.checkBody function).1
      simp only [checkEach]
      rcases checked : checker.checkBody function with ⟨middle, result, halt | _⟩
      · rw [checked] at first
        exact .cons first (List.forall₂_same.mpr fun other _ => ⟨other.body, rfl⟩)
      · rw [checked] at first rest
        exact .cons first rest

/-- Headings are checked without a look at the bodies. -/
theorem checkHeading_body (checker : Checker) (function : Function) (body : List Stmt) :
    checker.checkHeading { function with body } =
      ((checker.checkHeading function).1, { (checker.checkHeading function).2.1 with body },
        (checker.checkHeading function).2.2) := by
  have stated_eq : signatureOf { function with body } = signatureOf function := rfl
  have arity_eq : ({ function with body } : Function).arity = function.arity := rfl
  simp only [checkHeading, stated_eq, arity_eq]
  cases signatureOf function with
  | error halt => rfl
  | ok found =>
      simp only
      split <;> rfl

theorem checkHeadings_sameHeading {functions others : List Function}
    (same : List.Forall₂ SameHeading functions others)
    (passed : checkEach checkHeading checker functions = (after, functions, .ok ())) :
    checkEach checkHeading checker others = (after, others, .ok ()) := by
  induction same generalizing checker with
  | nil => exact passed
  | @cons function _ functions others first _ ih =>
      rcases first with ⟨body, rfl⟩
      rcases checkEach_cons_ok passed with ⟨middle, result, rest, same, headed, restHeaded⟩
      cases same
      have otherHeaded := checkHeading_body checker function body
      rw [headed] at otherHeaded
      simp only [checkEach, otherHeaded, ih restHeaded]

section Programs

variable {program : Program}

theorem globals_declaring (unchecked : program.Unchecked) :
    ∀ global ∈ program.globals, Declaring checkGlobal global :=
  fun global member => checkGlobal_declaring (unchecked.globals global member)

theorem headings_declaring (unchecked : program.Unchecked) :
    ∀ function ∈ program.functions, Declaring checkHeading function :=
  fun function member => checkHeading_declaring (unchecked.functions function member)

/-- Checking a program again from the same start comes to the same. -/
theorem checkProgram_again (unchecked : program.Unchecked) (top : checker.AtTop) :
    checker.checkProgram (checker.checkProgram program).2.1 = checker.checkProgram program := by
  have globals := globals_declaring unchecked
  have headings := headings_declaring unchecked
  have globalsAgain := declaring_again globals top
  have middleTop := (checkEach_knows globals top).2
  have headingsAgain := declaring_again headings middleTop
  simp only [checkProgram]
  rcases globalsChecked : checkEach checkGlobal checker program.globals with
    ⟨middle, globalResults, halt | _⟩
  · simp only [globalsChecked] at globalsAgain ⊢
    simp only [globalsAgain]
  simp only [globalsChecked] at globalsAgain headingsAgain ⊢
  rcases headingsChecked : checkEach checkHeading middle program.functions with
    ⟨headed, headingResults, halt | _⟩
  · simp only [headingsChecked] at headingsAgain ⊢
    simp only [globalsAgain, headingsAgain]
  simp only [headingsChecked] at headingsAgain ⊢
  have bodiesAgain := checkBodies_again headed headingResults
  have stillHeaded := checkHeadings_sameHeading (checkBodies_sameHeading headed headingResults)
    headingsAgain
  rcases bodiesChecked : checkEach checkBody headed headingResults with
    ⟨last, results, halt | _⟩
  · simp only [bodiesChecked] at bodiesAgain stillHeaded ⊢
    simp only [globalsAgain, stillHeaded, bodiesAgain]
  · simp only [bodiesChecked] at bodiesAgain stillHeaded ⊢
    simp only [globalsAgain, stillHeaded, bodiesAgain]

/-- The checker that has checked a program checks it again with the same result. -/
theorem checkProgram_known (unchecked : program.Unchecked) (top : checker.AtTop) :
    (checker.checkProgram program).1.checkProgram (checker.checkProgram program).2.1 =
      checker.checkProgram program := by
  have globals := globals_declaring unchecked
  have headings := headings_declaring unchecked
  have globalsKnown (last : Checker) := checkEach_known last globals top
  have middleTop := (checkEach_knows globals top).2
  simp only [checkProgram]
  rcases globalsChecked : checkEach checkGlobal checker program.globals with
    ⟨middle, globalResults, halt | _⟩
  · simp only [globalsChecked] at globalsKnown middleTop ⊢
    simp only [globalsKnown middle (.refl _) middleTop.current fun _ _ => rfl]
  simp only [globalsChecked] at globalsKnown middleTop ⊢
  have headingsKnown (last : Checker) := checkEach_known last headings middleTop
  rcases checkEach_knows headings middleTop with ⟨headedKnows, headedTop⟩
  rcases headingsChecked : checkEach checkHeading middle program.functions with
    ⟨headed, headingResults, halt | _⟩
  · simp only [headingsChecked] at headingsKnown headedKnows headedTop ⊢
    simp only [globalsKnown headed headedKnows headedTop.current (by simp),
      headingsKnown headed (.refl _) headedTop.current fun _ _ => rfl]
  simp only [headingsChecked] at headingsKnown headedKnows headedTop ⊢
  have bodiesKnown := checkBodies_known headedTop.formed headingResults
  have same := checkBodies_sameHeading headed headingResults
  rcases checkBodies_eq headedTop.formed headingResults with ⟨returnType, last_eq⟩
  rcases bodiesChecked : checkEach checkBody headed headingResults with ⟨last, results, outcome⟩
  simp only [bodiesChecked] at bodiesKnown same last_eq ⊢
  have lastKnows : headed.Knows last := by
    rw [last_eq]
    exact ⟨fun _ _ found => found, fun _ _ _ found => found⟩
  have lastRoot : last.current = Arena.root := by
    rw [last_eq]
    exact headedTop.current
  have stillHeaded := checkHeadings_sameHeading same
    (headingsKnown last lastKnows lastRoot (by simp))
  cases outcome with
  | error halt =>
      simp only [globalsKnown last (headedKnows.trans lastKnows) lastRoot (by simp), stillHeaded,
        bodiesKnown]
  | ok _ =>
      simp only [globalsKnown last (headedKnows.trans lastKnows) lastRoot (by simp), stillHeaded,
        bodiesKnown]

end Programs

end Checker

/-- A program that was read and checked is checked again with the same result, down to the last
annotation, by the checker that checked it and by a new one. -/
theorem Program.check_idempotent {tokens : List Token} {file : String} {program : Program}
    (parsed : Program.parse tokens file = .ok program) :
    let first := Checker.initial.checkProgram program
    first.1.checkProgram first.2.1 = first ∧ Checker.initial.checkProgram first.2.1 = first := by
  have unchecked := Program.unchecked_of_parse parsed
  exact ⟨Checker.checkProgram_known unchecked Checker.initial_atTop,
    Checker.checkProgram_again unchecked Checker.initial_atTop⟩

/-- A program in which all names are declared before its check stops midway. -/
theorem Program.check_idempotent_refused :
    ∃ tokens program,
      Script.tokens
        "VAR a: Any = 1; FUN main(): Integer DO LET b: Any = a; RETURN a + TRUE; END" "main.plc" =
          .ok tokens ∧
      Program.parse tokens "main.plc" = .ok program ∧
      let first := Checker.initial.checkProgram program
      first.2.2 = .error (.reported
          (.located (.operandMismatch "+" "Any" "Boolean") ⟨62, "main.plc"⟩)) ∧
        first.1.checkProgram first.2.1 = first ∧
        Checker.initial.checkProgram first.2.1 = first := by
  have evaluated : ((Script.tokens
      "VAR a: Any = 1; FUN main(): Integer DO LET b: Any = a; RETURN a + TRUE; END"
      "main.plc").toOption.any fun tokens =>
        (Program.parse tokens "main.plc").toOption.any fun program =>
          (Checker.initial.checkProgram program).2.2 = .error (.reported
            (.located (.operandMismatch "+" "Any" "Boolean") ⟨62, "main.plc"⟩))) = true := by
    decide +kernel
  rcases exists_ok_of_any evaluated with ⟨tokens, read, passes⟩
  rcases exists_ok_of_any passes with ⟨program, parsed, refused⟩
  exact ⟨tokens, program, read, parsed, of_decide_eq_true refused, check_idempotent parsed⟩

end GradualScript
