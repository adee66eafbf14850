import GradualScript.Proofs.Typing.Accepted
import GradualScript.Proofs.Typing.Faults

/-!
# What is wrong with a program

Whatever the check of a program finds wrong is a checking error at a place of the program, but for a
missing `main` function, which is nowhere. What is wrong with the `main` function is wrong where it
is written: no native function is called so.
-/

namespace GradualScript

namespace Checker

variable {places : Position → Prop} {checker : Checker}

/-! ## Globals -/

theorem expectElements_faults (target : Ty) {elements : List Expr}
    (placed : Expr.AllPlaced places elements) (types : List Ty) :
    Faults places (expectElements target elements types) := by
  induction types generalizing elements with
  | nil => exact .ok ()
  | cons ty types ih =>
      cases elements with
      | nil => exact .ok ()
      | cons element elements =>
          simp only [expectElements, List.zip_cons_cons, List.forM]
          exact .bind (.expect _ _ placed.1.start) fun _ => ih placed.2

theorem checkGlobalValue_points (formed : checker.WellFormed) (declared : Ty)
    {initializer : Option Expr} (placed : ∀ expr ∈ initializer, expr.Placed places) :
    Points places (fun initializer => ∀ expr ∈ initializer, expr.Placed places)
      (checker.checkGlobalValue declared initializer) := by
  unfold checkGlobalValue
  split
  · exact ⟨by simp, .ok _⟩
  · rename_i span ty elements
    have listPlaced := placed _ rfl
    have found := checkExprs_points formed elements listPlaced.2
    split
    · rename_i failed
      rw [failed] at found
      exact ⟨by simpa using ⟨listPlaced.1, found.tree⟩, found.faults.passOn⟩
    · rename_i types passed
      rw [passed] at found
      split
      · rename_i failed
        refine ⟨by simpa using ⟨listPlaced.1, found.tree⟩, .error ?_⟩
        exact expectElements_faults declared found.tree types _ failed
      · exact ⟨by simpa using ⟨listPlaced.1, found.tree⟩, .ok _⟩
  · have found := checkAgainst_points formed declared (placed _ rfl)
    exact ⟨by simpa using found.tree, found.faults.map _⟩

theorem WellFormed.root_inside (formed : checker.WellFormed) :
    Arena.root < checker.arena.depth :=
  Nat.zero_lt_of_lt formed.inside

theorem declareGlobal_faults (formed : checker.WellFormed) (known : Option Variable)
    (binding : Variable) {position : Position} (placed : places position) :
    Faults places (checker.declareGlobal known binding position) := by
  rcases formed.ordered.search (·.variableTable.find? binding.name) formed.root_inside with
    ⟨place, searched⟩
  rcases Arena.exists_scope formed.root_inside with ⟨scope, found⟩
  rw [declareGlobal, Arena.findVariable_of_search searched, Arena.addVariable,
    Arena.scope_eq_ok found]
  refine .bind (.ok _) fun _ => .ite (.ok _) (.bind ?_ fun _ => .ok _)
  exact .ite (.located rfl placed) (.ok _)

theorem declareSignature_faults (formed : checker.WellFormed) (known : Option Signature)
    (binding : Signature) (arity : Nat) {position : Position} (placed : places position) :
    Faults places (checker.declareSignature known binding arity position) := by
  rcases formed.ordered.search (·.functionTable.find? (binding.name, arity)) formed.root_inside with
    ⟨place, searched⟩
  rcases Arena.exists_scope formed.root_inside with ⟨scope, found⟩
  rw [declareSignature, Arena.findFunction_of_search searched, Arena.addFunction,
    Arena.scope_eq_ok found]
  refine .bind (.ok _) fun _ => .ite (.ok _) (.bind ?_ fun _ => .ok _)
  exact .ite (.located rfl placed) (.ok _)

/-- Whether a check of a part of a program leaves a checker for the next part. -/
structure Passes {τ : Type} (places : Position → Prop) (good : τ → Prop) (step : Step τ) :
    Prop where
  formed : step.1.WellFormed
  points : Points places good step.2

theorem checkGlobal_passes (formed : checker.WellFormed) {global : Global}
    (placed : global.Placed places) :
    Passes places (Global.Placed places) (checker.checkGlobal global) := by
  unfold checkGlobal
  split
  · rename_i failed
    exact ⟨formed, placed, .error (Faults.resolve _ placed.1 _ failed)⟩
  · rename_i declared _
    have found := checkGlobalValue_points formed declared placed.2
    split
    · rename_i failed
      rw [failed] at found
      exact ⟨formed, ⟨placed.1, found.tree⟩, found.faults.passOn⟩
    · rename_i passed
      rw [passed] at found
      simp only
      split
      · rename_i failed
        exact ⟨formed, ⟨placed.1, found.tree⟩,
          .error (declareGlobal_faults formed _ _ placed.1 _ failed)⟩
      · rename_i declared
        exact ⟨declareGlobal_formed formed declared, ⟨placed.1, found.tree⟩, .ok _⟩

/-! ## Functions -/

theorem signatureOf_faults {function : Function} (placed : places function.span.start) :
    Faults places (signatureOf function) := by
  have parameterTypes (parameters : List Parameter) :
      Faults places (parameters.mapM fun parameter =>
        resolve parameter.typeName function.span.start) := by
    induction parameters with
    | nil => exact .ok _
    | cons parameter others ih =>
        rw [List.mapM_cons]
        exact .bind (.resolve _ placed) fun _ => .bind ih fun _ => .ok _
  refine .bind (parameterTypes _) fun _ => ?_
  simp only
  split
  · exact .bind (.resolve _ placed) fun _ => .ok _
  · exact .ok _

theorem checkHeading_passes (formed : checker.WellFormed) {function : Function}
    (placed : function.Placed places) :
    Passes places (Function.Placed places) (checker.checkHeading function) := by
  unfold checkHeading
  split
  · rename_i failed
    exact ⟨formed, placed, .error (signatureOf_faults placed.1 _ failed)⟩
  · simp only
    split
    · rename_i failed
      exact ⟨formed, placed, .error (declareSignature_faults formed _ _ _ placed.1 _ failed)⟩
    · rename_i declared
      exact ⟨declareSignature_formed formed declared, placed, .ok _⟩

theorem checkBody_passes (formed : checker.WellFormed) {function : Function}
    (placed : function.Placed places) :
    Passes places (Function.Placed places) (checker.checkBody function) := by
  rcases checkBody_points formed placed with ⟨tree, outcome, checked, treePlaced, faults⟩
  rw [checked]
  exact ⟨⟨formed.ordered, formed.inside⟩, treePlaced, faults⟩

theorem checkEach_passes {τ : Type} {good : τ → Prop} {check : Checker → τ → Step τ}
    (each : ∀ (checker : Checker) (tree : τ), checker.WellFormed → good tree →
      Passes places good (check checker tree)) (formed : checker.WellFormed) {trees : List τ}
    (hold : ∀ tree ∈ trees, good tree) :
    Passes places (fun trees => ∀ tree ∈ trees, good tree) (checkEach check checker trees) := by
  induction trees generalizing checker with
  | nil => exact ⟨formed, by simp [checkEach], .ok _⟩
  | cons tree others ih =>
      rcases List.forall_mem_cons.mp hold with ⟨holds, othersHold⟩
      have first := each checker tree formed holds
      simp only [checkEach]
      split
      · rename_i failed
        rw [failed] at first
        exact ⟨first.formed, List.forall_mem_cons.mpr ⟨first.points.tree, othersHold⟩,
          first.points.faults⟩
      · rename_i passed
        rw [passed] at first
        have rest := ih first.formed othersHold
        exact ⟨rest.formed, List.forall_mem_cons.mpr ⟨first.points.tree, rest.points.tree⟩,
          rest.points.faults⟩

/-! ## Programs -/

/-- A function that a list of functions has added is one of them. -/
theorem exists_of_declares {functions : List Function} {key : String × Nat}
    {signatures after : Table (String × Nat) Signature} {signature : Signature}
    (declares : Context.DeclaresFunctions signatures functions after)
    (absent : signatures.find? key = none) (found : after.find? key = some signature) :
    ∃ function ∈ functions, (function.name, function.arity) = key := by
  induction declares with
  | nil =>
      rw [absent] at found
      cases found
  | @cons signatures _ function _ signature stated fresh bound rest ih =>
      by_cases same : (function.name, function.arity) = key
      · exact ⟨function, List.mem_cons_self, same⟩
      · have stillAbsent :
            (signatures.insert (function.name, function.arity) signature).find? key = none := by
          rw [Table.find?_insert, if_neg same]
          exact absent
        rcases ih stillAbsent found with ⟨other, member, same⟩
        exact ⟨other, List.mem_cons_of_mem _ member, same⟩

theorem expectMain_blames {context : Context} {functions : List Function}
    (sees : checker.Sees context) (atRoot : checker.current = Arena.root)
    (declares : Context.DeclaresFunctions nativeSignatures functions context.functions)
    (placed : ∀ function ∈ functions, function.Placed places) {halt : Halt}
    (failed : checker.expectMain functions = .error halt) :
    halt = .reported (.unlocated .missingMain) ∨ halt.Blames .checking places := by
  have known := sees.shows.findFunction sees.declares mainName 0
  rw [atRoot] at known
  unfold expectMain at failed
  rw [known] at failed
  cases found : context.functions.find? (mainName, 0) with
  | none =>
      rw [found] at failed
      cases failed
      exact .inl rfl
  | some signature =>
      rw [found] at failed
      simp only [bind, Except.bind] at failed
      split at failed
      · cases failed
      · cases failed
        rcases exists_of_declares declares (by decide) found with ⟨main, member, same⟩
        rw [Prod.mk.injEq] at same
        rcases first : functions.find? fun function =>
            function.name = mainName && function.arity = 0 with _ | function
        · have missing := List.find?_eq_none.mp first main member
          simp [same.1, same.2] at missing
        · right
          refine ⟨_, _, rfl, rfl, ?_⟩
          rw [first, Option.map_some, Option.getD_some]
          exact (placed function (List.mem_of_find?_eq_some first)).1

end Checker

namespace Program

variable {places : Position → Prop} {program : Program}

/-- What is wrong with a program is wrong at one of its places, but for a missing `main`. -/
theorem check_points (unchecked : program.Unchecked) (placed : program.Placed places) :
    program.check.1.Placed places ∧
      ∀ halt, program.check.2 = .error halt →
        halt = .reported (.unlocated .missingMain) ∨ halt.Blames .checking places := by
  have atGlobals := Checker.checkEach_passes
    (fun _ _ formed placed => Checker.checkGlobal_passes formed placed)
    Checker.initial_formed placed.onGlobals
  unfold check Checker.checkProgram
  rcases globalsChecked : Checker.checkEach Checker.checkGlobal Checker.initial program.globals with
    ⟨first, globals, halt | _⟩
  · rw [globalsChecked] at atGlobals
    refine ⟨⟨atGlobals.points.tree, placed.onFunctions⟩, fun halt failed => ?_⟩
    exact .inr (atGlobals.points.faults halt failed)
  rw [globalsChecked] at atGlobals
  have atHeadings := Checker.checkEach_passes
    (fun _ _ formed placed => Checker.checkHeading_passes formed placed) atGlobals.formed
    placed.onFunctions
  simp only
  rcases headingsChecked : Checker.checkEach Checker.checkHeading first program.functions with
    ⟨second, headings, halt | _⟩
  · rw [headingsChecked] at atHeadings
    refine ⟨⟨atGlobals.points.tree, atHeadings.points.tree⟩, fun halt failed => ?_⟩
    exact .inr (atHeadings.points.faults halt failed)
  rw [headingsChecked] at atHeadings
  have atBodies := Checker.checkEach_passes
    (fun _ _ formed placed => Checker.checkBody_passes formed placed) atHeadings.formed
    atHeadings.points.tree
  simp only
  rcases bodiesChecked : Checker.checkEach Checker.checkBody second headings with
    ⟨third, functions, halt | _⟩
  · rw [bodiesChecked] at atBodies
    refine ⟨⟨atGlobals.points.tree, atBodies.points.tree⟩, fun halt failed => ?_⟩
    exact .inr (atBodies.points.faults halt failed)
  rw [bodiesChecked] at atBodies
  refine ⟨⟨atGlobals.points.tree, atBodies.points.tree⟩, fun halt failed => ?_⟩
  rcases Checker.rounds_declare unchecked globalsChecked headingsChecked bodiesChecked with
    ⟨context, _, _, _, declares, sees, atRoot, _⟩
  exact Checker.expectMain_blames sees atRoot declares atBodies.points.tree failed

end Program

end GradualScript
