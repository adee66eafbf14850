import GradualScript.Proofs.Machine.Frames
import GradualScript.Proofs.Typing.Restoration

/-!
# Scopes are left as they were found

The checker and the machine enter scopes as they go through a program, and both leave them again on
every path, also where they stop. So whatever a program is, each of them stays in order: it comes
back to the scope that it started in, and the scopes that were there have the parents, functions and
names that they had. Only a declaration leaves a new name behind.
-/

namespace GradualScript

/-- Whether a machine is as it was but for the values of its variables, what was printed, and new
variables of the given names in the current scope. -/
structure Machine.Restored (added : String → Prop) (before after : Machine) : Prop where
  wellFormed : after.WellFormed
  depth : after.arena.depth = before.arena.depth
  current : after.current = before.current
  returnType : after.returnType = before.returnType
  scopes : before.arena.Evolves before.current added after.arena

namespace Run

variable {α : Type} {added : String → Prop}

/-- Whether a run came back to the scope in which it started, with or without a value, and never
looked for a scope that is not there. -/
inductive ComesBack (added : String → Prop) (before : Machine) :
    EStateM.Result Halt Machine α → Prop
  | ok {value : α} {after : Machine} (restored : before.Restored added after) :
      ComesBack added before (.ok value after)
  | error {halt : Halt} {after : Machine} (restored : before.Restored added after)
      (present : halt ≠ .dangling) : ComesBack added before (.error halt after)

/-- What is known of recorded runs holds of runs. Without constants it needs nothing of the program.
-/
theorem comesBack_of_disciplined {recorded : Recorded α} {run : Run α} {last : List String}
    (erases : recorded.Erases run) (disciplined : recorded.Disciplined .empty added [] last)
    {machine : Machine} (wellFormed : machine.WellFormed) :
    ComesBack added machine (run machine) := by
  let start : Recording := ⟨machine, .empty, .nil, []⟩
  have poised : machine.Poised .empty [] := by
    refine ⟨wellFormed, ?_, ?_, by simp⟩
    · intro _ _ _ _ routine _
      cases routine with
      | builtIn function => trivial
      | written function closure => exact Stmt.allSpare_of_none (by simp [Table.contains]) _ _
    · intro _ _ impossible
      cases impossible
  have settles := disciplined start poised
  have same := erases start
  change _ = run machine at same
  rw [← same]
  unfold Recorded.Settles Recorded.Ends at settles
  have restored {after : Recording} (advances : start.Advances .empty added after) :
      machine.Restored added after.machine :=
    ⟨(advances.poised poised).wellFormed, advances.arena.depth, advances.current,
      advances.returnType, advances.arena⟩
  cases result : recorded start with
  | ok value after =>
      rw [result] at settles
      exact .ok (restored settles.1)
  | error halt after =>
      rw [result] at settles
      exact .error (restored settles.1) settles.2

end Run

/-- Whether a check came back to the scope in which it was made, with or without an objection, and
never looked for a scope that is not there. -/
structure Checker.ComesBack {τ : Type} (before : Checker) (step : Checker.Step τ) : Prop where
  wellFormed : step.1.WellFormed
  depth : step.1.arena.depth = before.arena.depth
  current : step.1.current = before.current
  present : Checker.Present step.2.2

theorem Checker.Restores.comesBack {τ : Type} {checker : Checker} {step : Checker.Step τ}
    (restores : checker.Restores step) (formed : checker.WellFormed) : checker.ComesBack step :=
  ⟨formed.follows restores.follows, restores.follows.arena.depth, restores.follows.current,
    restores.present⟩

/-- Every piece of program leaves the scopes of the machine that runs it, and of the checker that
checks it, as it found them. -/
theorem scopes_restored (budget rounds : Nat) :
    (∀ machine : Machine, machine.WellFormed →
      (∀ expr, Run.ComesBack (fun _ => False) machine
        (Run.evaluate (Run.call budget) expr machine)) ∧
      (∀ statement, Run.ComesBack (· ∈ statement.declares) machine
        (Run.execute (Run.call budget) rounds statement machine)) ∧
      (∀ body, Run.ComesBack (fun _ => False) machine
        (Run.inScope (Run.executeAll (Run.call budget) rounds body) machine)) ∧
      ∀ name arguments position, Run.ComesBack (fun _ => False) machine
        (Run.call budget name arguments position machine)) ∧
    ∀ checker : Checker, checker.WellFormed →
      (∀ expr, Checker.Present (checker.checkExpr expr).2) ∧
      (∀ statement, checker.ComesBack (checker.checkStmt statement)) ∧
      (∀ body, checker.ComesBack (checker.checkBlock body)) ∧
      ∀ function, checker.ComesBack (checker.checkBody function) := by
  have erases := Recorded.call_erases budget
  have calls := Recorded.call_disciplined .empty budget
  have nothing : ∀ name, ¬(Table.empty : Table String Cell).contains name = true := by
    simp [Table.contains]
  refine ⟨fun machine wellFormed => ⟨?_, ?_, ?_, ?_⟩, fun checker formed => ⟨?_, ?_, ?_, ?_⟩⟩
  · intro expr
    exact Run.comesBack_of_disciplined (Recorded.evaluate_erases erases expr)
      (Recorded.evaluate_disciplined calls [] expr) wellFormed
  · intro statement
    exact Run.comesBack_of_disciplined (Recorded.execute_erases erases rounds statement)
      (Recorded.execute_disciplined calls rounds statement (statement.spares_of_none nothing _))
      wellFormed
  · intro body
    exact Run.comesBack_of_disciplined (Recorded.executeAll_erases erases rounds body).inScope
      (Recorded.executeAll_disciplined calls rounds body
        (Stmt.allSpare_of_none nothing _ body)).inScope wellFormed
  · intro name arguments position
    exact Run.comesBack_of_disciplined (erases name arguments position)
      (calls [] name arguments position) wellFormed
  · exact Checker.checkExpr_present formed
  · exact fun statement => (Checker.checkStmt_restores formed statement).comesBack formed
  · exact fun body => (Checker.checkBlock_restores formed body).comesBack formed
  · intro function
    have restores := Checker.checkBody_restores formed function
    exact ⟨(restores.comesBack ⟨formed.ordered, formed.inside⟩).wellFormed,
      restores.follows.arena.depth, restores.follows.current, restores.present⟩

/-- A block that declares a variable and then misses another, inside a scope of its own. -/
theorem scopes_restored_inner :
    let span : Span := ⟨.null, .null⟩
    let statement : Stmt := .branch span (.literal span none (.boolean true))
      [.declaration span "x" (some "Integer") none none,
        .assignment span (.access span none "y" none) (.access span none "x" none)] []
    let machine := (Machine.initial none).enter.1
    let checker := Checker.initial.enter.1
    machine.WellFormed ∧ checker.WellFormed ∧
      Run.ComesBack (· ∈ []) machine (Run.execute (Run.call 2) 2 statement machine) ∧
      checker.ComesBack (checker.checkStmt statement) := by
  intro span statement machine checker
  have wellFormed : machine.WellFormed := (Machine.initial_wellFormed none).enter
  have formed : checker.WellFormed :=
    Checker.WellFormed.enter ⟨.ofFunctions _, Nat.zero_lt_one⟩
  exact ⟨wellFormed, formed, ((scopes_restored 2 2).1 machine wellFormed).2.1 statement,
    ((scopes_restored 2 2).2 checker formed).2.1 statement⟩

end GradualScript
