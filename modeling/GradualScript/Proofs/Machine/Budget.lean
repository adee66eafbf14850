import GradualScript.Proofs.Machine.Lockstep

/-!
# Larger budgets

A run that has ended does not depend on its budget: with a larger one it ends in the same way. This
is a machine in step with itself, where the run with the smaller budget may be exhausted.
-/

namespace GradualScript

/-- Whether a run stopped with a report. Otherwise it would go on with a larger budget, or has
missed a scope or cut a character. -/
def Halt.isReport : Halt → Bool
  | .reported _ => true
  | .dangling | .severed | .exhausted => false

namespace Run

variable {α : Type}

/-- Whether a run has come to a value or has reported why there is none. -/
def ended : EStateM.Result Halt Machine α → Bool
  | .ok _ _ => true
  | .error halt _ => halt.isReport

theorem SameOutcome.ended_eq {related : Machine → Machine → Prop}
    {left right : EStateM.Result Halt Machine α} (same : SameOutcome related left right) :
    ended left = ended right := by
  cases same with
  | value after => rfl
  | halt after => rfl

theorem Quiet.alike {run : Run α} (quiet : run.Quiet) (depth : Nat) :
    Alike (Machine.Deep Eq depth) run run := by
  rintro machine _ ⟨rfl, deep⟩
  have kept := Nat.le_trans deep (quiet machine).depth
  cases outcome : run machine with
  | ok value after =>
      rw [outcome] at kept
      exact .value ⟨rfl, kept⟩
  | error halt after =>
      rw [outcome] at kept
      exact .halt ⟨rfl, kept⟩

theorem routineAt_machine (name : String) (arity : Nat) (position : Option Position)
    (machine : Machine) : machineOf (routineAt name arity position machine) = machine := by
  rw [routineAt, bind_get]
  simp only [bind, EStateM.bind]
  cases machine.arena.findFunction machine.current name arity with
  | error halt => rfl
  | ok found =>
      cases found with
      | some routine => rfl
      | none => rfl

theorem findsSame_self (functions : Table (String × Nat) Signature) (machine : Machine)
    (name : String) (arity : Nat) (position : Option Position) :
    Machine.FindsSame Eq true functions machine machine name arity position := by
  have unchanged := routineAt_machine name arity position machine
  cases result : routineAt name arity position machine with
  | error halt after =>
      rw [result] at unchanged
      cases unchanged
      exact .missing halt result result
  | ok routine after =>
      rw [result] at unchanged
      cases unchanged
      refine .found routine result ?_ ?_ fun impossible => ?_
      · rw [routine.strip_true]
        exact result
      · intro function closure _
        rw [function.strip_true]
      · cases impossible

end Run

namespace Lockstep

/-- A machine in step with itself, apart from reasons for which the first run may stop. -/
def twin (excused : Halt → Prop) : Lockstep where
  related := Eq
  excused := fun halt _ _ => excused halt
  excused_later := fun reason _ _ _ => reason
  keep := true
  functions := .empty
  misfit := by
    intro impossible
    cases impossible
  returnType := by
    rintro _ machine _ rfl
    rfl
  parameters := by
    intro impossible
    cases impossible
  cellAt := fun depth name position => (Run.Quiet.cellAt name position).alike depth
  define := by
    rintro machine _ rfl name cell position
    exact (Run.Quiet.define machine.current name cell position).alike _ _ _ ⟨rfl, Nat.le_refl _⟩
  defineGlobal := fun depth name cell position =>
    (Run.Quiet.define Arena.root name cell position).alike depth
  reassign := fun depth name cell position => (Run.Quiet.reassign name cell position).alike depth
  sink := by
    rintro machine _ rfl
    rfl
  write := by
    rintro machine _ sink rfl
    rfl
  enter := by
    rintro machine _ rfl
    rfl
  leave := by
    rintro machine _ inner _ rfl rfl deeper
    rcases Machine.exists_leave deeper with ⟨outer, left, _, _⟩
    exact ⟨outer, outer, left, left, rfl⟩
  routineAt := by
    rintro machine _ rfl
    exact Run.findsSame_self _ machine
  resume := by
    rintro machine _ callee _ rfl rfl _
    rfl

theorem twin_program_tracks {excused : Halt → Prop} {leftBudget rightBudget : Nat}
    (affords : (twin excused).Affords leftBudget rightBudget) (program : Program) :
    (twin excused).Tracks (Recorded.program leftBudget program)
      (Run.program rightBudget program) := by
  have annotated : (twin excused).keep ≠ false := by
    intro impossible
    cases impossible
  have globals := setUpGlobals_tracks affords program.globals (absurd · annotated)
    (absurd · annotated)
  change (twin excused).Tracks _ (Run.setUpGlobals rightBudget (program.strip true).globals)
    at globals
  rw [program.strip_true] at globals
  have quiet := Run.Quiet.setUpFunctions program.functions
  refine globals.bind fun _ => Pairing.Tracks.bind (.perform quiet.grows quiet.alike) fun _ => ?_
  exact call_tracks affords _ _ _

end Lockstep

namespace Run

/-- With a larger budget, a run that has ended ends in the same way. -/
theorem program_eq_of_ended {budget larger : Nat} (enough : budget ≤ larger) {program : Program}
    {machine : Machine} (hasEnded : ended (Run.program budget program machine) = true) :
    Run.program larger program machine = Run.program budget program machine := by
  let step := Lockstep.twin fun halt => halt.isReport = false
  have affords : step.Affords budget larger := .inr ⟨enough, fun _ _ => rfl⟩
  let start : Recording := ⟨machine, .empty, .nil, []⟩
  have inStep := (Lockstep.twin_program_tracks affords program).inStep start machine rfl
  have erased := Recorded.program_erases budget program start
  rw [← erased] at hasEnded ⊢
  generalize Recorded.program budget program start = first at inStep hasEnded ⊢
  generalize Run.program larger program machine = second at inStep ⊢
  cases inStep with
  | done still _ =>
      cases still
      rfl
  | stopped still _ =>
      cases still
      rfl
  | @excused halt left result reason =>
      have unreported : halt.isReport = false := reason
      rw [Recorded.forget, ended, unreported] at hasEnded
      cases hasEnded

end Run

end GradualScript
