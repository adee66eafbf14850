import GradualScript.Proofs.Machine.Budget
import GradualScript.Proofs.Machine.Stripping
import GradualScript.Proofs.Script.Soundness

/-!
# Annotations only add tests

A script that compiles runs as the tree without its annotations does, until a value of type `Any`
fails the test that an annotation asks for. Such a test never lets a run print anything that the run
without it would not print, and never lets it end in another way than by its failure.

The two runs may be given different budgets, so the results are compared whenever they have ended;
see `GradualScript.Proofs.Machine.Budget`. The step-by-step comparison is in
`GradualScript.Proofs.Machine.Stripping`.
-/

namespace GradualScript

namespace Recorded

variable {α : Type} {recorded : EStateM.Result Halt Recording α}
  {bare : EStateM.Result Halt Machine α}

/-- Whether a recorded run was stopped by a test. -/
def FailsTest (recorded : EStateM.Result Halt Recording α) : Prop :=
  ∃ halt after, recorded = .error halt after ∧ Misfit halt after.moments

/-- Why a recorded run stopped, if it did. -/
def halt? : EStateM.Result Halt Recording α → Option Halt
  | .ok _ _ => none
  | .error halt _ => some halt

/-- Whether the last moment of a recorded run offered a value that stopped it. -/
def failsAt (slot : Slot) (ty : Ty) (recorded : EStateM.Result Halt Recording α) : Bool :=
  (last recorded).moments.head?.any fun moment => moment.event.offers slot ty fun expr value =>
    expr.ty = some .any && !value.fits ty && halt? recorded = some (.unfit expr ty value)

theorem failsTest_of_failsAt {slot : Slot} {ty : Ty} (notElement : slot.isElement = false)
    (fails : failsAt slot ty recorded = true) : FailsTest recorded := by
  rcases (Option.any_eq_true _ _).mp fails with ⟨moment, latest, offers⟩
  rcases Event.exists_of_offers offers with ⟨expr, value, event, passes⟩
  rcases List.head?_eq_some_iff.mp latest with ⟨earlier, moments⟩
  simp only [Bool.and_eq_true, decide_eq_true_eq, Bool.not_eq_true'] at passes
  rcases passes with ⟨⟨deferred, unfit⟩, stops⟩
  cases recorded with
  | ok result after => cases stops
  | error halt after =>
      cases stops
      exact ⟨_, after, rfl, moment, earlier, slot, some ty, expr, value, ty, moments, event,
        notElement, deferred, unfit, rfl⟩

/-- The failure of a test is reported. -/
theorem FailsTest.ended (fails : FailsTest recorded) : Run.ended (forget recorded) = true := by
  rcases fails with ⟨_, after, rfl, _, _, _, _, _, _, _, _, _, _, _, _, rfl⟩
  rfl

/-- In step with another run, a run that no test stopped has the same outcome. -/
theorem sameOutcome_of_inStep {depth : Nat}
    (inStep : (Pairing.tested Machine.SameGlobals).InStep depth recorded bare)
    (passes : ¬FailsTest recorded) :
    Run.SameOutcome Machine.SameGlobals (forget recorded) bare := by
  cases inStep with
  | done still _ => exact .value still
  | stopped still _ => exact .halt still
  | excused reason _ => exact absurd ⟨_, _, rfl, reason.1⟩ passes

/-- What a run has printed, another run in step with it has printed too. -/
theorem extends_of_inStep {depth : Nat}
    (inStep : (Pairing.tested Machine.SameGlobals).InStep depth recorded bare) :
    (Run.machineOf (forget recorded)).Extends (Run.machineOf bare) := by
  cases inStep with
  | done still _ => exact .of_sink still.1
  | stopped still _ => exact .of_sink still.1
  | excused reason _ => exact reason.2

end Recorded

namespace Script

variable {source file : String} {program : Program}

/-- What compiles goes in step with itself without annotations, up to a test that fails. -/
theorem stripped_inStep (compiled : compile source file = .ok program) (budget : Nat)
    (limit : Option Nat) :
    (Pairing.tested Machine.SameGlobals).InStep 0
      (Recorded.program budget program (.initial limit))
      (Run.program budget program.bare (.initial limit)) := by
  rcases compile_ok compiled with ⟨_, unchecked, accepted⟩
  rcases Program.wellTyped_of_check unchecked accepted with ⟨context, wellTyped, _⟩
  exact Recorded.program_stripped wellTyped budget limit

/-- Where the run of a script ends, and no test has stopped it, the script without annotations ends
in the same way, having printed the same and with the same globals. Where a test has stopped it, the
script without annotations prints at least as much, if it ends. -/
theorem annotations_add_tests (compiled : compile source file = .ok program) (budget : Nat)
    (limit : Option Nat) :
    let recorded := Recorded.program budget program (.initial limit)
    let annotated := Run.program budget program (.initial limit)
    let bare (budget : Nat) := Run.program budget program.bare (.initial limit)
    Recorded.forget recorded = annotated ∧
      (Run.ended annotated = true → ¬Recorded.FailsTest recorded → ∀ larger, budget ≤ larger →
        Run.SameOutcome Machine.SameGlobals annotated (bare larger)) ∧
      (Recorded.FailsTest recorded → ∀ other, Run.ended (bare other) = true →
        (Run.machineOf annotated).Extends (Run.machineOf (bare other))) := by
  intro recorded annotated bare
  have erases (budget : Nat) : Recorded.forget (Recorded.program budget program (.initial limit)) =
      Run.program budget program (.initial limit) :=
    Recorded.program_erases budget program (.initial limit)
  refine ⟨erases budget, ?_, ?_⟩
  · intro ended passes larger enough
    have same := Recorded.sameOutcome_of_inStep (stripped_inStep compiled budget limit) passes
    rw [erases] at same
    have bareEnded : Run.ended (bare budget) = true := same.ended_eq.symm.trans ended
    have later : bare larger = bare budget := Run.program_eq_of_ended enough bareEnded
    rw [later]
    exact same
  · intro fails other bareEnded
    -- Neither run depends on its budget any more, so both may be given the larger one.
    let most := max budget other
    have ended := fails.ended
    rw [erases] at ended
    have sameRun : Run.program most program (.initial limit) = annotated :=
      Run.program_eq_of_ended (Nat.le_max_left _ _) ended
    have sameBare : bare most = bare other :=
      Run.program_eq_of_ended (Nat.le_max_right _ _) bareEnded
    have prints := Recorded.extends_of_inStep (stripped_inStep compiled most limit)
    rw [erases, sameRun] at prints
    rw [← sameBare]
    exact prints

/-- A text that is to be stored in a variable of type `Integer` stops a script, and a whole number
does not. -/
theorem annotations_add_tests_declaration :
    (∃ program,
      compile ("VAR a: Any = \"x\"; FUN main(): Integer DO print(1); LET b: Integer = a; " ++
        "print(b); RETURN 0; END") "main.plc" = .ok program ∧
      Recorded.FailsTest (Recorded.program 9 program (.initial none)) ∧
      Run.ended (Run.program 9 program.bare (.initial none)) = true ∧
      (Run.machineOf (Run.program 9 program (.initial none))).Extends
        (Run.machineOf (Run.program 9 program.bare (.initial none)))) ∧
    ∃ program,
      compile ("VAR a: Any = 2; FUN main(): Integer DO print(1); LET b: Integer = a; " ++
        "print(b); RETURN 0; END") "main.plc" = .ok program ∧
      Run.ended (Run.program 9 program (.initial none)) = true ∧
      ¬Recorded.FailsTest (Recorded.program 9 program (.initial none)) ∧
      Run.SameOutcome Machine.SameGlobals (Run.program 9 program (.initial none))
        (Run.program 10 program.bare (.initial none)) := by
  constructor
  · have evaluated : ((compile
        ("VAR a: Any = \"x\"; FUN main(): Integer DO print(1); LET b: Integer = a; " ++
          "print(b); RETURN 0; END") "main.plc").toOption.any fun program =>
          Recorded.failsAt .declaration .integer (Recorded.program 9 program (.initial none)) &&
          Run.ended (Run.program 9 program.bare (.initial none))) = true := by decide +kernel
    rcases exists_ok_of_any evaluated with ⟨program, compiled, passes⟩
    rcases Bool.and_eq_true_iff.mp passes with ⟨stops, bareEnded⟩
    have fails := Recorded.failsTest_of_failsAt rfl stops
    exact ⟨program, compiled, fails, bareEnded,
      (annotations_add_tests compiled 9 none).2.2 fails 9 bareEnded⟩
  · have evaluated : ((compile
        ("VAR a: Any = 2; FUN main(): Integer DO print(1); LET b: Integer = a; " ++
          "print(b); RETURN 0; END") "main.plc").toOption.any fun program =>
          Run.ended (Run.program 9 program (.initial none)) &&
          (Recorded.halt? (Recorded.program 9 program (.initial none))).isNone) = true := by
      decide +kernel
    rcases exists_ok_of_any evaluated with ⟨program, compiled, passes⟩
    rcases Bool.and_eq_true_iff.mp passes with ⟨ended, unstopped⟩
    have passed : ¬Recorded.FailsTest (Recorded.program 9 program (.initial none)) := by
      rintro ⟨halt, after, stopped, _⟩
      rw [stopped] at unstopped
      cases unstopped
    exact ⟨program, compiled, ended, passed,
      (annotations_add_tests compiled 9 none).2.1 ended passed 10 (Nat.le_succ 9)⟩

end Script

end GradualScript
