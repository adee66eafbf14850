import GradualScript.Proofs.Machine.Truncation
import GradualScript.Proofs.Script.Constants

/-!
# Scripts whose output is limited

A limit on the output changes nothing about a script that prints no more than the limit. A script
that prints more stops at the call of `print` that goes past the limit, however deep in calls,
conditions and loops it is made, and then exactly the first bytes of its output are there.
-/

namespace GradualScript

/-- Whether a machine is in the root scope, and there is no other. -/
structure Machine.AtRoot (machine : Machine) : Prop where
  current : machine.current = Arena.root
  depth : machine.arena.depth = 1

theorem Machine.initial_atRoot (limit : Option Nat) : (Machine.initial limit).AtRoot :=
  ⟨rfl, rfl⟩

theorem Run.setUpFunctions_atRoot (functions : List Function) {machine : Machine}
    (atRoot : machine.AtRoot) : (machineOf (setUpFunctions functions machine)).AtRoot := by
  induction functions generalizing machine with
  | nil => exact atRoot
  | cons function others ih =>
      let routine := Routine.written function Arena.root
      cases added : machine.arena.addFunction Arena.root function.name function.arity routine
          function.span.start with
      | error halt =>
          rw [setUpFunctions, bind_get, added]
          exact atRoot
      | ok arena =>
          rw [setUpFunctions, bind_get, bind_ofExcept added]
          rcases Arena.addFunction_eq_ok_iff.mp added with ⟨_, _, _, rfl⟩
          exact ih ⟨atRoot.current, Array.size_modify.trans atRoot.depth⟩

namespace Recorded

variable {α : Type} {recorded : Recorded α} {before : Recording}

/-- What holds at the end can be added, whichever way a recorded run ends. -/
theorem Ends.and_last {done : α → Recording → Prop} {stopped : Halt → Recording → Prop}
    (ends : recorded.Ends before done stopped) {holds : Recording → Prop}
    (atEnd : holds (Recorded.last (recorded before))) :
    recorded.Ends before (fun value after => holds after ∧ done value after)
      (fun _ after => holds after) := by
  unfold Ends at ends ⊢
  cases result : recorded before with
  | ok value after =>
      rw [result] at ends atEnd
      exact ⟨atEnd, ends⟩
  | error halt after =>
      rw [result] at atEnd
      exact atEnd

/-- A piece of program that is run in the root scope is left there. -/
theorem Settles.atRoot {constants : Table String Cell} {added : String → Prop}
    {names : List String} (settles : Settles constants added names before recorded)
    (atRoot : before.machine.AtRoot) :
    recorded.Ends before
      (fun _ after => after.machine.AtRoot ∧ after.machine.Poised constants names)
      (fun _ after => after.machine.AtRoot) := by
  have back {after : Recording} (advances : before.Advances constants added after) :
      after.machine.AtRoot :=
    ⟨advances.current.trans atRoot.current, advances.arena.depth.trans atRoot.depth⟩
  exact Ends.mono settles (fun _ _ done => ⟨back done.1, done.2⟩) fun _ _ stopped => back stopped.1

/-- Whichever way a program ends, the machine is back in the root scope. -/
theorem program_atRoot (budget : Nat) (program : Program) (limit : Option Nat) :
    (last (Recorded.program budget program (.initial limit))).machine.AtRoot := by
  have spares : ∀ function ∈ program.functions, (Routine.written function Arena.root).Spares
      (fun name => (Table.empty : Table String Cell).contains name = true) function.arity :=
    fun function _ => Stmt.allSpare_of_none (by simp [Table.contains]) _ _
  have ends : (Recorded.program budget program).Ends (.initial limit)
      (fun _ after => after.machine.AtRoot) (fun _ after => after.machine.AtRoot) := by
    have globals := setUpGlobals_settles budget program.globals (.initial limit)
      (Machine.initial_poised limit) rfl
    refine (globals.atRoot (Machine.initial_atRoot limit)).bind ?_
    rintro _ middle ⟨atRoot, poised⟩
    have functions := setUpFunctions_ends program.functions middle poised spares
    refine (functions.and_last ?_).bind ?_
    · rw [last_perform]
      exact Run.setUpFunctions_atRoot program.functions atRoot
    · rintro _ inner ⟨stillAtRoot, stillPoised, _⟩
      have main := call_disciplined .empty budget [] Checker.mainName [] none inner stillPoised
      exact (main.atRoot stillAtRoot).mono (fun _ _ done => done.1) fun _ _ stopped => stopped
  exact ends.last (fun after => after.machine.AtRoot) (fun _ _ done => done) fun _ _ stopped =>
    stopped

theorem machineOf_forget (result : EStateM.Result Halt Recording α) :
    Run.machineOf (forget result) = (last result).machine := by
  cases result with
  | ok value recording => rfl
  | error halt recording => rfl

end Recorded

namespace Run

theorem program_atRoot (budget : Nat) (program : Program) (limit : Option Nat) :
    (machineOf (Run.program budget program (.initial limit))).AtRoot := by
  have atRoot := Recorded.program_atRoot budget program limit
  rw [← Recorded.machineOf_forget, Recorded.program_erases] at atRoot
  exact atRoot

/-- A limit on the output only truncates. A program that ends, and does not print more than the
limit, ends in the same way with it. One that prints more fails at the call of `print` that goes
past the limit. Then the first bytes of its output are there, and the machine is back in the root
scope. More budget makes no difference. -/
theorem program_limited {program : Program} {budget : Nat}
    (hasEnded : ended (Run.program budget program (.initial none)) = true) (limit : Nat)
    {larger : Nat} (enough : budget ≤ larger) :
    let unlimited := Run.program budget program (.initial none)
    let recorded := Recorded.program budget program (.initial none)
    let limited := Run.program larger program (.initial (some limit))
    let output := (machineOf unlimited).sink.written
    Recorded.forget recorded = unlimited ∧
      (output.size ≤ limit → SameOutcome (Machine.Limits limit) unlimited limited) ∧
      (limit < output.size → ∃ position after, limited = .error (.refused position) after ∧
        PrintsPast limit position (Recorded.last recorded).moments ∧
        after.sink.written = output.extract 0 limit ∧ after.AtRoot) := by
  intro unlimited recorded limited output
  have erased : Recorded.forget recorded = unlimited :=
    Recorded.program_erases budget program (.initial none)
  have written : (Recorded.last recorded).machine.sink.written = output := by
    rw [← Recorded.machineOf_forget, erased]
  have within : (Recording.initial none).Within limit :=
    ⟨rfl, Nat.zero_le _, by simp [Recording.initial]⟩
  have truncated := (Recorded.program_truncates budget program).truncated (.initial none) within
  have atRoot := program_atRoot budget program (some limit)
  have sameEnd : ended (Run.program budget program (.initial (some limit))) = true →
      limited = Run.program budget program (.initial (some limit)) := program_eq_of_ended enough
  have start : (Recording.initial none).machine.limited limit = .initial (some limit) := rfl
  rw [start] at truncated
  generalize Run.program budget program (.initial (some limit)) = right at truncated atRoot sameEnd
  cases truncated with
  | within inside same deep =>
      change SameOutcome _ (Recorded.forget recorded) right at same
      rw [erased] at same
      rw [sameEnd (same.ended_eq ▸ hasEnded)]
      refine ⟨erased, fun _ => same, fun more => ?_⟩
      exact absurd inside.fits (Nat.not_le.mpr (written ▸ more))
  | beyond past more bytes deep =>
      rw [sameEnd rfl]
      refine ⟨erased, fun fits => ?_, fun _ => ⟨_, _, rfl, past, bytes.trans ?_, atRoot⟩⟩
      · exact absurd (written ▸ fits) (Nat.not_le.mpr more)
      · rw [written]

/-- A script whose output is ten bytes, with room for all of them, and with room for five. Then it
stops in the third call of a function that a loop makes. -/
theorem program_limited_in_loop : ∃ program position after,
    Script.compile ("FUN f(n: Integer): Integer DO print(n); RETURN n + 1; END " ++
      "FUN main(): Integer DO LET n = 8; WHILE n < 12 DO n = f(n); END RETURN n; END")
      "main.plc" = .ok program ∧
    let unlimited := Run.program 9 program (.initial none)
    let recorded := Recorded.program 9 program (.initial none)
    ended unlimited = true ∧ (machineOf unlimited).sink.written = "8\n9\n10\n11\n".toUTF8 ∧
      SameOutcome (Machine.Limits 10) unlimited (Run.program 9 program (.initial (some 10))) ∧
      Run.program 20 program (.initial (some 5)) = .error (.refused position) after ∧
      PrintsPast 5 position (Recorded.last recorded).moments ∧
      after.sink.written = "8\n9\n1".toUTF8 ∧ after.AtRoot := by
  have evaluated : ((Script.compile
      ("FUN f(n: Integer): Integer DO print(n); RETURN n + 1; END " ++
        "FUN main(): Integer DO LET n = 8; WHILE n < 12 DO n = f(n); END RETURN n; END")
      "main.plc").toOption.any fun program =>
        ended (Run.program 9 program (.initial none)) &&
        (machineOf (Run.program 9 program (.initial none))).sink.written =
          "8\n9\n10\n11\n".toUTF8) = true := by decide +kernel
  rcases exists_ok_of_any evaluated with ⟨program, compiled, passes⟩
  simp only [Bool.and_eq_true, decide_eq_true_eq] at passes
  rcases passes with ⟨hasEnded, output⟩
  rcases program_limited hasEnded 10 (Nat.le_refl 9) with ⟨_, same, _⟩
  rcases program_limited hasEnded 5 (Nat.le_add_right 9 11) with ⟨_, _, stops⟩
  rw [output] at same stops
  rcases stops (by decide +kernel) with ⟨position, after, stopped, past, bytes, atRoot⟩
  refine ⟨program, position, after, compiled, hasEnded, output, same (by decide +kernel), stopped,
    past, bytes.trans ?_, atRoot⟩
  decide +kernel

end Run

end GradualScript
