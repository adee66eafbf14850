import GradualScript.Proofs.Machine.Reordering
import GradualScript.Proofs.Script.Soundness
import GradualScript.Proofs.Typing.Reordering

/-!
# The order of functions

It does not matter in which order the functions of a script are written. The check accepts them in
every order or in none and annotates each function in the same way, and the script then prints and
gives the same, and leaves the same globals.

A program that did not pass its check can also be run. If one of its functions is declared twice, it
stops before `main` is called in every order, though the order decides which declaration is the one
too many; otherwise the order does not matter either.
-/

namespace GradualScript

theorem Halt.Redeclares.isNaming {halt : Halt} (redeclares : halt.Redeclares) :
    halt.isNaming = true := by
  rcases redeclares with ⟨name, arity, position, rfl⟩
  rfl

namespace Program

variable {program checked : Program} {functions : List Function}

/-- A program that has passed its check does not stop at a function that is declared twice. -/
theorem not_redeclares_of_check (unchecked : program.Unchecked)
    (accepted : program.check = (checked, .ok ())) {budget : Nat} {limit : Option Nat} {halt : Halt}
    {machine : Machine}
    (stopped : Run.program budget checked (.initial limit) = .error halt machine) :
    ¬ halt.Redeclares := by
  intro redeclares
  rcases wellTyped_of_check unchecked accepted with ⟨_, wellTyped, _⟩
  have ends := Recorded.program_ends wellTyped (fun _ => trivial)
    (fun global _ => global.reliable_nothing) budget limit
  rcases (Script.run_ends ends).2 halt machine stopped with ⟨_, _, _, notNaming⟩
  rw [redeclares.isNaming] at notNaming
  cases notNaming

/-- A program that has passed its check runs in the same way with its functions in another order. -/
theorem sameOutcome_of_check (unchecked : program.Unchecked)
    (accepted : program.check = (checked, .ok ())) (reordered : checked.functions.Perm functions)
    (budget : Nat) (limit : Option Nat) :
    Run.SameOutcome Machine.SameGlobals (Run.program budget checked (.initial limit))
      (Run.program budget ⟨checked.globals, functions⟩ (.initial limit)) := by
  have runs := Run.program_reordered reordered (Machine.initial_notEmpty limit) budget
    checked.globals
  exact runs.sameOutcome fun _ _ stopped => not_redeclares_of_check unchecked accepted stopped

theorem check_eq_of_ok (accepted : program.check.2 = .ok ()) :
    program.check = (program.check.1, .ok ()) :=
  Prod.ext rfl accepted

theorem check_ok_of_perm (unchecked : program.Unchecked)
    (reordered : program.functions.Perm functions) (accepted : program.check.2 = .ok ()) :
    (⟨program.globals, functions⟩ : Program).check.2 = .ok () := by
  rcases check_perm unchecked reordered (check_eq_of_ok accepted) with ⟨_, _, otherAccepted⟩
  rw [otherAccepted]

/-- The check of a program accepts its functions in another order if it accepts them as they are.
Then each function is annotated in the same way, and every run comes to the same result with the
same output and the same globals. Runs of a program as it was read come to the same as well, unless
a function is declared twice. -/
theorem function_order_irrelevant {tokens : List Token} {file : String}
    (parsed : Program.parse tokens file = .ok program)
    (reordered : program.functions.Perm functions) :
    let other : Program := ⟨program.globals, functions⟩
    (program.check.2 = .ok () ↔ other.check.2 = .ok ()) ∧
    (program.check.2 = .ok () →
      (∃ annotate : Function → Function,
        program.check.1.functions = program.functions.map annotate ∧
        other.check.1 = ⟨program.check.1.globals, functions.map annotate⟩) ∧
      ∀ budget limit, Run.SameOutcome Machine.SameGlobals
        (Run.program budget program.check.1 (.initial limit))
        (Run.program budget other.check.1 (.initial limit))) ∧
    ∀ budget limit, Run.SameOrRedeclared (Run.program budget program (.initial limit))
      (Run.program budget other (.initial limit)) := by
  intro other
  have unchecked := unchecked_of_parse parsed
  refine ⟨⟨?_, ?_⟩, ?_, ?_⟩
  · exact check_ok_of_perm unchecked reordered
  · exact check_ok_of_perm (unchecked.perm reordered) reordered.symm
  · intro accepted
    have checked := check_eq_of_ok accepted
    rcases check_perm unchecked reordered checked with ⟨annotate, annotated, otherAccepted⟩
    have otherChecked := congrArg Prod.fst otherAccepted
    refine ⟨⟨annotate, annotated, otherChecked⟩, fun budget limit => ?_⟩
    have annotatedPerm : program.check.1.functions.Perm (functions.map annotate) := by
      rw [annotated]
      exact reordered.map annotate
    rw [otherChecked]
    exact sameOutcome_of_check unchecked checked annotatedPerm budget limit
  · intro budget limit
    exact Run.program_reordered reordered (Machine.initial_notEmpty limit) budget program.globals

/-- A script whose functions call each other and change a global, with the functions swapped. -/
theorem function_order_irrelevant_mutual : ∃ tokens program first second,
    Script.tokens
      ("VAR n: Integer = 2; FUN f(a: Integer): Integer DO IF a > 0 DO RETURN main(); END " ++
        "RETURN n; END FUN main(): Integer DO n = n - 1; RETURN f(n); END") "main.plc" =
          .ok tokens ∧
    Program.parse tokens "main.plc" = .ok program ∧ program.functions = [first, second] ∧
    program.check.2 = .ok () ∧
    let other : Program := ⟨program.globals, [second, first]⟩
    other.check.2 = .ok () ∧
      ∀ budget limit, Run.SameOutcome Machine.SameGlobals
        (Run.program budget program.check.1 (.initial limit))
        (Run.program budget other.check.1 (.initial limit)) := by
  have evaluated : ((Script.tokens
      ("VAR n: Integer = 2; FUN f(a: Integer): Integer DO IF a > 0 DO RETURN main(); END " ++
        "RETURN n; END FUN main(): Integer DO n = n - 1; RETURN f(n); END")
      "main.plc").toOption.any fun tokens =>
        (Program.parse tokens "main.plc").toOption.any fun program =>
          program.functions.length = 2 ∧ program.check.2 = .ok ()) = true := by
    decide +kernel
  rcases exists_ok_of_any evaluated with ⟨tokens, read, passes⟩
  rcases exists_ok_of_any passes with ⟨program, parsed, both⟩
  rcases of_decide_eq_true both with ⟨two, accepted⟩
  rcases List.length_eq_two.mp two with ⟨first, second, pair⟩
  have swapped : program.functions.Perm [second, first] := by
    rw [pair]
    exact .swap second first []
  rcases function_order_irrelevant parsed swapped with ⟨accepts, same, _⟩
  exact ⟨tokens, program, first, second, read, parsed, pair, accepted, accepts.mp accepted,
    (same accepted).2⟩

end Program

end GradualScript
