import GradualScript.Proofs.Grammar.Reading
import GradualScript.Proofs.Machine.Returning

/-!
# Scripts that pass their check

What the check of a script promises about its runs: values conform to the types of their
expressions and variables, names mean something, and the script gives a whole number. The statements
are about every run of every script that compiles, whatever the budget and the room for output.

The first and the last leave out scripts with a list global whose elements are only known when the
script runs, since such elements are stored without a test; see
`GradualScript.Proofs.Script.DeferredChecks`.
-/

namespace GradualScript

/-- Whether the types of the elements of a list global are known before the script runs, unless the
list takes values of any type. -/
def Global.elementsKnown (global : Global) : Bool :=
  match global.initializer with
  | some (.list _ _ elements) =>
    Ty.ofName? global.typeName = some .any || elements.all fun element => element.ty ≠ some .any
  | _ => true

/-- Whether this is so for all globals of a program. -/
def Program.elementsKnown (program : Program) : Bool := program.globals.all Global.elementsKnown

/-- Elements of known types conform to the type declared for them. -/
theorem Global.reliable_of_elementsKnown (quotients : Prop) {global : Global}
    (known : global.elementsKnown = true) : global.Reliable (.conformance quotients) := by
  intro span label elements declared isList named element member ty value element_ty allowed
    conforms
  simp only [elementsKnown, isList, named, Option.some.injEq, Bool.or_eq_true, decide_eq_true_eq,
    List.all_eq_true] at known
  rcases known with rfl | allKnown
  · exact .any
  · have notAny : ty ≠ .any := fun isAny => allKnown element member (isAny ▸ element_ty)
    simp only [Ty.allows, Bool.or_eq_true, decide_eq_true_eq, notAny, false_or] at allowed
    exact conforms.admitted allowed

theorem Global.reliable_nothing (global : Global) : global.Reliable .nothing := by
  intro _ _ _ _ _ _ _ _ _ _ _ _ _
  trivial

namespace Run

/-- The value that a run has come to, if it has. -/
def value? {α : Type} : EStateM.Result Halt Machine α → Option α
  | .ok value _ => some value
  | .error _ _ => none

variable {α : Type} {outcome : EStateM.Result Halt Machine α}

theorem exists_of_value? {value : α} (found : value? outcome = some value) :
    ∃ machine, outcome = .ok value machine := by
  cases outcome with
  | ok other machine =>
      cases found
      exact ⟨machine, rfl⟩
  | error halt machine => cases found

theorem exists_of_value?_eq_none (missing : value? outcome = none) :
    ∃ halt machine, outcome = .error halt machine := by
  cases outcome with
  | ok value machine => cases missing
  | error halt machine => exact ⟨halt, machine, rfl⟩

end Run

namespace Script

variable {source file : String} {program : Program}

/-- A script that compiles is a well-typed program. -/
theorem exists_wellTyped {reliance : Reliance} (compiled : compile source file = .ok program)
    (permits : ∀ {operator ty}, (operator, some ty) ∈ program.operations →
      reliance.permits operator ty) :
    ∃ context, program.WellTyped context ∧
      ∀ {operator ty}, context.permits operator ty → reliance.permits operator ty := by
  rcases compile_ok compiled with ⟨_, unchecked, accepted⟩
  rcases Program.wellTyped_of_check unchecked accepted with ⟨context, wellTyped, permits_eq⟩
  refine ⟨context, wellTyped, ?_⟩
  intro operator ty permitted
  rw [permits_eq] at permitted
  exact permits permitted

/-- What is known of a recorded run of a script that compiles. -/
theorem recorded_ends {reliance : Reliance} (compiled : compile source file = .ok program)
    (permits : ∀ {operator ty}, (operator, some ty) ∈ program.operations →
      reliance.permits operator ty)
    (reliable : ∀ global ∈ program.globals, global.Reliable reliance) (budget : Nat)
    (limit : Option Nat) :
    (Recorded.program budget program).Ends (.initial limit)
      (fun value after => (∃ routines, after.Sound reliance routines) ∧ Orderly after.moments ∧
        reliance.holds value .integer)
      (fun halt after => (∃ routines, after.Sound reliance routines) ∧
        Stopped halt after.moments ∧ halt.isNaming = false) := by
  rcases exists_wellTyped compiled permits with ⟨context, wellTyped, permitted⟩
  exact Recorded.program_ends wellTyped permitted reliable budget limit

/-- A recorded run does what the run does, and ends as stated. -/
theorem run_ends {done : Value → Recording → Prop} {stopped : Halt → Recording → Prop}
    {budget : Nat} {limit : Option Nat}
    (ends : (Recorded.program budget program).Ends (.initial limit) done stopped) :
    (∀ value machine, Run.program budget program (.initial limit) = .ok value machine →
      ∃ after, done value after) ∧
    (∀ halt machine, Run.program budget program (.initial limit) = .error halt machine →
      ∃ after, stopped halt after) := by
  have erases := Recorded.program_erases budget program (.initial limit)
  change _ = Run.program budget program (.initial limit) at erases
  unfold Recorded.Ends at ends
  rw [← erases]
  cases result : Recorded.program budget program (.initial limit) with
  | ok value after =>
      rw [result] at ends
      constructor
      · rintro _ _ ⟨⟩
        exact ⟨after, ends⟩
      · intro _ _ impossible
        cases impossible
  | error halt after =>
      rw [result] at ends
      constructor
      · intro _ _ impossible
        cases impossible
      · rintro _ _ ⟨⟩
        exact ⟨after, ends⟩

/-- Whenever an expression has got its value, the value conforms to the type of the expression, and
at every moment of a run all live variables hold values that conform to the types that the checker
bound them to. -/
theorem values_conform (compiled : compile source file = .ok program)
    (known : program.elementsKnown = true) (budget : Nat) (limit : Option Nat) :
    let recorded := Recorded.program budget program (.initial limit)
    Recorded.forget recorded = Run.program budget program (.initial limit) ∧
      ∀ moment ∈ (Recorded.last recorded).moments,
        (∀ expr value ty, moment.event = .valued expr value → expr.ty = some ty →
          value.Conforms ty) ∧
        moment.declared.Mirrors (fun found cell => cell.value.Conforms found.ty)
          moment.machine.arena := by
  intro recorded
  refine ⟨Recorded.program_erases budget program (.initial limit), ?_⟩
  have reliable : ∀ global ∈ program.globals, global.Reliable (.conformance True) :=
    fun global member =>
      Global.reliable_of_elementsKnown True (List.all_eq_true.mp known global member)
  have ends := recorded_ends compiled ?_ reliable budget limit
  · let holds (after : Recording) : Prop := ∃ routines, after.Sound (.conformance True) routines
    rcases ends.last holds (fun _ _ done => done.1) fun _ _ stopped => stopped.1 with ⟨_, sound⟩
    intro moment member
    have soundThen := sound.moments moment member
    refine ⟨fun _ _ _ event typed => soundThen.valued event typed, ?_⟩
    exact soundThen.cells.mono fun _ _ stores => stores.1
  · exact fun _ _ _ => trivial

/-- A script with a list, an indexed assignment, a call and a quotient of whole numbers. -/
theorem values_conform_quotient : ∃ program,
    compile ("LIST l: Decimal = [1.5]; FUN f(a: Any): Integer DO RETURN 4 / 2; END " ++
      "FUN main(): Integer DO l[0] = l[0] * 2.0; RETURN f(l); END") "main.plc" = .ok program ∧
    program.elementsKnown = true ∧
    ∀ moment ∈ (Recorded.last (Recorded.program 9 program (.initial none))).moments,
      (∀ expr value ty, moment.event = .valued expr value → expr.ty = some ty →
        value.Conforms ty) ∧
      moment.declared.Mirrors (fun found cell => cell.value.Conforms found.ty)
        moment.machine.arena := by
  have evaluated : (compile
      ("LIST l: Decimal = [1.5]; FUN f(a: Any): Integer DO RETURN 4 / 2; END " ++
        "FUN main(): Integer DO l[0] = l[0] * 2.0; RETURN f(l); END")
      "main.plc").toOption.any Program.elementsKnown = true := by decide +kernel
  rcases exists_ok_of_any evaluated with ⟨program, compiled, known⟩
  exact ⟨program, compiled, known, (values_conform compiled known 9 none).2⟩

/-- A name of a script that compiles always means what it is used for: no run ends because a
variable or a function is missing, is declared twice or may not be changed. -/
theorem names_resolve (compiled : compile source file = .ok program) {budget : Nat}
    {limit : Option Nat} {halt : Halt} {machine : Machine}
    (stopped : Run.program budget program (.initial limit) = .error halt machine) :
    halt.isNaming = false := by
  have ends := recorded_ends compiled (fun _ => trivial)
    (fun global _ => global.reliable_nothing) budget limit
  rcases (run_ends ends).2 halt machine stopped with ⟨_, _, _, notNaming⟩
  exact notNaming

/-- A script that shadows a global twice, calls itself and stops for another reason. -/
theorem names_resolve_shadowed : ∃ program halt machine,
    compile ("VAR n: Integer = 0; FUN f(n: Integer): Integer DO IF n > 0 DO LET n = 0; " ++
      "RETURN 1 / n; END RETURN f(n + 1); END FUN main(): Integer DO RETURN f(n); END")
      "main.plc" = .ok program ∧
    Run.program 9 program (.initial none) = .error halt machine ∧ halt.isNaming = false := by
  have evaluated : ((compile
      ("VAR n: Integer = 0; FUN f(n: Integer): Integer DO IF n > 0 DO LET n = 0; " ++
        "RETURN 1 / n; END RETURN f(n + 1); END FUN main(): Integer DO RETURN f(n); END")
      "main.plc").toOption.any fun program =>
        (Run.value? (Run.program 9 program (.initial none))).isNone) = true := by decide +kernel
  rcases exists_ok_of_any evaluated with ⟨program, compiled, missing⟩
  rcases Run.exists_of_value?_eq_none (Option.isNone_iff_eq_none.mp missing) with
    ⟨halt, machine, stopped⟩
  exact ⟨program, halt, machine, compiled, stopped, names_resolve compiled stopped⟩

/-- A script gives a whole number, or the quotient of whole numbers, which is a decimal, or nil. It
gives nil only if its `main` function comes to the end of its body, or to a `RETURN` of a variable,
of an element or of a call. -/
theorem main_result (compiled : compile source file = .ok program)
    (known : program.elementsKnown = true) {budget : Nat} {limit : Option Nat} {value : Value}
    {machine : Machine}
    (finished : Run.program budget program (.initial limit) = .ok value machine) :
    let recorded := Recorded.mainBody budget program (.initial limit)
    Recorded.forget recorded = Run.mainBody budget program (.initial limit) ∧
    ∃ signal callee, recorded = .ok signal callee ∧ value = Run.valueOf signal ∧
      ((∃ number, value = .integer number) ∨
        (∃ number, value = .decimal number) ∧
          (Operator.divide, some Ty.integer) ∈ program.operations ∨
        value = .nil ∧
          (signal = .goOn ∨
            signal = .finish .nil ∧ ∃ moment earlier expr, callee.moments = moment :: earlier ∧
              moment.event = .offered .result (some .integer) expr .nil ∧
              expr.looksUp = true)) := by
  intro recorded
  have erases := Recorded.mainBody_erases budget program (.initial limit)
  refine ⟨erases, ?_⟩
  let quotients := (Operator.divide, some Ty.integer) ∈ program.operations
  have reliable : ∀ global ∈ program.globals, global.Reliable (.conformance quotients) :=
    fun global member =>
      Global.reliable_of_elementsKnown quotients (List.all_eq_true.mp known global member)
  have permits : ∀ {operator ty}, (operator, some ty) ∈ program.operations →
      (Reliance.conformance quotients).permits operator ty := by
    rintro operator ty occurs rfl rfl
    exact occurs
  rcases exists_wellTyped compiled permits with ⟨context, wellTyped, permitted⟩
  have ends := Recorded.mainBody_ends wellTyped permitted reliable budget limit
  rcases Run.exists_of_program_ok finished with ⟨signal, last, ran, rfl⟩
  rcases Recorded.exists_of_forget_ok (erases.trans ran) with ⟨callee, recorded_eq, _⟩
  rw [Recorded.Ends, recorded_eq] at ends
  refine ⟨signal, callee, recorded_eq, rfl, ?_⟩
  cases signal with
  | goOn => exact .inr (.inr ⟨rfl, .inl rfl⟩)
  | finish value =>
      rcases ends value rfl with ⟨conforms, moment, earlier, expr, latest, event, source⟩
      rcases Value.ConformsGiven.of_integer conforms with rfl | isInteger | isQuotient
      · rcases source rfl with looksUp | allowed
        · exact .inr (.inr ⟨rfl, .inr ⟨rfl, moment, earlier, expr, latest, event, looksUp⟩⟩)
        · cases allowed
      · exact .inl isInteger
      · exact .inr (.inl isQuotient)

/-- The element of a list may be nil, if it was given the value of a function without a `RETURN`. -/
theorem main_result_element : ∃ program machine signal callee,
    compile ("LIST l: Integer = [1]; FUN f(): Integer DO END " ++
      "FUN main(): Integer DO l[0] = f(); RETURN l[0]; END") "main.plc" = .ok program ∧
    program.elementsKnown = true ∧
    Run.program 9 program (.initial none) = .ok .nil machine ∧
    Recorded.mainBody 9 program (.initial none) = .ok signal callee ∧
    (signal = .goOn ∨
      signal = .finish .nil ∧ ∃ moment earlier expr, callee.moments = moment :: earlier ∧
        moment.event = .offered .result (some .integer) expr .nil ∧ expr.looksUp = true) := by
  have evaluated : ((compile
      ("LIST l: Integer = [1]; FUN f(): Integer DO END " ++
        "FUN main(): Integer DO l[0] = f(); RETURN l[0]; END")
      "main.plc").toOption.any fun program => program.elementsKnown &&
        (Run.value? (Run.program 9 program (.initial none))).any (·.same .nil)) = true := by
    decide +kernel
  rcases exists_ok_of_any evaluated with ⟨program, compiled, passes⟩
  rcases Bool.and_eq_true_iff.mp passes with ⟨known, some_nil⟩
  rcases (Option.any_eq_true _ _).mp some_nil with ⟨value, found, same⟩
  cases Value.eq_nil_of_same same
  rcases Run.exists_of_value? found with ⟨machine, finished⟩
  rcases (main_result compiled known finished).2 with ⟨signal, callee, ran, _, result⟩
  refine ⟨program, machine, signal, callee, compiled, known, finished, ran, ?_⟩
  rcases result with ⟨_, isInteger⟩ | ⟨⟨_, isDecimal⟩, _⟩ | ⟨_, source⟩
  · cases isInteger
  · cases isDecimal
  · exact source

/-- A script may give a decimal, and it may return nil. -/
theorem main_result_not_integer :
    (∃ program number machine,
      compile "FUN main(): Integer DO RETURN 4 / 2; END" "main.plc" = .ok program ∧
      Run.program 9 program (.initial none) = .ok (.decimal number) machine) ∧
    ∃ program machine moment expr,
      compile "FUN main(): Integer DO LET x: Integer; RETURN x; END" "main.plc" = .ok program ∧
      Run.program 9 program (.initial none) = .ok .nil machine ∧
      moment ∈ (Recorded.last (Recorded.program 9 program (.initial none))).moments ∧
      moment.event = .offered .result (some .integer) expr .nil := by
  constructor
  · have evaluated : ((compile "FUN main(): Integer DO RETURN 4 / 2; END"
        "main.plc").toOption.any fun program =>
          (Run.value? (Run.program 9 program (.initial none))).any fun value =>
            value.same (.decimal (.ofInteger 2))) = true := by decide +kernel
    rcases exists_ok_of_any evaluated with ⟨program, compiled, passes⟩
    rcases (Option.any_eq_true _ _).mp passes with ⟨value, found, same⟩
    rcases Value.exists_decimal_of_same same with ⟨number, rfl⟩
    rcases Run.exists_of_value? found with ⟨machine, finished⟩
    exact ⟨program, number, machine, compiled, finished⟩
  · have evaluated : ((compile "FUN main(): Integer DO LET x: Integer; RETURN x; END"
        "main.plc").toOption.any fun program =>
          (Run.value? (Run.program 9 program (.initial none))).any (·.same .nil) &&
          (Recorded.last (Recorded.program 9 program (.initial none))).moments.any fun moment =>
            moment.event.offers .result .integer fun _ value => value.same .nil) = true := by
      decide +kernel
    rcases exists_ok_of_any evaluated with ⟨program, compiled, passes⟩
    rcases Bool.and_eq_true_iff.mp passes with ⟨some_nil, returned⟩
    rcases (Option.any_eq_true _ _).mp some_nil with ⟨value, found, same⟩
    cases Value.eq_nil_of_same same
    rcases Run.exists_of_value? found with ⟨machine, finished⟩
    rcases List.any_eq_true.mp returned with ⟨moment, member, offers⟩
    rcases Event.exists_of_offers offers with ⟨expr, other, event, otherSame⟩
    cases Value.eq_nil_of_same otherSame
    exact ⟨program, machine, moment, expr, compiled, finished, member, event⟩

end Script

end GradualScript
