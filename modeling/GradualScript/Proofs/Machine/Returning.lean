import GradualScript.Proofs.Machine.Conduct
import GradualScript.Proofs.Machine.Soundness

/-!
# How `main` ends

The value of a program does not tell whether its `main` function came to a `RETURN` or to the end of
its body. `Run.mainBody` runs a program up to there and tells which it was: a program that ends with
a value is one whose `main` ended so. For a well-typed program, what a `RETURN` gives is a whole
number as far as types can be relied on, and a nil that it gives was looked up.
-/

namespace GradualScript

namespace Run

variable {α β : Type}

/-- Runs the body of a function for a caller, and stays where it ends. -/
def runBody (function : Function) (closure : ScopeId) (arguments : List Value)
    (body : Run Signal) : Run Signal := fun caller =>
  let (inner, id) := (caller.calling closure (function.binding.map Signature.result)).enter
  (bindArguments id function.span.start function.parameters arguments >>= fun _ => body) inner

/-- Runs the function that a name means up to where its body ends. -/
def callBody : Nat → String → List Value → Option Position → Run Signal
  | 0, _, _, _ => throw .exhausted
  | budget + 1, name, arguments, position => do
    match ← routineAt name arguments.length position with
    | .builtIn function => return .finish (← callNative function arguments position)
    | .written function closure =>
      runBody function closure arguments (executeAll (call budget) budget function.body)

/-- Runs a program up to where the body of its `main` function ends. -/
def mainBody (budget : Nat) (program : Program) : Run Signal := do
  setUpGlobals budget program.globals
  setUpFunctions program.functions
  callBody budget Checker.mainName [] none

variable {before after : Machine} {value : Value}

theorem exists_of_bind_ok {first : Run α} {next : α → Run β} {result : β}
    (made : (first >>= next) before = .ok result after) :
    ∃ value middle, first before = .ok value middle ∧ next value middle = .ok result after := by
  simp only [Bind.bind, EStateM.bind] at made
  cases ran : first before with
  | ok value middle =>
      rw [ran] at made
      exact ⟨value, middle, rfl, made⟩
  | error halt middle =>
      rw [ran] at made
      cases made

theorem enterFunction_eq_runBody (function : Function) (closure : ScopeId) (arguments : List Value)
    (body : Run Signal) (caller : Machine) :
    enterFunction function closure arguments body caller =
      match runBody function closure arguments body caller with
      | .ok signal callee => .ok (valueOf signal) (caller.resume callee)
      | .error halt callee => .error halt (caller.resume callee) := by
  rw [enterFunction_eq, seqRight_eq_bind]
  rfl

/-- A function that gives a value has a body that ends with it. -/
theorem exists_of_enterFunction_ok {function : Function} {closure : ScopeId}
    {arguments : List Value} {body : Run Signal}
    (entered : enterFunction function closure arguments body before = .ok value after) :
    ∃ signal callee, runBody function closure arguments body before = .ok signal callee ∧
      value = valueOf signal := by
  rw [enterFunction_eq_runBody] at entered
  cases ran : runBody function closure arguments body before with
  | ok signal callee =>
      rw [ran] at entered
      cases entered
      exact ⟨signal, callee, rfl, rfl⟩
  | error halt callee =>
      rw [ran] at entered
      cases entered

theorem exists_of_call_ok {budget : Nat} {name : String} {arguments : List Value}
    {position : Option Position}
    (called : call budget name arguments position before = .ok value after) :
    ∃ signal callee, callBody budget name arguments position before = .ok signal callee ∧
      value = valueOf signal := by
  cases budget with
  | zero => cases called
  | succ budget =>
      rcases exists_of_bind_ok called with ⟨routine, middle, found, ran⟩
      rw [callBody, bind_of_ok found]
      cases routine with
      | builtIn function => exact ⟨.finish value, after, bind_of_ok ran _, rfl⟩
      | written function closure => exact exists_of_enterFunction_ok ran

/-- A program that gives a value has a `main` function whose body ends with it. -/
theorem exists_of_program_ok {budget : Nat} {program : Program}
    (ran : Run.program budget program before = .ok value after) :
    ∃ signal callee, mainBody budget program before = .ok signal callee ∧
      value = valueOf signal := by
  rcases exists_of_bind_ok ran with ⟨_, first, globals, ran⟩
  rcases exists_of_bind_ok ran with ⟨_, second, functions, called⟩
  rw [mainBody, bind_of_ok globals, bind_of_ok functions]
  exact exists_of_call_ok called

end Run

namespace Recorded

/-- Runs the function that a name means up to where its body ends. -/
def callBody : Nat → String → List Value → Option Position → Recorded Signal
  | 0, _, _, _ => throw .exhausted
  | budget + 1, name, arguments, position => do
    match ← perform (Run.routineAt name arguments.length position) with
    | .builtIn function =>
      return .finish (← perform (Run.callNative function arguments position))
    | .written function closure =>
      runBody function closure arguments (executeAll (call budget) budget function.body)

/-- Runs a program up to where the body of its `main` function ends. -/
def mainBody (budget : Nat) (program : Program) : Recorded Signal := do
  setUpGlobals budget program.globals
  perform (Run.setUpFunctions program.functions)
  callBody budget Checker.mainName [] none

theorem exists_of_forget_ok {α : Type} {outcome : EStateM.Result Halt Recording α} {value : α}
    {machine : Machine} (forgotten : forget outcome = .ok value machine) :
    ∃ recording, outcome = .ok value recording ∧ recording.machine = machine := by
  cases outcome with
  | ok other recording =>
      cases forgotten
      exact ⟨recording, rfl, rfl⟩
  | error halt recording => cases forgotten

theorem callBody_erases (budget : Nat) (name : String) (arguments : List Value)
    (position : Option Position) :
    Erases (callBody budget name arguments position)
      (Run.callBody budget name arguments position) := by
  cases budget with
  | zero => exact .throw _
  | succ budget =>
      refine (Erases.perform _).bind fun routine => ?_
      cases routine with
      | builtIn function => exact (Erases.perform _).bind fun _ => .pure _
      | written function closure =>
          have body := executeAll_erases (call_erases budget) budget function.body
          intro caller
          exact ((bindArguments_erases _ _ _ _).bind fun _ => body)
            (caller.calling function closure).enter.1

/-- Without its notes, this is what a program does up to where `main` ends. -/
theorem mainBody_erases (budget : Nat) (program : Program) :
    Erases (mainBody budget program) (Run.mainBody budget program) := by
  refine (setUpGlobals_erases budget program.globals).bind fun _ => ?_
  exact (Erases.perform _).bind fun _ => callBody_erases budget _ _ _

/-- What a `RETURN` of `main` gives is a whole number as far as types can be relied on, and if it is
nil then it was looked up. -/
theorem mainBody_ends {reliance : Reliance} {context : Context} {program : Program}
    (wellTyped : program.WellTyped context)
    (permits : ∀ {operator ty}, context.permits operator ty → reliance.permits operator ty)
    (reliable : ∀ global ∈ program.globals, global.Reliable reliance) (budget : Nat)
    (limit : Option Nat) :
    (mainBody budget program).Ends (.initial limit)
      (fun signal callee => ∀ value, signal = .finish value →
        reliance.holds value .integer ∧ callee.Returned .integer value)
      fun _ _ => True := by
  have setUp := setUp_ends wellTyped permits reliable budget limit
  rw [mainBody, ← bind_assoc]
  refine (setUp.mono (fun _ _ done => done) fun _ _ _ => trivial).bind ?_
  rintro _ caller ⟨routines, supports, ready⟩
  cases budget with
  | zero => trivial
  | succ budget =>
      rcases wellTyped.main with ⟨signature, known, isInteger⟩
      rcases supports.functions.find?_some known with ⟨routine, found, implements⟩
      have named : Computes reliance routines ([] ++ [context.globals])
          (perform (Run.routineAt Checker.mainName 0 none)) (· = routine) :=
        .routineAt found none
      refine ((named caller ready).mono (fun _ _ done => done) fun _ _ _ => trivial).bind ?_
      rintro _ middle ⟨_, readyMiddle, rfl⟩
      cases implements with
      | @builtIn function stated =>
          -- no native function does without arguments
          have arity := supports.arity known
          rw [← stated] at arity
          cases function with
          | print => cases arity
      | @written function bound _ result arity accepted =>
          rcases accepted.body with ⟨after, bodyAccepted⟩
          have runs := executeAll_runs function.body bodyAccepted supports
            (call_sound supports budget) budget
          have noArguments : function.parameters.length = ([] : List Value).length :=
            arity.trans (supports.arity known)
          have ends := runBody_ends bound result accepted.distinct noArguments runs readyMiddle
          refine ends.mono ?_ fun _ _ _ => trivial
          intro signal callee reaches
          rw [isInteger] at reaches
          exact reaches.finish

end Recorded

end GradualScript
