import GradualScript.Proofs.Machine.Conduct

/-!
# What has been printed stays printed

Most of what a run does to a machine prints nothing, and what prints adds to what was printed
before. So whatever a run comes to, the output of the machine is what it was, and maybe more.
-/

namespace GradualScript

namespace Run

variable {α : Type}

/-- The machine that a run leaves behind. -/
def machineOf : EStateM.Result Halt Machine α → Machine
  | .ok _ machine => machine
  | .error _ machine => machine

end Run

namespace Machine

variable {before middle after : Machine}

/-- Whether a machine has the output of an earlier one, and has lost no scope. -/
structure Keeps (before after : Machine) : Prop where
  sink : after.sink = before.sink
  depth : before.arena.depth ≤ after.arena.depth

/-- Whether a machine has printed what an earlier one had, and maybe more. -/
def Extends (before after : Machine) : Prop :=
  ∃ more, after.sink.written = before.sink.written ++ more

theorem Keeps.refl (machine : Machine) : machine.Keeps machine :=
  ⟨rfl, Nat.le_refl _⟩

theorem Keeps.trans (earlier : before.Keeps middle) (later : middle.Keeps after) :
    before.Keeps after :=
  ⟨later.sink.trans earlier.sink, Nat.le_trans earlier.depth later.depth⟩

theorem Extends.of_sink (same : after.sink = before.sink) : before.Extends after :=
  ⟨.empty, by rw [same, ByteArray.append_empty]⟩

theorem Extends.trans (earlier : before.Extends middle) (later : middle.Extends after) :
    before.Extends after := by
  rcases earlier with ⟨first, middle_eq⟩
  rcases later with ⟨second, after_eq⟩
  exact ⟨first ++ second, by rw [after_eq, middle_eq, ByteArray.append_assoc]⟩

end Machine

namespace Run

variable {α β : Type}

/-! ## Runs that print nothing -/

/-- Whether a run prints nothing and loses no scope. -/
def Quiet (run : Run α) : Prop :=
  ∀ machine : Machine, machine.Keeps (machineOf (run machine))

theorem Quiet.pure (value : α) : Quiet (Pure.pure value : Run α) :=
  fun machine => .refl machine

theorem Quiet.throw (halt : Halt) : Quiet (MonadExcept.throw halt : Run α) :=
  fun machine => .refl machine

theorem Quiet.bind {run : Run α} {next : α → Run β} (quiet : run.Quiet)
    (rest : ∀ value, (next value).Quiet) : (run >>= next).Quiet := by
  intro machine
  have first := quiet machine
  simp only [Bind.bind, EStateM.bind]
  cases outcome : run machine with
  | ok value after =>
      rw [outcome] at first
      exact first.trans (rest value after)
  | error halt after =>
      rw [outcome] at first
      exact first

theorem Quiet.after_get {next : Machine → Run α}
    (rest : ∀ machine : Machine, machine.Keeps (machineOf (next machine machine))) :
    (get >>= next).Quiet :=
  rest

theorem Quiet.ofExcept (outcome : Except Halt α) : (Run.ofExcept outcome).Quiet := by
  cases outcome with
  | ok value => exact .pure value
  | error halt => exact .throw halt

theorem Quiet.ofCause (position : Position) (outcome : Except Cause α) :
    (Run.ofCause position outcome).Quiet := by
  cases outcome with
  | ok value => exact .pure value
  | error cause => exact .throw _

theorem Quiet.enforce (expr : Expr) (target : Option Ty) (value : Value) :
    (Run.enforce expr target value).Quiet := by
  unfold Run.enforce
  split
  · split
    · exact .throw _
    · exact .pure ()
  · exact .pure ()

theorem Quiet.define (id : ScopeId) (name : String) (cell : Cell) (position : Position) :
    (Run.define id name cell position).Quiet := by
  refine .after_get fun machine => ?_
  simp only [Bind.bind, EStateM.bind]
  cases added : machine.arena.addVariable id name cell position with
  | error halt => exact .refl machine
  | ok arena =>
      rcases Arena.addVariable_eq_ok_iff.mp added with ⟨_, _, _, rfl⟩
      exact ⟨rfl, Nat.le_of_eq (Array.size_modify ..).symm⟩

theorem Quiet.cellAt (name : String) (position : Position) :
    (Run.cellAt name position).Quiet := by
  refine .after_get fun machine => Quiet.bind (.ofExcept _) (fun found => ?_) machine
  cases found with
  | some cell => exact .pure cell
  | none => exact .throw _

theorem Quiet.reassign (name : String) (cell : Cell) (position : Position) :
    (Run.reassign name cell position).Quiet := by
  refine .after_get fun machine => ?_
  simp only [Bind.bind, EStateM.bind]
  cases assigned : machine.arena.assign machine.current name cell with
  | error halt => exact .refl machine
  | ok found =>
      cases found with
      | none => exact .refl machine
      | some arena => exact ⟨rfl, Nat.le_of_eq (Arena.depth_assign assigned).symm⟩

theorem Quiet.store (name : String) (index : Option Int64) (value : Value)
    (position : Position) : (Run.store name index value position).Quiet := by
  refine (Quiet.cellAt name position).bind fun cell => ?_
  rcases cell with ⟨old, isMutable⟩
  cases isMutable with
  | false => exact .throw _
  | true =>
      cases index with
      | none => exact .reassign name _ position
      | some index => exact (Quiet.ofCause _ _).bind fun _ => .reassign name _ position

theorem Quiet.bindArguments (id : ScopeId) (position : Position) (parameters : List Parameter)
    (values : List Value) : (Run.bindArguments id position parameters values).Quiet := by
  induction parameters generalizing values with
  | nil => exact .pure ()
  | cons parameter parameters ih =>
      cases values with
      | nil => exact .pure ()
      | cons value values => exact (Quiet.define _ _ _ _).bind fun _ => ih values

theorem Quiet.setUpFunctions (functions : List Function) :
    (Run.setUpFunctions functions).Quiet := by
  induction functions with
  | nil => exact .pure ()
  | cons function others ih =>
      refine .after_get fun machine => ?_
      simp only [Bind.bind, EStateM.bind]
      cases added : machine.arena.addFunction Arena.root function.name function.arity
          (.written function Arena.root) function.span.start with
      | error halt => exact .refl machine
      | ok arena =>
          have kept : machine.Keeps { machine with arena } := by
            rcases Arena.addFunction_eq_ok_iff.mp added with ⟨_, _, _, rfl⟩
            exact ⟨rfl, Nat.le_of_eq (Array.size_modify ..).symm⟩
          exact kept.trans (ih _)

/-! ## Runs that print -/

/-- Whether what has been printed before a run stays printed. -/
def Grows (run : Run α) : Prop :=
  ∀ machine : Machine, machine.Extends (machineOf (run machine))

theorem Quiet.grows {run : Run α} (quiet : run.Quiet) : run.Grows :=
  fun machine => .of_sink (quiet machine).sink

theorem Grows.pure (value : α) : Grows (Pure.pure value : Run α) :=
  (Quiet.pure value).grows

/-- What has been printed by the first part of a run stays printed. -/
theorem Grows.extends_bind {next : α → Run β} (grows : ∀ value, (next value).Grows) (run : Run α)
    (machine : Machine) :
    (machineOf (run machine)).Extends (machineOf ((run >>= next) machine)) := by
  simp only [Bind.bind, EStateM.bind]
  cases run machine with
  | ok value after => exact grows value after
  | error halt after => exact .of_sink rfl

theorem Grows.bind {run : Run α} {next : α → Run β} (grows : run.Grows)
    (rest : ∀ value, (next value).Grows) : (run >>= next).Grows :=
  fun machine => (grows machine).trans (extends_bind rest run machine)

/-- What a scope is left with was printed inside it. -/
theorem sink_inScope (run : Run α) (machine : Machine) :
    (machineOf (Run.inScope run machine)).sink = (machineOf (run machine.enter.1)).sink := by
  simp only [Run.inScope]
  cases run machine.enter.1 with
  | ok value inner =>
      rcases inner.leave_cases machine.enter.2 with left | ⟨current, left⟩
      · simp only [left, machineOf]
      · simp only [left, machineOf]
  | error halt inner =>
      rcases inner.leave_cases machine.enter.2 with left | ⟨current, left⟩
      · simp only [left, machineOf]
      · simp only [left, machineOf]

/-- What a function comes back with was printed by its body. -/
theorem sink_enterFunction (function : Function) (closure : ScopeId) (arguments : List Value)
    (body : Run Signal) (caller : Machine) :
    let entered := (caller.calling closure (function.binding.map Signature.result)).enter
    (machineOf (Run.enterFunction function closure arguments body caller)).sink =
      (machineOf ((Run.bindArguments entered.2 function.span.start function.parameters arguments *>
        body) entered.1)).sink := by
  intro entered
  rw [enterFunction_eq]
  generalize (Run.bindArguments _ _ _ _ *> body) _ = result
  cases result with
  | ok signal callee => rfl
  | error halt callee => rfl

/-! ## Whole programs -/

/-- The conduct of runs that keep what a machine has printed. -/
def growing (start : Machine) : Conduct fun _ => True where
  holds := fun _ sink => ∃ more, sink.written = start.sink.written ++ more
  stops := fun _ => True
  push := fun _ holds => holds
  dropFrom := fun _ holds => holds
  put := fun _ _ _ holds => holds
  give := fun _ _ _ holds => holds
  putFunction := fun _ _ _ _ holds => holds
  routines := by
    intro _ _ _ _ _ _ _ routine _
    cases routine with
    | builtIn function => trivial
    | written function closure => exact function.placed_anywhere
  write := by
    rintro _ sink text ⟨more, written⟩
    refine ⟨more ++ text.toUTF8.extract 0 (sink.room text.toUTF8.size), ?_⟩
    rw [← ByteArray.append_assoc, ← written]
    rfl
  refused := fun _ _ _ _ => trivial
  naming := fun _ => trivial
  exhausted := trivial
  blames := fun _ => trivial

theorem Grows.abides {run : Run α} (grows : run.Grows) (start : Machine) :
    Abides (growing start) run := by
  intro machine before
  have after : start.Extends (machineOf (run machine)) := .trans before (grows machine)
  cases ran : run machine with
  | ok value last =>
      rw [ran] at after
      exact .ok after
  | error halt last =>
      rw [ran] at after
      exact .error after trivial

theorem grows_of_abides {run : Run α} (abides : ∀ start, Abides (growing start) run) :
    run.Grows := by
  intro machine
  have allowed := abides machine machine (Machine.Extends.of_sink rfl)
  cases ran : run machine with
  | ok value last =>
      rw [ran] at allowed
      cases allowed with
      | ok holds => exact holds
  | error halt last =>
      rw [ran] at allowed
      cases allowed with
      | error holds _ => exact holds

/-- Whether what has been printed before a call stays printed. -/
def CallsGrow (call : Caller) : Prop :=
  ∀ name arguments position, (call name arguments position).Grows

theorem evaluateArguments_grows {call : Caller} (calls : CallsGrow call) (targets : List Ty)
    (arguments : List Expr) : (evaluateArguments call targets arguments).Grows :=
  grows_of_abides fun start =>
    evaluateArguments_abides (fun _ _ _ => (calls _ _ _).abides start) targets arguments
      (Expr.allPlaced_anywhere arguments)

theorem Grows.inScope {run : Run α} (grows : run.Grows) : (Run.inScope run).Grows :=
  grows_of_abides fun start => (grows.abides start).inScope

theorem Grows.callNative (function : Native) (arguments : List Value)
    (position : Option Position) : (Run.callNative function arguments position).Grows :=
  grows_of_abides fun _ => .callNative function arguments position

theorem repeatWhile_grows {test : Run Bool} {body : Run Signal} (tests : test.Grows)
    (bodies : body.Grows) (budget : Nat) : (repeatWhile test body budget).Grows :=
  grows_of_abides fun start => repeatWhile_abides (tests.abides start) (bodies.abides start) budget

theorem call_grows (budget : Nat) : CallsGrow (Run.call budget) :=
  fun name arguments position =>
    grows_of_abides fun start => call_abides (growing start) budget name arguments position

end Run

end GradualScript
