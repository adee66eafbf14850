import GradualScript.Proofs.Machine.Budget
import GradualScript.Proofs.Machine.Printing

/-!
# Output with a limit

A machine whose sink has a limit goes the way of one whose sink has none, until a text does not fit.
Then it stops, and the other one goes on. Both runs are followed together: the one without a limit
is recorded, since its notes tell which call has printed the text. `Recorded.Truncated` says how the
two end. As long as all output fits they end in the same way. Once it does not, the run with the
limit has stopped at the call that is noted first with more output, and holds the first bytes of
what the other has printed.

The call of `print` is the only step that a limit can stop. It is seen to go past the limit before
its value is noted, and for that moment there is `Recorded.Overruns`.
-/

namespace GradualScript

/-! ## Machines with a limit -/

/-- A machine that may print at most some number of bytes. -/
def Machine.limited (limit : Nat) (machine : Machine) : Machine :=
  { machine with sink := ⟨some limit, machine.sink.written⟩ }

/-- Whether a machine is another one with a limit. -/
def Machine.Limits (limit : Nat) (left right : Machine) : Prop := right = left.limited limit

/-- The halt of a run that stopped because its output was refused. -/
def Halt.refused (position : Position) : Halt :=
  .reported (.located (.outputFailed Sink.refusal) position)

namespace Run

variable {α : Type} {limit : Nat}

open Machine (Limits)

theorem Alike.get {next : Machine → Run α}
    (rest : ∀ machine, SameOutcome (Limits limit) (next machine machine)
      (next (machine.limited limit) (machine.limited limit))) :
    Alike (Limits limit) (get >>= next) (get >>= next) := by
  rintro machine _ rfl
  exact rest machine

theorem Alike.ofExcept {related : Machine → Machine → Prop} (outcome : Except Halt α) :
    Alike related (Run.ofExcept outcome) (Run.ofExcept outcome) := by
  cases outcome with
  | ok value => exact .pure value
  | error halt => exact .throw halt

theorem Alike.enforce {related : Machine → Machine → Prop} (expr : Expr) (target : Option Ty)
    (value : Value) :
    Alike related (Run.enforce expr target value) (Run.enforce expr target value) := by
  unfold Run.enforce
  split
  · split
    · exact .throw _
    · exact .pure ()
  · exact .pure ()

theorem cellAt_limited (name : String) (position : Position) :
    Alike (Limits limit) (cellAt name position) (cellAt name position) := by
  refine .get fun machine => (Alike.bind (.ofExcept _) fun found => ?_) _ _ rfl
  cases found with
  | some cell => exact .pure cell
  | none => exact .throw _

theorem define_limited (id : ScopeId) (name : String) (cell : Cell) (position : Position) :
    Alike (Limits limit) (define id name cell position) (define id name cell position) := by
  refine .get fun machine => ?_
  change SameOutcome _ ((ofExcept (machine.arena.addVariable id name cell position) >>= _) machine)
    ((ofExcept (machine.arena.addVariable id name cell position) >>= _) (machine.limited limit))
  cases machine.arena.addVariable id name cell position with
  | ok arena => exact .value rfl
  | error halt => exact .halt rfl

theorem reassign_limited (name : String) (cell : Cell) (position : Position) :
    Alike (Limits limit) (reassign name cell position) (reassign name cell position) := by
  refine .get fun machine => ?_
  change SameOutcome _ ((ofExcept (machine.arena.assign machine.current name cell) >>= _) machine)
    ((ofExcept (machine.arena.assign machine.current name cell) >>= _) (machine.limited limit))
  cases machine.arena.assign machine.current name cell with
  | ok found =>
      cases found with
      | some arena => exact .value rfl
      | none => exact .halt rfl
  | error halt => exact .halt rfl

theorem setUpFunctions_limited (functions : List Function) :
    Alike (Limits limit) (setUpFunctions functions) (setUpFunctions functions) := by
  induction functions with
  | nil => exact .pure ()
  | cons function others ih =>
      refine .get fun machine => ?_
      change SameOutcome _ ((ofExcept (machine.arena.addFunction Arena.root function.name
          function.arity (.written function Arena.root) function.span.start) >>= _) machine)
        ((ofExcept (machine.arena.addFunction Arena.root function.name function.arity
          (.written function Arena.root) function.span.start) >>= _) (machine.limited limit))
      cases machine.arena.addFunction Arena.root function.name function.arity
          (.written function Arena.root) function.span.start with
      | ok arena => exact ih _ _ rfl
      | error halt => exact .halt rfl

end Run

/-! ## Recordings within a limit -/

/-- Whether a moment is the one at which the call of `print` at a position has got its value, and
the values that it printed stand behind what was there already. -/
structure Moment.Prints (moment : Moment) (position : Position) (already : ByteArray)
    (values : List Value) : Prop where
  call : ∃ span ty name binding arguments,
    moment.event = .valued (.call span ty name binding arguments) .nil ∧ span.start = position ∧
    values.length = arguments.length ∧
    moment.machine.arena.findFunction moment.machine.current name arguments.length =
      .ok (some (.builtIn .print))
  output : moment.machine.sink.written = already ++ Value.printed values

/-- Whether it was the call of `print` at a position with which output first went past a limit. -/
def PrintsPast (limit : Nat) (position : Position) (moments : List Moment) : Prop :=
  ∃ later moment earlier already values, moments = later ++ moment :: earlier ∧
    moment.Prints position already values ∧ already.size ≤ limit ∧
    limit < moment.machine.sink.written.size ∧
    ∀ other ∈ earlier, other.machine.sink.written.size ≤ limit

namespace Recording

variable {limit : Nat} {before middle after : Recording}

/-- Whether nothing is refused, and all that was ever printed is within a limit. -/
structure Within (limit : Nat) (recording : Recording) : Prop where
  unlimited : recording.machine.sink.limit = none
  fits : recording.machine.sink.written.size ≤ limit
  earlier : ∀ moment ∈ recording.moments, moment.machine.sink.written.size ≤ limit

/-- Whether a later recording has the moments and the output of an earlier one, and maybe more. -/
structure Extends (before after : Recording) : Prop where
  moments : ∃ newer, after.moments = newer ++ before.moments
  output : before.machine.Extends after.machine

theorem Extends.of_eq (moments : after.moments = before.moments)
    (sink : after.machine.sink = before.machine.sink) : before.Extends after :=
  ⟨⟨[], moments⟩, .of_sink sink⟩

theorem Extends.trans (earlier : before.Extends middle) (later : middle.Extends after) :
    before.Extends after := by
  rcases earlier.moments with ⟨older, olderEq⟩
  rcases later.moments with ⟨newer, newerEq⟩
  refine ⟨⟨newer ++ older, ?_⟩, earlier.output.trans later.output⟩
  rw [newerEq, olderEq, List.append_assoc]

theorem Within.of_eq (within : before.Within limit) (moments : after.moments = before.moments)
    (sink : after.machine.sink = before.machine.sink) : after.Within limit := by
  refine ⟨?_, ?_, ?_⟩
  · rw [sink]
    exact within.unlimited
  · rw [sink]
    exact within.fits
  · rw [moments]
    exact within.earlier

theorem Within.sink_eq (within : before.Within limit) :
    before.machine.sink = ⟨none, before.machine.sink.written⟩ := by
  rw [← within.unlimited]

end Recording

theorem PrintsPast.later {limit : Nat} {position : Position} {moments newer : List Moment}
    (past : PrintsPast limit position moments) : PrintsPast limit position (newer ++ moments) := by
  rcases past with ⟨later, moment, earlier, already, values, rfl, rest⟩
  exact ⟨newer ++ later, moment, earlier, already, values, by simp, rest⟩

namespace Recorded

variable {α β : Type} {limit depth : Nat}

open Machine (Limits)

/-- How a recorded run without a limit and a run with one end, which started with some number of
scopes. -/
inductive Truncated (limit depth : Nat) :
    EStateM.Result Halt Recording α → EStateM.Result Halt Machine α → Prop
  /-- All output fits, and both end in the same way. -/
  | within {left : EStateM.Result Halt Recording α} {right : EStateM.Result Halt Machine α}
      (inside : (last left).Within limit)
      (same : Run.SameOutcome (Limits limit) (forget left) right)
      (deep : depth ≤ (last left).machine.arena.depth) : Truncated limit depth left right
  /-- The second run has stopped at the call that printed too much. -/
  | beyond {left : EStateM.Result Halt Recording α} {position : Position} {after : Machine}
      (past : PrintsPast limit position (last left).moments)
      (more : limit < (last left).machine.sink.written.size)
      (written : after.sink.written = (last left).machine.sink.written.extract 0 limit)
      (deep : depth ≤ after.arena.depth) :
      Truncated limit depth left (.error (.refused position) after)

/-- Whether what is recorded before a run stays recorded. -/
def Grows (recorded : Recorded α) : Prop :=
  ∀ before : Recording, before.Extends (last (recorded before))

/-- Whether a limit only truncates what a run does, from wherever output is within the limit. -/
structure Truncates (limit : Nat) (recorded : Recorded α) (run : Run α) : Prop where
  grows : recorded.Grows
  truncated : ∀ before : Recording, before.Within limit →
    Truncated limit before.machine.arena.depth (recorded before)
      (run (before.machine.limited limit))

theorem Grows.pure (value : α) : Grows (Pure.pure value : Recorded α) :=
  fun _ => .of_eq rfl rfl

theorem Grows.bind {recorded : Recorded α} {next : α → Recorded β} (grows : recorded.Grows)
    (rest : ∀ value, (next value).Grows) : (recorded >>= next).Grows := by
  intro before
  have first := grows before
  simp only [Bind.bind, EStateM.bind]
  cases ran : recorded before with
  | ok value after =>
      rw [ran] at first
      exact first.trans (rest value after)
  | error halt after =>
      rw [ran] at first
      exact first

theorem last_perform (run : Run α) (before : Recording) :
    last (perform run before) =
      { before with machine := Run.machineOf (run before.machine) } := by
  unfold perform
  cases run before.machine with
  | ok value machine => rfl
  | error halt machine => rfl

theorem Grows.perform {run : Run α} (grows : run.Grows) : (Recorded.perform run).Grows := by
  intro before
  rw [last_perform]
  exact ⟨⟨[], rfl⟩, grows before.machine⟩

namespace Truncated

/-- Where the second run has stopped, it does not matter how the first goes on. -/
theorem later {left : EStateM.Result Halt Recording α} {other : EStateM.Result Halt Recording β}
    {position : Position} {after outer : Machine} {fewer : Nat}
    (past : PrintsPast limit position (last left).moments)
    (more : limit < (last left).machine.sink.written.size)
    (written : after.sink.written = (last left).machine.sink.written.extract 0 limit)
    (further : (last left).Extends (last other)) (sink : outer.sink = after.sink)
    (deep : fewer ≤ outer.arena.depth) :
    Truncated limit fewer other (.error (.refused position) outer) := by
  rcases further.moments with ⟨newer, moments⟩
  rcases further.output with ⟨bytes, output⟩
  apply beyond
  · rw [moments]
    exact past.later
  · rw [output, ByteArray.size_append]
    omega
  · rw [sink, written, output, Sink.extract_append_of_le (Nat.le_of_lt more)]
  · exact deep

theorem mono {left : EStateM.Result Halt Recording α} {right : EStateM.Result Halt Machine α}
    {fewer : Nat} (truncated : Truncated limit depth left right) (lower : fewer ≤ depth) :
    Truncated limit fewer left right := by
  cases truncated with
  | within inside same deep => exact .within inside same (Nat.le_trans lower deep)
  | beyond past more written deep => exact .beyond past more written (Nat.le_trans lower deep)

theorem bind {recorded : Recorded α} {run : Run α} {next : α → Recorded β} {runNext : α → Run β}
    {before : Recording} {machine : Machine}
    (first : Truncated limit depth (recorded before) (run machine))
    (grows : ∀ value, (next value).Grows)
    (rest : ∀ value after, recorded before = .ok value after → after.Within limit →
      Truncated limit after.machine.arena.depth (next value after)
        (runNext value (after.machine.limited limit))) :
    Truncated limit depth ((recorded >>= next) before) ((run >>= runNext) machine) := by
  simp only [Bind.bind, EStateM.bind]
  generalize onLeft : recorded before = left at first
  generalize run machine = right at first
  cases first with
  | within inside same deep =>
      cases left with
      | ok value after =>
          cases same with
          | value limits =>
              cases limits
              exact (rest value after onLeft inside).mono deep
      | error halt after =>
          cases same with
          | halt limits => exact .within inside (.halt limits) deep
  | beyond past more written deep =>
      refine later past more written ?_ rfl deep
      cases left with
      | ok value after => exact grows value after
      | error halt after => exact .of_eq rfl rfl

end Truncated

namespace Truncates

theorem pure (value : α) : Truncates limit (Pure.pure value : Recorded α) (Pure.pure value) :=
  ⟨.pure value, fun _ within => .within within (.value rfl) (Nat.le_refl _)⟩

theorem throw (halt : Halt) :
    Truncates limit (MonadExcept.throw halt : Recorded α) (MonadExcept.throw halt) :=
  ⟨fun _ => .of_eq rfl rfl, fun _ within => .within within (.halt rfl) (Nat.le_refl _)⟩

theorem bind {recorded : Recorded α} {run : Run α} {next : α → Recorded β} {runNext : α → Run β}
    (truncates : Truncates limit recorded run)
    (rest : ∀ value, Truncates limit (next value) (runNext value)) :
    Truncates limit (recorded >>= next) (run >>= runNext) := by
  refine ⟨truncates.grows.bind fun value => (rest value).grows, fun before within => ?_⟩
  exact (truncates.truncated before within).bind (fun value => (rest value).grows)
    fun value after _ inside => (rest value).truncated after inside

theorem ite {condition : Prop} [Decidable condition] {first second : Recorded α}
    {runFirst runSecond : Run α} (whenTrue : Truncates limit first runFirst)
    (whenFalse : Truncates limit second runSecond) :
    Truncates limit (if condition then first else second)
      (if condition then runFirst else runSecond) := by
  split
  · exact whenTrue
  · exact whenFalse

/-- What prints nothing is the same with a limit. -/
theorem perform {run : Run α} (quiet : run.Quiet) (alike : Run.Alike (Limits limit) run run) :
    Truncates limit (Recorded.perform run) run := by
  refine ⟨.perform quiet.grows, fun before within => .within ?_ ?_ ?_⟩
  · rw [last_perform]
    exact within.of_eq rfl (quiet before.machine).sink
  · rw [Erases.perform run before]
    exact alike _ _ rfl
  · rw [last_perform]
    exact (quiet before.machine).depth

theorem ofCause (position : Position) (outcome : Except Cause α) :
    Truncates limit (Recorded.perform (Run.ofCause position outcome))
      (Run.ofCause position outcome) :=
  .perform (.ofCause position outcome) (.ofCause position outcome)

theorem enforce (expr : Expr) (target : Option Ty) (value : Value) :
    Truncates limit (Recorded.perform (Run.enforce expr target value))
      (Run.enforce expr target value) :=
  .perform (.enforce expr target value) (.enforce expr target value)

theorem cellAt (name : String) (position : Position) :
    Truncates limit (Recorded.perform (Run.cellAt name position)) (Run.cellAt name position) :=
  .perform (.cellAt name position) (Run.cellAt_limited name position)

end Truncates

/-! ## Notes -/

/-- Whether something does nothing but take notes of the present moment. -/
def Notes (notes : Recorded Unit) : Prop :=
  ∀ before, ∃ after newer, notes before = .ok () after ∧ after.machine = before.machine ∧
    after.moments = newer ++ before.moments ∧ ∀ moment ∈ newer, moment.machine = before.machine

theorem Notes.note (event : Event) : Notes (Recorded.note event) := by
  intro before
  exact ⟨_, [⟨event, before.machine, before.declared⟩], rfl, rfl, rfl, by simp⟩

theorem Notes.nothing : Notes (pure ()) :=
  fun before => ⟨before, [], rfl, rfl, rfl, by simp⟩

theorem Notes.remember (id : ScopeId) (name : String) (binding : Option Variable) :
    Notes (Recorded.remember id name binding) := by
  intro before
  cases binding with
  | none => exact ⟨before, [], rfl, rfl, rfl, by simp⟩
  | some found => exact ⟨_, [], rfl, rfl, rfl, by simp⟩

theorem Notes.bind {first second : Recorded Unit} (notes : Notes first) (others : Notes second) :
    Notes (first >>= fun _ => second) := by
  intro before
  rcases notes before with ⟨middle, older, noted, middle_eq, olderEq, olderHere⟩
  rcases others middle with ⟨after, newer, rest, after_eq, newerEq, newerHere⟩
  refine ⟨after, newer ++ older, ?_, after_eq.trans middle_eq, ?_, ?_⟩
  · simp only [Bind.bind, EStateM.bind, noted, rest]
  · rw [newerEq, olderEq, List.append_assoc]
  · simp only [List.forall_mem_append]
    exact ⟨middle_eq ▸ newerHere, olderHere⟩

theorem Notes.offerArgument (target : Option Ty) (argument : Expr) (value : Value) :
    Notes (Recorded.offerArgument target argument value) := by
  cases target with
  | none => exact .nothing
  | some _ => exact .note _

theorem Notes.offerGlobal (name : String) (target : Option Ty) (initializer : Expr)
    (value : Value) : Notes (Recorded.offerGlobal name target initializer value) := by
  have elements (index : Nat) (elements : List Expr) (values : List Value) :
      Notes (offerElements name target index elements values) := by
    induction elements generalizing index values with
    | nil => exact .nothing
    | cons element elements ih =>
        cases values with
        | nil => exact .nothing
        | cons value values => exact (Notes.note _).bind (ih _ _)
  unfold Recorded.offerGlobal
  split
  · exact elements 0 _ _
  · exact .note _

theorem Notes.grows {notes : Recorded Unit} (isNotes : Notes notes) : notes.Grows := by
  intro before
  rcases isNotes before with ⟨after, newer, noted, machine_eq, moments, _⟩
  rw [noted]
  exact ⟨⟨newer, moments⟩, .of_sink (by rw [last, machine_eq])⟩

theorem Grows.valuing {recorded : Recorded Value} (grows : recorded.Grows) (expr : Expr) :
    (Recorded.valuing expr recorded).Grows :=
  grows.bind fun value => (Notes.note (.valued expr value)).grows.bind fun _ => .pure value

theorem Notes.truncates {notes : Recorded Unit} (isNotes : Notes notes) :
    Truncates limit notes (pure ()) := by
  refine ⟨isNotes.grows, fun before within => ?_⟩
  rcases isNotes before with ⟨after, newer, noted, machine_eq, moments, here⟩
  rw [noted]
  refine .within ⟨?_, ?_, ?_⟩ (.value ?_) ?_
  · rw [last, machine_eq]
    exact within.unlimited
  · rw [last, machine_eq]
    exact within.fits
  · simp only [last, moments, List.forall_mem_append]
    refine ⟨fun moment isNew => ?_, within.earlier⟩
    rw [here moment isNew]
    exact within.fits
  · rw [machine_eq]
    rfl
  · exact Nat.le_of_eq (congrArg (·.arena.depth) machine_eq.symm)

namespace Truncates

theorem after_notes {notes : Recorded Unit} {recorded : Recorded α} {run : Run α}
    (isNotes : Notes notes) (truncates : Truncates limit recorded run) :
    Truncates limit (notes >>= fun _ => recorded) run := by
  have whole := isNotes.truncates.bind fun _ => truncates
  rwa [pure_bind] at whole

theorem before_notes {notes recorded : Recorded Unit} {run : Run Unit}
    (truncates : Truncates limit recorded run) (isNotes : Notes notes) :
    Truncates limit (recorded >>= fun _ => notes) run := by
  have whole := truncates.bind fun _ => isNotes.truncates
  rwa [bind_pure_unit] at whole

theorem valuing {recorded : Recorded Value} {run : Run Value} (expr : Expr)
    (truncates : Truncates limit recorded run) :
    Truncates limit (Recorded.valuing expr recorded) run := by
  have whole := truncates.bind fun value => after_notes (.note (.valued expr value)) (pure value)
  rwa [bind_pure] at whole

/-- A recorded run may look at its recording. -/
theorem after_get {next : Recording → Recorded α} {run : Run α}
    (truncates : ∀ recording, Truncates limit (next recording) run) :
    Truncates limit (get >>= next) run :=
  ⟨fun before => (truncates before).grows before,
    fun before within => (truncates before).truncated before within⟩

/-- Both runs may look, if the limit does not count for what they do then. -/
theorem get_both {next : Recording → Recorded α} {runNext : Machine → Run α}
    (truncates : ∀ recording,
      Truncates limit (next recording) (runNext (recording.machine.limited limit))) :
    Truncates limit (get >>= next) (get >>= runNext) :=
  ⟨fun before => (truncates before).grows before,
    fun before within => (truncates before).truncated before within⟩

theorem define (id : ScopeId) (name : String) (binding : Option Variable) (value : Value)
    (position : Position) :
    Truncates limit (Recorded.define id name binding value position)
      (Run.define id name ⟨value, true⟩ position) := by
  have added : Truncates limit (Recorded.perform (Run.define id name ⟨value, true⟩ position))
      (Run.define id name ⟨value, true⟩ position) :=
    .perform (.define id name _ position) (Run.define_limited id name _ position)
  exact added.before_notes ((Notes.remember id name binding).bind (.note .changed))

theorem store (name : String) (index : Option Int64) (value : Value) (position : Position) :
    Truncates limit (Recorded.store name index value position)
      (Run.store name index value position) := by
  refine before_notes (.perform (.store name index value position) ?_) (.note .changed)
  exact .store (Run.cellAt_limited name position)
    (fun cell => Run.reassign_limited name cell position) index value

end Truncates

/-! ## Scopes -/

theorem leave_limited (machine : Machine) (id : ScopeId) :
    (machine.limited limit).leave id = (machine.leave id).map (Machine.limited limit) := by
  change (machine.arena.parent id >>= _) = (machine.arena.parent id >>= _).map _
  cases machine.arena.parent id with
  | ok parent => rfl
  | error halt => rfl

/-- Leaving a scope changes neither notes nor output. -/
theorem last_inScope (recorded : Recorded α) (before : Recording) :
    (last (inScope recorded before)).moments = (last (recorded before.enter.1)).moments ∧
      (last (inScope recorded before)).machine.sink =
        (last (recorded before.enter.1)).machine.sink := by
  have left (inner : Recording) : inner.leave before.enter.2 = .error .dangling ∨
      ∃ outer, inner.leave before.enter.2 = .ok outer ∧ outer.moments = inner.moments ∧
        outer.machine.sink = inner.machine.sink := by
    rcases inner.machine.leave_cases before.enter.2 with missing | ⟨current, found⟩
    · left
      rw [Recording.leave, missing]
      rfl
    · right
      exact ⟨_, Lockstep.leave_of_machine found, rfl, rfl⟩
  simp only [inScope]
  cases recorded before.enter.1 with
  | ok value inner =>
      rcases left inner with missing | ⟨outer, found, same⟩
      · simp only [missing, last, and_self]
      · simpa only [found, last] using same
  | error halt inner =>
      rcases left inner with missing | ⟨outer, found, same⟩
      · simp only [missing, last, and_self]
      · simpa only [found, last] using same

/-- A block is left again by both, whichever way it ends. -/
theorem Truncates.inScope {recorded : Recorded α} {run : Run α}
    (truncates : Truncates limit recorded run) :
    Truncates limit (Recorded.inScope recorded) (Run.inScope run) := by
  constructor
  · intro before
    rcases last_inScope recorded before with ⟨moments, sink⟩
    have entered : before.Extends before.enter.1 := .of_eq rfl rfl
    exact (entered.trans (truncates.grows before.enter.1)).trans (.of_eq moments sink)
  · intro before within
    rcases last_inScope recorded before with ⟨moments, sink⟩
    have inside := truncates.truncated before.enter.1 (within.of_eq rfl rfl)
    have deeper : before.enter.1.machine.arena.depth = before.machine.arena.depth + 1 :=
      Machine.depth_enter before.machine
    rw [deeper] at inside
    have entered : (before.machine.limited limit).enter =
        (before.enter.1.machine.limited limit, before.enter.2) := rfl
    simp only [Run.inScope, entered]
    generalize onRight : run (before.enter.1.machine.limited limit) = right at inside
    cases inside with
    | within inside same deep =>
        generalize onLeft : recorded before.enter.1 = left at inside same deep moments sink
        have still := inside.of_eq moments sink
        rcases Machine.exists_leave deep with ⟨outer, found, _, _⟩
        have leaves : (last left).machine.leave before.enter.2 = .ok outer := found
        have alsoLeaves : ((last left).machine.limited limit).leave before.enter.2 =
            .ok (outer.limited limit) := by
          rw [leave_limited, leaves]
          rfl
        have lower := Machine.depth_leave found deep
        cases left with
        | ok value inner =>
            cases same with
            | value limits =>
                cases limits
                simp only [last] at leaves alsoLeaves
                simp only [Recorded.inScope, onLeft, Lockstep.leave_of_machine leaves] at still ⊢
                simp only [alsoLeaves]
                exact .within still (.value rfl) lower
        | error halt inner =>
            cases same with
            | halt limits =>
                cases limits
                simp only [last] at leaves alsoLeaves
                simp only [Recorded.inScope, onLeft, Lockstep.leave_of_machine leaves] at still ⊢
                simp only [alsoLeaves]
                exact .within still (.halt rfl) lower
    | beyond past more written deep =>
        rcases Machine.exists_leave deep with ⟨outer, found, _, outer_sink⟩
        have lower := Machine.depth_leave found deep
        have leaves : Machine.leave _ before.enter.2 = .ok outer := found
        simp only [leaves]
        exact .later past more written (.of_eq moments sink) outer_sink lower

theorem bindArguments_truncates (id : ScopeId) (position : Position) (parameters : List Parameter)
    (values : List Value) :
    Truncates limit (bindArguments id position parameters values)
      (Run.bindArguments id position parameters values) := by
  induction parameters generalizing values with
  | nil => exact .pure ()
  | cons parameter parameters ih =>
      cases values with
      | nil => exact .pure ()
      | cons value values =>
          exact (Truncates.define id parameter.name _ value position).bind fun _ => ih values

/-- A function comes back to its caller, whichever way its body ends. -/
theorem enterFunction_truncates (function : Function) (closure : ScopeId)
    (arguments : List Value) {body : Recorded Signal} {runBody : Run Signal}
    (bodies : Truncates limit body runBody) :
    Truncates limit (enterFunction function closure arguments body)
      (Run.enterFunction function closure arguments runBody) := by
  have bound (id : ScopeId) : Truncates limit
      (bindArguments id function.span.start function.parameters arguments)
      (Run.bindArguments id function.span.start function.parameters arguments) :=
    bindArguments_truncates id _ _ _
  have inner (id : ScopeId) := (bound id).bind fun _ => bodies
  constructor
  · intro caller
    have grows := (inner (caller.calling function closure).enter.2).grows
      (caller.calling function closure).enter.1
    have entered : caller.Extends (caller.calling function closure).enter.1 := .of_eq rfl rfl
    simp only [enterFunction]
    generalize (bindArguments _ _ _ _ >>= fun _ => body) _ = left at grows
    cases left with
    | ok signal callee => exact (entered.trans grows).trans (.of_eq rfl rfl)
    | error halt callee => exact (entered.trans grows).trans (.of_eq rfl rfl)
  · intro caller within
    have inside := (inner (caller.calling function closure).enter.2).truncated
      (caller.calling function closure).enter.1 (within.of_eq rfl rfl)
    have deeper : (caller.calling function closure).enter.1.machine.arena.depth =
        caller.machine.arena.depth + 1 := Machine.depth_enter _
    rw [deeper] at inside
    have entered : (Machine.enter { caller.machine.limited limit with
        current := closure, returnType := function.binding.map Signature.result }) =
        ((caller.calling function closure).enter.1.machine.limited limit,
          (caller.calling function closure).enter.2) := rfl
    simp only [enterFunction, Run.enterFunction, seqRight_eq_bind, entered]
    generalize (bindArguments _ _ _ _ >>= fun _ => body) _ = left at inside
    generalize (Run.bindArguments _ _ _ _ >>= fun _ => runBody) _ = right at inside
    cases inside with
    | within inside same deep =>
        have lower := Arena.le_depth_dropFrom (Nat.le_of_lt deep)
        cases left with
        | ok signal callee =>
            cases same with
            | value limits =>
                cases limits
                exact .within (inside.of_eq rfl rfl) (.value rfl) lower
        | error halt callee =>
            cases same with
            | halt limits =>
                cases limits
                exact .within (inside.of_eq rfl rfl) (.halt rfl) lower
    | beyond past more written deep =>
        have lower := Arena.le_depth_dropFrom (Nat.le_of_lt deep)
        refine .later past more written ?_ rfl lower
        cases left with
        | ok signal callee => exact .of_eq rfl rfl
        | error halt callee => exact .of_eq rfl rfl

/-! ## Calls -/

/-- How the call of `print` ends that goes past a limit. -/
structure Overruns (limit : Nat) (before : Recording) (name : String) (arguments : List Value)
    (position : Option Position) (left : EStateM.Result Halt Recording Value)
    (right : EStateM.Result Halt Machine Value) : Prop where
  isPrint : before.machine.arena.findFunction before.machine.current name arguments.length =
    .ok (some (.builtIn .print))
  exceeds : limit < (before.machine.sink.written ++ Value.printed arguments).size
  prints : left = .ok .nil { before with machine := { before.machine with
    sink := ⟨none, before.machine.sink.written ++ Value.printed arguments⟩ } }
  stops : right =
    .error (.reported (.orAt (.unlocated (.outputFailed Sink.refusal)) position))
      { before.machine with
        sink := ⟨some limit,
          (before.machine.sink.written ++ Value.printed arguments).extract 0 limit⟩ }

/-- Whether a limit only truncates what calls do. -/
structure Caller.Truncates (limit : Nat) (recorded : Caller) (call : GradualScript.Caller) :
    Prop where
  grows : ∀ name arguments position, (recorded name arguments position).Grows
  truncated : ∀ name arguments position (before : Recording), before.Within limit →
    Truncated limit before.machine.arena.depth (recorded name arguments position before)
        (call name arguments position (before.machine.limited limit)) ∨
      Overruns limit before name arguments position (recorded name arguments position before)
        (call name arguments position (before.machine.limited limit))

variable {recorded : Caller} {call : GradualScript.Caller}

/-- Once the value of a call is noted, it is known which call has printed too much. -/
theorem call_valued_truncated (calls : Caller.Truncates limit recorded call) {span : Span}
    {ty : Option Ty} {name : String} {binding : Option Signature} {arguments : List Expr}
    {values : List Value} (count : values.length = arguments.length) {before : Recording}
    (within : before.Within limit) :
    Truncated limit before.machine.arena.depth
      (valuing (.call span ty name binding arguments) (recorded name values (some span.start))
        before)
      (call name values (some span.start) (before.machine.limited limit)) := by
  have noted (value : Value) : Truncates limit
      (note (.valued (.call span ty name binding arguments) value) >>= fun _ => pure value)
      (pure value) := .after_notes (.note _) (.pure value)
  rcases calls.truncated name values (some span.start) before within with truncated | overruns
  · have whole := truncated.bind (fun value => (noted value).grows)
      fun value after _ inside => (noted value).truncated after inside
    rw [bind_pure] at whole
    exact whole
  · have isPrint := overruns.isPrint
    rw [count] at isPrint
    simp only [overruns.stops, valuing, bind, EStateM.bind, overruns.prints]
    refine .beyond ⟨[], _, _, _, values, rfl, ⟨⟨span, ty, name, binding, arguments, rfl, rfl, count,
      isPrint⟩, rfl⟩, within.fits, overruns.exceeds, within.earlier⟩ overruns.exceeds rfl
      (Nat.le_refl _)

theorem exists_of_bind_ok {first : Recorded α} {next : α → Recorded β} {before after : Recording}
    {result : β} (made : (first >>= next) before = .ok result after) :
    ∃ value middle, first before = .ok value middle ∧ next value middle = .ok result after := by
  simp only [Bind.bind, EStateM.bind] at made
  cases ran : first before with
  | ok value middle =>
      rw [ran] at made
      exact ⟨value, middle, rfl, made⟩
  | error halt middle =>
      rw [ran] at made
      cases made

theorem length_of_evaluateArguments {declared targets : List Ty} {arguments : List Expr}
    {values : List Value} {before after : Recording}
    (made : evaluateArguments recorded declared targets arguments before = .ok values after) :
    values.length = arguments.length := by
  induction arguments generalizing declared targets values before with
  | nil =>
      simp only [evaluateArguments] at made
      cases made
      rfl
  | cons argument others ih =>
      simp only [evaluateArguments] at made
      rcases exists_of_bind_ok made with ⟨value, _, _, offered⟩
      rcases exists_of_bind_ok offered with ⟨_, _, _, tested⟩
      rcases exists_of_bind_ok tested with ⟨_, _, _, collected⟩
      rcases exists_of_bind_ok collected with ⟨rest, _, evaluated, added⟩
      cases added
      rw [List.length_cons, List.length_cons, ih evaluated]

/-! ## Expressions and statements -/

mutual

theorem evaluate_truncates (calls : Caller.Truncates limit recorded call) (expr : Expr) :
    Truncates limit (evaluate recorded expr) (Run.evaluate call expr) := by
  cases expr with
  | literal span ty value =>
      simp only [evaluate, Run.evaluate]
      exact .valuing _ (.pure _)
  | group span ty inner =>
      simp only [evaluate, Run.evaluate]
      exact .valuing _ (evaluate_truncates calls inner)
  | binary span ty operator left right =>
      simp only [evaluate, Run.evaluate]
      refine .valuing _ ((evaluate_truncates calls left).bind fun leftValue => .ite ?_ ?_)
      · refine (Truncates.ofCause _ _).bind fun leftValue => ?_
        exact .ite (.pure _) ((evaluate_truncates calls right).bind fun _ => .ofCause _ _)
      · exact (evaluate_truncates calls right).bind fun _ => .ofCause _ _
  | access span ty name binding =>
      simp only [evaluate, Run.evaluate]
      exact .valuing _ ((Truncates.cellAt _ _).bind fun _ => .pure _)
  | element span ty name binding offset =>
      simp only [evaluate, Run.evaluate]
      refine .valuing _ ((evaluate_truncates calls offset).bind fun _ => ?_)
      exact (Truncates.ofCause _ _).bind fun _ =>
        (Truncates.cellAt _ _).bind fun _ => .ofCause _ _
  | call span ty name binding arguments =>
      -- The call and the note of its value belong together, so the arguments come first.
      simp only [evaluate, Run.evaluate, valuing, bind_assoc]
      refine .after_get fun recording => ?_
      have values := evaluateArguments_truncates calls
        (recording.parameterTypes name arguments.length)
        ((binding.map Signature.parameters).getD []) arguments
      have valued (values : List Value) :
          (valuing (.call span ty name binding arguments)
            (recorded name values (some span.start))).Grows :=
        (calls.grows name values _).valuing _
      refine ⟨values.grows.bind valued, fun before within => ?_⟩
      exact (values.truncated before within).bind valued fun values after made inside =>
        call_valued_truncated calls (length_of_evaluateArguments made) inside
  | list span ty elements =>
      simp only [evaluate, Run.evaluate]
      exact .valuing _ ((evaluateArguments_truncates calls [] [] elements).bind fun _ => .pure _)

theorem evaluateArguments_truncates (calls : Caller.Truncates limit recorded call)
    (declared targets : List Ty) (arguments : List Expr) :
    Truncates limit (evaluateArguments recorded declared targets arguments)
      (Run.evaluateArguments call targets arguments) := by
  cases arguments with
  | nil =>
      simp only [evaluateArguments, Run.evaluateArguments]
      exact .pure _
  | cons argument others =>
      simp only [evaluateArguments, Run.evaluateArguments]
      refine (evaluate_truncates calls argument).bind fun value => ?_
      refine .after_notes (.offerArgument _ argument value) ?_
      refine (Truncates.enforce _ _ _).bind fun _ => ?_
      exact (evaluateArguments_truncates calls declared.tail targets.tail others).bind
        fun _ => .pure _

end

theorem condition_truncates (calls : Caller.Truncates limit recorded call) (expr : Expr) :
    Truncates limit (condition recorded expr) (Run.condition call expr) :=
  (evaluate_truncates calls expr).bind fun _ => .ofCause _ _

theorem index_truncates (calls : Caller.Truncates limit recorded call) (expr : Expr) :
    Truncates limit (index recorded expr) (Run.index call expr) :=
  (evaluate_truncates calls expr).bind fun _ => .ofCause _ _

theorem initialValue_truncates (calls : Caller.Truncates limit recorded call)
    {offer : Expr → Value → Recorded Unit} (isNotes : ∀ expr value, Notes (offer expr value))
    (binding : Option Variable) (initializer : Option Expr) :
    Truncates limit (initialValue recorded offer binding initializer)
      (Run.initialValue call binding initializer) := by
  cases initializer with
  | none => exact .pure _
  | some initializer =>
      refine (evaluate_truncates calls initializer).bind fun value => ?_
      exact .after_notes (isNotes initializer value)
        ((Truncates.enforce _ _ _).bind fun _ => .pure _)

theorem assign_truncates (calls : Caller.Truncates limit recorded call) (receiver value : Expr) :
    Truncates limit (assign recorded receiver value) (Run.assign call receiver value) := by
  -- Past the value, both kinds of receiver go on in the same way.
  have tested (slot : Recording → Option Ty) (ty : Option Ty) (name : String)
      (index : Option Int64) (assigned : Value) (position : Position) :
      Truncates limit
        (do
          let recording ← get
          note (.offered .receiver (slot recording) value assigned)
          perform (Run.enforce value ty assigned)
          store name index assigned position)
        (do
          Run.enforce value ty assigned
          Run.store name index assigned position) := by
    refine .after_get fun recording => .after_notes (.note _) ?_
    exact (Truncates.enforce value ty assigned).bind fun _ => .store name index assigned position
  cases receiver with
  | access span ty name binding =>
      exact (evaluate_truncates calls value).bind fun assigned =>
        tested (·.variableType name) ty name none assigned span.start
  | element span ty name binding offset =>
      refine (index_truncates calls offset).bind fun slot => ?_
      exact (evaluate_truncates calls value).bind fun assigned =>
        tested (fun recording => (recording.variableType name).bind Ty.element?) ty name (some slot)
          assigned span.start
  | _ =>
      simp only [assign, Run.assign]
      exact .perform (.throw _) (.throw _)

theorem repeatWhile_truncates {test : Recorded Bool} {runTest : Run Bool} {body : Recorded Signal}
    {runBody : Run Signal} (tests : Truncates limit test runTest)
    (bodies : Truncates limit body runBody) (budget : Nat) :
    Truncates limit (repeatWhile test body budget) (Run.repeatWhile runTest runBody budget) := by
  induction budget with
  | zero => exact .throw _
  | succ budget ih =>
      simp only [repeatWhile, Run.repeatWhile]
      refine tests.bind fun holds => .ite (bodies.bind fun signal => ?_) (.pure _)
      cases signal with
      | finish value => exact .pure _
      | goOn => exact ih

mutual

theorem execute_truncates (calls : Caller.Truncates limit recorded call) (budget : Nat)
    (statement : Stmt) :
    Truncates limit (execute recorded budget statement) (Run.execute call budget statement) := by
  cases statement with
  | expression span expr =>
      simp only [execute, Run.execute]
      exact (evaluate_truncates calls expr).bind fun _ => .pure _
  | declaration span name typeName initializer binding =>
      simp only [execute, Run.execute, Run.declare, bind_assoc]
      refine (initialValue_truncates calls (fun _ _ => .note _) binding initializer).bind
        fun value => .get_both fun recording => ?_
      exact (Truncates.define recording.machine.current name binding value span.start).bind
        fun _ => .pure Signal.goOn
  | assignment span receiver value =>
      simp only [execute, Run.execute]
      exact (assign_truncates calls receiver value).bind fun _ => .pure _
  | branch span test thenBody elseBody =>
      simp only [execute, Run.execute]
      refine (condition_truncates calls test).bind fun holds => .ite ?_ ?_
      · exact (executeAll_truncates calls budget thenBody).inScope
      · exact (executeAll_truncates calls budget elseBody).inScope
  | switch span subject cases =>
      simp only [execute, Run.execute]
      exact (evaluate_truncates calls subject).bind fun value =>
        executeCases_truncates calls budget value cases
  | loop span test body =>
      simp only [execute, Run.execute]
      exact repeatWhile_truncates (condition_truncates calls test)
        (executeAll_truncates calls budget body).inScope budget
  | result span expr =>
      simp only [execute, Run.execute]
      refine (evaluate_truncates calls expr).bind fun value => .get_both fun recording => ?_
      refine .after_notes (.note _) ?_
      exact (Truncates.enforce expr recording.machine.returnType value).bind fun _ => .pure _

theorem executeCases_truncates (calls : Caller.Truncates limit recorded call) (budget : Nat)
    (subject : Value) (cases : Cases) :
    Truncates limit (executeCases recorded budget subject cases)
      (Run.executeCases call budget subject cases) := by
  cases cases with
  | default span body =>
      simp only [executeCases, Run.executeCases]
      exact (executeAll_truncates calls budget body).inScope
  | case span value body others =>
      simp only [executeCases, Run.executeCases]
      refine (evaluate_truncates calls value).bind fun value => .ite ?_ ?_
      · exact (executeAll_truncates calls budget body).inScope
      · exact executeCases_truncates calls budget subject others

theorem executeAll_truncates (calls : Caller.Truncates limit recorded call) (budget : Nat)
    (statements : List Stmt) :
    Truncates limit (executeAll recorded budget statements)
      (Run.executeAll call budget statements) := by
  cases statements with
  | nil =>
      simp only [executeAll, Run.executeAll]
      exact .pure _
  | cons statement others =>
      simp only [executeAll, Run.executeAll]
      refine (execute_truncates calls budget statement).bind fun signal => ?_
      cases signal with
      | finish value => exact .pure _
      | goOn => exact executeAll_truncates calls budget others

end

/-! ## Programs -/

/-- The call of `print` either fits or goes past the limit. -/
theorem print_truncated {name : String} {arguments : List Value} (position : Option Position)
    {before : Recording} (within : before.Within limit)
    (isPrint : before.machine.arena.findFunction before.machine.current name arguments.length =
      .ok (some (.builtIn .print))) :
    Truncated limit before.machine.arena.depth
        (perform (Run.callNative .print arguments position) before)
        (Run.callNative .print arguments position (before.machine.limited limit)) ∨
      Overruns limit before name arguments position
        (perform (Run.callNative .print arguments position) before)
        (Run.callNative .print arguments position (before.machine.limited limit)) := by
  have onLeft := Run.callNative_unlimited within.sink_eq arguments position
  have limited : (before.machine.limited limit).sink = ⟨some limit, before.machine.sink.written⟩ :=
    rfl
  simp only [perform, onLeft]
  by_cases fits : (before.machine.sink.written ++ Value.printed arguments).size ≤ limit
  · left
    rw [Run.callNative_limited limited fits]
    exact .within ⟨rfl, fits, within.earlier⟩ (.value rfl) (Nat.le_refl _)
  · right
    have exceeds := Nat.not_le.mp fits
    exact ⟨isPrint, exceeds, rfl, Run.callNative_refused limited within.fits exceeds _⟩

/-- A limit only truncates what calls do, however deep they nest. -/
theorem call_truncates (budget : Nat) :
    Caller.Truncates limit (Recorded.call budget) (Run.call budget) := by
  induction budget with
  | zero =>
      have exhausted : Truncates limit (throw .exhausted : Recorded Value) (throw .exhausted) :=
        .throw _
      exact ⟨fun _ _ _ => exhausted.grows,
        fun _ _ _ before within => .inl (exhausted.truncated before within)⟩
  | succ budget ih =>
      have entered (function : Function) (closure : ScopeId) (arguments : List Value) :=
        enterFunction_truncates function closure arguments
          (executeAll_truncates ih budget function.body)
      constructor
      · intro name arguments position
        have quiet : (Run.routineAt name arguments.length position).Quiet := by
          intro machine
          rw [Run.routineAt_machine]
          exact .refl machine
        refine (Grows.perform quiet.grows).bind fun routine => ?_
        cases routine with
        | builtIn function => exact .perform (.callNative function arguments position)
        | written function closure => exact (entered function closure arguments).grows
      · intro name arguments position before within
        have looked (outcome : Except Halt (Option Routine))
            (found : before.machine.arena.findFunction before.machine.current name
              arguments.length = outcome) :
            (before.machine.limited limit).arena.findFunction
              (before.machine.limited limit).current name arguments.length = outcome := found
        simp only [Recorded.call, Run.call, bind, EStateM.bind, perform]
        cases found : before.machine.arena.findFunction before.machine.current name
            arguments.length with
        | error halt =>
            simp only [Run.routineAt_of_error found, Run.routineAt_of_error (looked _ found)]
            exact .inl (.within within (.halt rfl) (Nat.le_refl _))
        | ok routine =>
            cases routine with
            | none =>
                simp only [Run.routineAt_of_none found, Run.routineAt_of_none (looked _ found)]
                exact .inl (.within within (.halt rfl) (Nat.le_refl _))
            | some routine =>
                simp only [Run.routineAt_of_some found, Run.routineAt_of_some (looked _ found)]
                cases routine with
                | builtIn function =>
                    cases function with
                    | print => exact print_truncated position within found
                | written function closure =>
                    exact .inl ((entered function closure arguments).truncated before within)

theorem setUpGlobals_truncates (budget : Nat) (globals : List Global) :
    Truncates limit (setUpGlobals budget globals) (Run.setUpGlobals budget globals) := by
  induction globals with
  | nil => exact .pure _
  | cons global others ih =>
      have calls : Caller.Truncates limit (Recorded.call budget) (Run.call budget) :=
        call_truncates budget
      have initial := initialValue_truncates calls
        (Notes.offerGlobal global.name (Ty.ofName? global.typeName)) global.binding
        global.initializer
      exact initial.bind fun value => (Truncates.define _ _ _ value _).bind fun _ => ih

/-- A limit only truncates what a program does. -/
theorem program_truncates (budget : Nat) (program : Program) :
    Truncates limit (Recorded.program budget program) (Run.program budget program) := by
  refine (setUpGlobals_truncates budget program.globals).bind fun _ => ?_
  have functions : Truncates limit (perform (Run.setUpFunctions program.functions))
      (Run.setUpFunctions program.functions) :=
    .perform (.setUpFunctions program.functions) (Run.setUpFunctions_limited program.functions)
  have main : Caller.Truncates limit (Recorded.call budget) (Run.call budget) :=
    call_truncates budget
  refine functions.bind fun _ => ⟨main.grows _ _ _, fun before within => ?_⟩
  rcases main.truncated Checker.mainName [] none before within with truncated | overruns
  · exact truncated
  · -- Even if `main` meant `print`, it would print nothing without arguments.
    have exceeds := overruns.exceeds
    rw [Value.printed, ByteArray.append_empty] at exceeds
    exact absurd within.fits (Nat.not_le.mpr exceeds)

end Recorded

end GradualScript
