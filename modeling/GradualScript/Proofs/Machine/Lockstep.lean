import GradualScript.Proofs.Machine.Output
import GradualScript.Proofs.Program.Annotations

/-!
# Runs in lockstep

Two machines that agree in what a program can see go through the same program in step: they come to
the same value, or stop for the same reason, and then they still agree. What they agree in is a
`Lockstep`: a relation between machines that is kept by the few things that a run does to a machine,
which are looking up names, adding and changing variables, entering and leaving scopes and printing.

The first run may also stop alone, for a reason that the lockstep excuses: because its budget is
smaller than that of the second, or because a value does not fit the type that the tree of the first
asks for, while the second goes by a tree without annotations. It is a recorded run, since only its
notes tell why a value was looked at. What it had printed the second run has printed too.
-/

namespace GradualScript

/-- A routine, with its annotations if they are to be kept. -/
def Routine.strip (keep : Bool) : Routine → Routine
  | .builtIn function => .builtIn function
  | .written function closure => .written (function.strip keep) closure

theorem Routine.strip_true (routine : Routine) : routine.strip true = routine := by
  cases routine with
  | builtIn function => rfl
  | written function closure => rw [Routine.strip, function.strip_true]

namespace Run

variable {α β : Type}

/-- Whether two runs come to the same value or stop for the same reason, on machines that are
related. -/
inductive SameOutcome (related : Machine → Machine → Prop) :
    EStateM.Result Halt Machine α → EStateM.Result Halt Machine α → Prop
  | value {value : α} {left right : Machine} (after : related left right) :
      SameOutcome related (.ok value left) (.ok value right)
  | halt {halt : Halt} {left right : Machine} (after : related left right) :
      SameOutcome related (.error halt left) (.error halt right)

/-- Whether two runs on related machines always have the same outcome. -/
def Alike (related : Machine → Machine → Prop) (left right : Run α) : Prop :=
  ∀ leftMachine rightMachine, related leftMachine rightMachine →
    SameOutcome related (left leftMachine) (right rightMachine)

namespace Alike

variable {related : Machine → Machine → Prop}

theorem pure (value : α) : Alike related (Pure.pure value : Run α) (Pure.pure value) :=
  fun _ _ same => .value same

theorem throw (halt : Halt) :
    Alike related (MonadExcept.throw halt : Run α) (MonadExcept.throw halt) :=
  fun _ _ same => .halt same

theorem bind {left right : Run α} {leftNext rightNext : α → Run β}
    (alike : Alike related left right)
    (rest : ∀ value, Alike related (leftNext value) (rightNext value)) :
    Alike related (left >>= leftNext) (right >>= rightNext) := by
  intro leftMachine rightMachine same
  have first := alike leftMachine rightMachine same
  simp only [Bind.bind, EStateM.bind]
  generalize left leftMachine = leftResult at first
  generalize right rightMachine = rightResult at first
  cases first with
  | value after => exact rest _ _ _ after
  | halt after => exact .halt after

theorem ofCause (position : Position) (outcome : Except Cause α) :
    Alike related (Run.ofCause position outcome) (Run.ofCause position outcome) := by
  cases outcome with
  | ok value => exact .pure value
  | error cause => exact .throw _

theorem store {name : String} {position : Position}
    (reads : Alike related (Run.cellAt name position) (Run.cellAt name position))
    (writes : ∀ cell, Alike related (Run.reassign name cell position)
      (Run.reassign name cell position)) (index : Option Int64) (value : Value) :
    Alike related (Run.store name index value position) (Run.store name index value position) := by
  refine reads.bind fun cell => ?_
  rcases cell with ⟨old, isMutable⟩
  cases isMutable with
  | false => exact .throw _
  | true =>
      cases index with
      | none => exact writes _
      | some index => exact (Alike.ofCause _ _).bind fun _ => writes _

theorem print (sinks : ∀ {left right}, related left right → right.sink = left.sink)
    (writes : ∀ {left right} (sink : Sink), related left right →
      related { left with sink } { right with sink }) (value : Value)
    (position : Option Position) :
    Alike related (Run.print value position) (Run.print value position) := by
  intro left right same
  rw [Run.print, bind_get, bind_get, sinks same]
  rcases left.sink.writeAll (value.pieces ++ ["\n"]) with ⟨sink, complete⟩
  cases complete with
  | true => exact .value (writes sink same)
  | false => exact .halt (writes sink same)

theorem callNative {position : Option Position}
    (prints : ∀ value, Alike related (Run.print value position) (Run.print value position))
    (function : Native) (arguments : List Value) :
    Alike related (Run.callNative function arguments position)
      (Run.callNative function arguments position) := by
  cases function with
  | print =>
      refine Alike.bind ?_ fun _ => .pure _
      induction arguments with
      | nil => exact .pure ()
      | cons value values ih =>
          simp only [List.forM, bind_assoc]
          exact (prints value).bind fun _ => ih

end Alike

theorem current_of_define {id : ScopeId} {name : String} {cell : Cell} {position : Position}
    {machine after : Machine} (defined : define id name cell position machine = .ok () after) :
    after.current = machine.current := by
  rw [define, bind_get] at defined
  cases added : machine.arena.addVariable id name cell position with
  | error halt =>
      rw [added] at defined
      cases defined
  | ok arena =>
      rw [added] at defined
      cases defined
      rfl

end Run

theorem Arena.le_depth_dropFrom {V F : Type} {arena : Arena V F} {id : ScopeId}
    (inside : id ≤ arena.depth) : id ≤ (arena.dropFrom id).depth := by
  by_cases atRoot : id = root
  · exact atRoot ▸ Nat.zero_le _
  · exact Nat.le_of_eq (depth_dropFrom atRoot inside).symm

namespace Machine

theorem depth_enter (machine : Machine) :
    machine.enter.1.arena.depth = machine.arena.depth + 1 :=
  Arena.depth_push _ _

/-- A scope that is there can be left. -/
theorem exists_leave {machine : Machine} {id : ScopeId} (inside : id < machine.arena.depth) :
    ∃ outer, machine.leave id = .ok outer ∧ outer.arena = machine.arena.dropFrom id ∧
      outer.sink = machine.sink := by
  rcases Arena.exists_scope inside with ⟨scope, found⟩
  refine ⟨{ machine with
    arena := machine.arena.dropFrom id
    current := scope.parent.getD Arena.root }, ?_, rfl, rfl⟩
  rw [Machine.leave, Arena.parent, Arena.scope_eq_ok found]
  rfl

theorem depth_leave {machine outer : Machine} {id : ScopeId}
    (left : machine.leave id = .ok outer) (inside : id < machine.arena.depth) :
    id ≤ outer.arena.depth := by
  rcases exists_leave inside with ⟨other, alsoLeft, arena_eq, _⟩
  rw [left] at alsoLeft
  cases alsoLeft
  rw [arena_eq]
  exact Arena.le_depth_dropFrom (Nat.le_of_lt inside)

/-- Whether two machines are related and the first has at least some number of scopes. -/
def Deep (related : Machine → Machine → Prop) (depth : Nat) (left right : Machine) : Prop :=
  related left right ∧ depth ≤ left.arena.depth

/-- How two machines find a routine: the same one, whose body sees the same, or none. -/
inductive FindsSame (related : Machine → Machine → Prop) (keep : Bool)
    (functions : Table (String × Nat) Signature) (left right : Machine) (name : String)
    (arity : Nat) (position : Option Position) : Prop
  | found (routine : Routine)
      (onLeft : Run.routineAt name arity position left = .ok routine left)
      (onRight : Run.routineAt name arity position right = .ok (routine.strip keep) right)
      (sees : ∀ function closure, routine = .written function closure →
        related (left.calling closure (function.binding.map Signature.result))
          (right.calling closure ((function.strip keep).binding.map Signature.result)))
      (resolved : keep = false → ∀ function closure, routine = .written function closure →
        Stmt.AllResolved functions function.body)
  | missing (halt : Halt)
      (onLeft : Run.routineAt name arity position left = .error halt left)
      (onRight : Run.routineAt name arity position right = .error halt right)

end Machine

/-- Whether a run that stopped was stopped by a test: the value of an expression of type `Any` was
offered to a slot, last of all, and was tested and did not fit. -/
def Misfit (halt : Halt) (moments : List Moment) : Prop :=
  ∃ moment earlier slot target expr value ty, moments = moment :: earlier ∧
    moment.event = .offered slot target expr value ∧ slot.isElement = false ∧
      expr.ty = some .any ∧ value.fits ty = false ∧ halt = .unfit expr ty value

/-- How machines are related, and how runs may stop alone. -/
structure Pairing where
  related : Machine → Machine → Prop
  /-- Whether the first run may stop for a reason, with a recording, where the second run comes to a
  machine. -/
  excused : Halt → Recording → Machine → Prop
  excused_later : ∀ {halt recording later machine after}, excused halt recording machine →
    later.moments = recording.moments → later.machine.sink = recording.machine.sink →
      Machine.Extends machine after → excused halt later after

/-- How two runs in step end, the first of which started with some number of scopes. These are not
lost on the way. -/
inductive Pairing.InStep {α : Type} (pairing : Pairing) (depth : Nat) :
    EStateM.Result Halt Recording α → EStateM.Result Halt Machine α → Prop
  /-- Both come to the same value. -/
  | done {value : α} {left : Recording} {right : Machine}
      (still : pairing.related left.machine right) (deep : depth ≤ left.machine.arena.depth) :
      InStep pairing depth (.ok value left) (.ok value right)
  /-- Both stop for the same reason. -/
  | stopped {halt : Halt} {left : Recording} {right : Machine}
      (still : pairing.related left.machine right) (deep : depth ≤ left.machine.arena.depth) :
      InStep pairing depth (.error halt left) (.error halt right)
  /-- The first stops for a reason that the second may not have. -/
  | excused {halt : Halt} {left : Recording} {result : EStateM.Result Halt Machine α}
      (reason : pairing.excused halt left (Run.machineOf result))
      (deep : depth ≤ left.machine.arena.depth) : InStep pairing depth (.error halt left) result

/-- Whether a recorded run and a run go in step from all machines that are related. -/
structure Pairing.Tracks {α : Type} (pairing : Pairing) (recorded : Recorded α) (run : Run α) :
    Prop where
  grows : run.Grows
  inStep : ∀ left right, pairing.related left.machine right →
    pairing.InStep left.machine.arena.depth (recorded left) (run right)

namespace Pairing

variable {α β : Type} {pairing : Pairing}

theorem InStep.mono {depth fewer : Nat} {left : EStateM.Result Halt Recording α}
    {right : EStateM.Result Halt Machine α} (inStep : pairing.InStep depth left right)
    (lower : fewer ≤ depth) : pairing.InStep fewer left right := by
  cases inStep with
  | done still deep => exact .done still (Nat.le_trans lower deep)
  | stopped still deep => exact .stopped still (Nat.le_trans lower deep)
  | excused reason deep => exact .excused reason (Nat.le_trans lower deep)

/-- Both runs go on from where they are, and what the second prints then does not matter to a first
that has stopped alone. -/
theorem InStep.bind {recorded : Recorded α} {run : Run α} {next : α → Recorded β}
    {runNext : α → Run β} {depth : Nat} {left : Recording} {right : Machine}
    (first : pairing.InStep depth (recorded left) (run right))
    (grows : ∀ value, (runNext value).Grows)
    (rest : ∀ value after other, recorded left = .ok value after → run right = .ok value other →
      pairing.related after.machine other →
      pairing.InStep after.machine.arena.depth (next value after) (runNext value other)) :
    pairing.InStep depth ((recorded >>= next) left) ((run >>= runNext) right) := by
  have later := Run.Grows.extends_bind grows run right
  simp only [Bind.bind, EStateM.bind] at later ⊢
  generalize onLeft : recorded left = leftResult at first
  generalize onRight : run right = rightResult at first later
  cases first with
  | done still deep => exact (rest _ _ _ onLeft onRight still).mono deep
  | stopped still deep => exact .stopped still deep
  | excused reason deep => exact .excused (pairing.excused_later reason rfl rfl later) deep

theorem InStep.perform {depth : Nat} {run other : Run α} {left : Recording} {right : Machine}
    (same : Run.SameOutcome (Machine.Deep pairing.related depth) (run left.machine)
      (other right)) : pairing.InStep depth (Recorded.perform run left) (other right) := by
  unfold Recorded.perform
  generalize run left.machine = leftResult at same
  generalize other right = rightResult at same
  cases same with
  | value after => exact .done after.1 after.2
  | halt after => exact .stopped after.1 after.2

theorem InStep.before_silent {recorded notes : Recorded Unit} {depth : Nat} {left : Recording}
    {result : EStateM.Result Halt Machine Unit}
    (inStep : pairing.InStep depth (recorded left) result) (silent : Recorded.Silent notes) :
    pairing.InStep depth ((recorded >>= fun _ => notes) left) result := by
  simp only [Bind.bind, EStateM.bind]
  generalize recorded left = leftResult at inStep
  cases inStep with
  | @done _ left _ still deep =>
      rcases silent left with ⟨after, made, machine_eq⟩
      rw [← machine_eq] at still deep
      simp only [made]
      exact .done still deep
  | stopped still deep => exact .stopped still deep
  | excused reason deep => exact .excused reason deep

namespace Tracks

theorem pure (value : α) : pairing.Tracks (Pure.pure value : Recorded α) (Pure.pure value) :=
  ⟨(Run.Quiet.pure value).grows, fun _ _ same => .done same (Nat.le_refl _)⟩

theorem bind {recorded : Recorded α} {run : Run α} {next : α → Recorded β} {runNext : α → Run β}
    (tracks : pairing.Tracks recorded run)
    (rest : ∀ value, pairing.Tracks (next value) (runNext value)) :
    pairing.Tracks (recorded >>= next) (run >>= runNext) := by
  refine ⟨tracks.grows.bind fun value => (rest value).grows, fun left right same => ?_⟩
  exact (tracks.inStep left right same).bind (fun value => (rest value).grows)
    fun value after other _ _ still => (rest value).inStep after other still

theorem ite {condition : Prop} [Decidable condition] {first second : Recorded α}
    {runFirst runSecond : Run α} (whenTrue : pairing.Tracks first runFirst)
    (whenFalse : pairing.Tracks second runSecond) :
    pairing.Tracks (if condition then first else second)
      (if condition then runFirst else runSecond) := by
  split
  · exact whenTrue
  · exact whenFalse

theorem perform {run other : Run α} (grows : other.Grows)
    (alike : ∀ depth, Run.Alike (Machine.Deep pairing.related depth) run other) :
    pairing.Tracks (Recorded.perform run) other :=
  ⟨grows, fun left right same => .perform (alike _ left.machine right ⟨same, Nat.le_refl _⟩)⟩

theorem ofCause (position : Position) (outcome : Except Cause α) :
    pairing.Tracks (Recorded.perform (Run.ofCause position outcome))
      (Run.ofCause position outcome) :=
  .perform (Run.Quiet.ofCause position outcome).grows fun _ => .ofCause position outcome

/-- Notes before a recorded run do not count. -/
theorem after_silent {notes : Recorded Unit} {recorded : Recorded α} {run : Run α}
    (silent : Recorded.Silent notes) (tracks : pairing.Tracks recorded run) :
    pairing.Tracks (notes >>= fun _ => recorded) run := by
  refine ⟨tracks.grows, fun left right same => ?_⟩
  rcases silent left with ⟨after, made, machine_eq⟩
  simp only [Bind.bind, EStateM.bind, made]
  rw [← machine_eq] at same ⊢
  exact tracks.inStep after right same

/-- Neither do notes after it. -/
theorem before_silent {notes recorded : Recorded Unit} {run : Run Unit}
    (tracks : pairing.Tracks recorded run) (silent : Recorded.Silent notes) :
    pairing.Tracks (recorded >>= fun _ => notes) run :=
  ⟨tracks.grows, fun left right same => (tracks.inStep left right same).before_silent silent⟩

/-- A recorded run may look at its recording. -/
theorem after_get {next : Recording → Recorded α} {run : Run α} (grows : run.Grows)
    (inStep : ∀ left right, pairing.related left.machine right →
      pairing.InStep left.machine.arena.depth (next left left) (run right)) :
    pairing.Tracks (get >>= next) run :=
  ⟨grows, inStep⟩

theorem valuing {recorded : Recorded Value} {run : Run Value} (expr : Expr)
    (tracks : pairing.Tracks recorded run) :
    pairing.Tracks (Recorded.valuing expr recorded) run := by
  have whole := tracks.bind fun value =>
    after_silent (Recorded.silent_note (.valued expr value)) (.pure value)
  rw [bind_pure] at whole
  exact whole

end Tracks

end Pairing

/-- A relation between machines that is kept by all that runs do to them. -/
structure Lockstep extends Pairing where
  /-- Whether the tree of the second run has the annotations of the first. -/
  keep : Bool
  /-- The functions that calls are annotated with. -/
  functions : Table (String × Nat) Signature
  misfit : keep = false → ∀ {halt recording machine}, related recording.machine machine →
    Misfit halt recording.moments → excused halt recording machine
  returnType : keep = true → ∀ {left right}, related left right →
    right.returnType = left.returnType
  parameters : keep = false → ∀ {recording : Recording} {machine},
    related recording.machine machine → ∀ {name arity signature},
      functions.find? (name, arity) = some signature →
        signature.parameters.length ≤ (recording.parameterTypes name arity).length
  cellAt : ∀ depth name position,
    Run.Alike (Machine.Deep related depth) (Run.cellAt name position) (Run.cellAt name position)
  define : ∀ {left right}, related left right → ∀ name cell position,
    Run.SameOutcome (Machine.Deep related left.arena.depth)
      (Run.define left.current name cell position left)
      (Run.define right.current name cell position right)
  defineGlobal : ∀ depth name cell position,
    Run.Alike (Machine.Deep related depth) (Run.define Arena.root name cell position)
      (Run.define Arena.root name cell position)
  reassign : ∀ depth name cell position,
    Run.Alike (Machine.Deep related depth) (Run.reassign name cell position)
      (Run.reassign name cell position)
  sink : ∀ {left right}, related left right → right.sink = left.sink
  write : ∀ {left right} (sink : Sink), related left right →
    related { left with sink } { right with sink }
  enter : ∀ {left right}, related left right → related left.enter.1 right.enter.1
  leave : ∀ {left right leftInner rightInner}, related left right →
    related leftInner rightInner → left.arena.depth < leftInner.arena.depth →
      ∃ leftOuter rightOuter, leftInner.leave left.arena.depth = .ok leftOuter ∧
        rightInner.leave right.arena.depth = .ok rightOuter ∧ related leftOuter rightOuter
  routineAt : ∀ {left right}, related left right → ∀ name arity position,
    Machine.FindsSame related keep functions left right name arity position
  resume : ∀ {left right leftCallee rightCallee}, related left right →
    related leftCallee rightCallee → left.arena.depth < leftCallee.arena.depth →
      related (left.resume leftCallee) (right.resume rightCallee)

namespace Lockstep

variable {α : Type} (step : Lockstep)

/-- Whether calls go in step. -/
def TracksCalls (left : Recorded.Caller) (right : Caller) : Prop :=
  ∀ name arguments position,
    step.Tracks (left name arguments position) (right name arguments position)

/-- Whether the first run may have one budget and the second another. -/
def Affords (left right : Nat) : Prop :=
  left = right ∨ left ≤ right ∧ ∀ recording machine, step.excused .exhausted recording machine

variable {step}

theorem Affords.exhausted {right : Nat} (affords : step.Affords 0 right) {run : Run α}
    (grows : run.Grows) (atZero : right = 0 → run = throw .exhausted) :
    step.Tracks (throw .exhausted) run := by
  refine ⟨grows, fun left machine same => ?_⟩
  rcases affords with rfl | ⟨_, reason⟩
  · rw [atZero rfl]
    exact .stopped same (Nat.le_refl _)
  · exact .excused (reason _ _) (Nat.le_refl _)

theorem Affords.exists_succ {left right : Nat} (affords : step.Affords (left + 1) right) :
    ∃ rest, right = rest + 1 ∧ step.Affords left rest := by
  rcases affords with rfl | ⟨lower, reason⟩
  · exact ⟨left, rfl, .inl rfl⟩
  · rcases Nat.exists_eq_succ_of_ne_zero (Nat.ne_zero_of_lt lower) with ⟨rest, rfl⟩
    exact ⟨rest, rfl, .inr ⟨Nat.le_of_succ_le_succ lower, reason⟩⟩

/-! ## Tests -/

/-- Whether notes end with the offer of the value of an expression. -/
def Announces (expr : Expr) (value : Value) (notes : Recorded Unit) : Prop :=
  ∀ recording, ∃ after moment earlier slot target, notes recording = .ok () after ∧
    after.machine = recording.machine ∧ after.moments = moment :: earlier ∧
      moment.event = .offered slot target expr value ∧ slot.isElement = false

theorem announces_note {slot : Slot} (notElement : slot.isElement = false) (target : Option Ty)
    (expr : Expr) (value : Value) :
    Announces expr value (Recorded.note (.offered slot target expr value)) :=
  fun _ => ⟨_, _, _, slot, target, rfl, rfl, rfl, rfl, notElement⟩

/-- A tree without annotations asks for no tests. -/
theorem enforce_bare (expr : Expr) (target : Option Ty) (value : Value) :
    Run.enforce (expr.strip false) target value = pure () := by
  cases target with
  | none => rfl
  | some target => simp [Run.enforce, Expr.ty_strip, kept]

/-- A test is the same in both runs, or is only made in the first, and then it is noted what it is
about. -/
theorem enforce_tracks {notes : Recorded Unit} (silent : Recorded.Silent notes) {expr : Expr}
    {value : Value} {target other : Option Ty} (same : step.keep = true → other = target)
    (announces : step.keep = false → expr.ty = some .any → target.isSome = true →
      Announces expr value notes) :
    step.Tracks (notes >>= fun _ => Recorded.perform (Run.enforce expr target value))
      (Run.enforce (expr.strip step.keep) other value) := by
  cases keeps : step.keep with
  | true =>
      rw [same keeps, expr.strip_true]
      refine .after_silent silent (.perform (Run.Quiet.enforce expr target value).grows ?_)
      intro depth
      unfold Run.enforce
      split
      · split
        · exact .throw _
        · exact .pure ()
      · exact .pure ()
  | false =>
      rw [enforce_bare]
      cases target with
      | none => exact .after_silent silent (.perform (.pure ()) fun _ => .pure ())
      | some ty =>
          by_cases fails : (expr.ty = some .any && !value.fits ty) = true
          · simp only [Bool.and_eq_true, decide_eq_true_eq, Bool.not_eq_true'] at fails
            refine ⟨.pure (), fun left right related => ?_⟩
            rcases announces keeps fails.1 rfl left with
              ⟨after, moment, earlier, slot, declared, made, machine_eq, moments, event, notElement⟩
            have thrown : Recorded.perform (Run.enforce expr (some ty) value) after =
                .error (.unfit expr ty value) after := by
              rw [Run.enforce_eq_report fails.1 fails.2]
              rfl
            simp only [bind, EStateM.bind, made, thrown]
            rw [← machine_eq] at related ⊢
            exact .excused (step.misfit keeps related
              ⟨moment, earlier, slot, declared, expr, value, ty, moments, event, notElement,
                fails.1, fails.2, rfl⟩) (Nat.le_refl _)
          · have passes : Run.enforce expr (some ty) value = pure () := if_neg fails
            rw [passes]
            exact .after_silent silent (.perform (.pure ()) fun _ => .pure ())

/-- What comes after a test goes on in step. -/
theorem tested_tracks {notes : Recorded Unit} (silent : Recorded.Silent notes) {expr : Expr}
    {value : Value} {target other : Option Ty} (same : step.keep = true → other = target)
    (announces : step.keep = false → expr.ty = some .any → target.isSome = true →
      Announces expr value notes)
    {next : Recorded α} {runNext : Run α} (rest : step.Tracks next runNext) :
    step.Tracks
      (do
        notes
        Recorded.perform (Run.enforce expr target value)
        next)
      (do
        Run.enforce (expr.strip step.keep) other value
        runNext) := by
  have whole := (enforce_tracks silent same announces).bind fun _ => rest
  rw [bind_assoc] at whole
  exact whole

theorem kept_map {β : Type} {get : α → β} {found : Option α} :
    step.keep = true → (kept step.keep found).map get = found.map get := by
  intro keeps
  rw [keeps, kept]

/-! ## Scopes and variables -/

theorem leave_of_machine {recording : Recording} {id : ScopeId} {outer : Machine}
    (left : recording.machine.leave id = .ok outer) :
    recording.leave id =
      .ok { recording with machine := outer, declared := recording.declared.dropFrom id } := by
  rw [Recording.leave, left]
  rfl

/-- A block is left again in both, whichever way it ends. -/
theorem inScope_tracks {recorded : Recorded α} {run : Run α} (tracks : step.Tracks recorded run) :
    step.Tracks (Recorded.inScope recorded) (Run.inScope run) := by
  refine ⟨tracks.grows.inScope, fun left right same => ?_⟩
  have inside := tracks.inStep left.enter.1 right.enter.1 (step.enter same)
  have deeper : left.enter.1.machine.arena.depth = left.machine.arena.depth + 1 :=
    Machine.depth_enter left.machine
  rw [deeper] at inside
  have sink_eq := Run.sink_inScope run right
  have leftId : left.enter.2 = left.machine.arena.depth := rfl
  have rightId : right.enter.2 = right.arena.depth := rfl
  simp only [Recorded.inScope, leftId]
  generalize recorded left.enter.1 = leftResult at inside
  generalize onRight : run right.enter.1 = rightResult at inside sink_eq
  cases inside with
  | done still deep =>
      rcases step.leave same still deep with ⟨leftOuter, rightOuter, onLeft, rightLeft, outer⟩
      simp only [Run.inScope, onRight, leave_of_machine onLeft, rightId, rightLeft]
      exact .done outer (Machine.depth_leave onLeft deep)
  | stopped still deep =>
      rcases step.leave same still deep with ⟨leftOuter, rightOuter, onLeft, rightLeft, outer⟩
      simp only [Run.inScope, onRight, leave_of_machine onLeft, rightId, rightLeft]
      exact .stopped outer (Machine.depth_leave onLeft deep)
  | excused reason deep =>
      rcases Machine.exists_leave deep with ⟨outer, onLeft, _, outer_sink⟩
      simp only [leave_of_machine onLeft]
      exact .excused (step.excused_later reason rfl outer_sink (.of_sink sink_eq))
        (Machine.depth_leave onLeft deep)

theorem define_inStep {left : Recording} {right : Machine} (same : step.related left.machine right)
    (name : String) (binding : Option Variable) (value : Value) (position : Position) :
    step.InStep left.machine.arena.depth
      (Recorded.define left.machine.current name binding value position left)
      (Run.define right.current name ⟨value, true⟩ position right) := by
  have notes := (Recorded.silent_remember left.machine.current name binding).bind
    (Recorded.silent_note .changed)
  have performed : step.InStep left.machine.arena.depth
      (Recorded.perform (Run.define left.machine.current name ⟨value, true⟩ position) left)
      (Run.define right.current name ⟨value, true⟩ position right) :=
    .perform (step.define same name ⟨value, true⟩ position)
  exact performed.before_silent notes

theorem store_tracks (name : String) (index : Option Int64) (value : Value)
    (position : Position) :
    step.Tracks (Recorded.store name index value position)
      (Run.store name index value position) := by
  refine .before_silent (.perform (Run.Quiet.store name index value position).grows ?_)
    (Recorded.silent_note _)
  intro depth
  exact .store (step.cellAt depth name position)
    (fun cell => step.reassign depth name cell position) index value

theorem cellAt_tracks (name : String) (position : Position) :
    step.Tracks (Recorded.perform (Run.cellAt name position)) (Run.cellAt name position) :=
  .perform (Run.Quiet.cellAt name position).grows fun depth => step.cellAt depth name position

/-! ## Expressions -/

variable {left : Recorded.Caller} {right : Caller}

mutual

theorem evaluate_tracks (calls : step.TracksCalls left right) (expr : Expr)
    (resolved : step.keep = false → expr.Resolved step.functions) :
    step.Tracks (Recorded.evaluate left expr) (Run.evaluate right (expr.strip step.keep)) := by
  cases expr with
  | literal span ty value =>
      simp only [Recorded.evaluate, Run.evaluate, Expr.strip]
      exact .valuing _ (.pure _)
  | group span ty inner =>
      simp only [Recorded.evaluate, Run.evaluate, Expr.strip]
      exact .valuing _ (evaluate_tracks calls inner resolved)
  | binary span ty operator first second =>
      simp only [Recorded.evaluate, Run.evaluate, Expr.strip, Expr.start_strip]
      have second_tracks := evaluate_tracks calls second fun bare => (resolved bare).2
      refine .valuing _ ((evaluate_tracks calls first fun bare => (resolved bare).1).bind
        fun firstValue => .ite ?_ ?_)
      · refine (Pairing.Tracks.ofCause _ _).bind fun truth => .ite (.pure _) ?_
        exact second_tracks.bind fun _ => .ofCause _ _
      · exact second_tracks.bind fun _ => .ofCause _ _
  | access span ty name binding =>
      simp only [Recorded.evaluate, Run.evaluate, Expr.strip]
      exact .valuing _ ((cellAt_tracks name span.start).bind fun _ => .pure _)
  | element span ty name binding offset =>
      simp only [Recorded.evaluate, Run.evaluate, Expr.strip, Expr.start_strip]
      refine .valuing _ ((evaluate_tracks calls offset resolved).bind fun _ => ?_)
      refine (Pairing.Tracks.ofCause _ _).bind fun _ => ?_
      exact (cellAt_tracks name span.start).bind fun _ => .ofCause _ _
  | call span ty name binding arguments =>
      simp only [Recorded.evaluate, Run.evaluate, Expr.strip]
      have others_eq (keeps : step.keep = true) :
          ((kept step.keep binding).map Signature.parameters).getD [] =
            (binding.map Signature.parameters).getD [] := by
        rw [kept_map keeps]
      -- What is announced to arguments is what the recording knows of the called function.
      refine .valuing _ (.after_get ?_ fun recording machine same => ?_)
      · refine (Run.evaluateArguments_grows (fun _ _ _ => (calls _ _ _).grows) _ _).bind ?_
        exact fun values => (calls name values _).grows
      · have announced (bare : step.keep = false) :
            ((binding.map Signature.parameters).getD []).length ≤
              (recording.parameterTypes name arguments.length).length := by
          cases binding with
          | none => exact Nat.zero_le _
          | some signature =>
              exact step.parameters bare same ((resolved bare).1 signature rfl)
        have values := evaluateArguments_tracks calls announced others_eq arguments
          fun bare => (resolved bare).2
        exact (values.bind fun values => calls name values _).inStep recording machine same
  | list span ty elements =>
      simp only [Recorded.evaluate, Run.evaluate, Expr.strip]
      have values : step.Tracks (Recorded.evaluateArguments left [] [] elements)
          (Run.evaluateArguments right [] (Expr.stripAll step.keep elements)) :=
        evaluateArguments_tracks calls (fun _ => Nat.le_refl _) (fun _ => rfl) elements resolved
      exact .valuing _ (values.bind fun _ => .pure _)

theorem evaluateArguments_tracks (calls : step.TracksCalls left right)
    {declared targets others : List Ty}
    (announced : step.keep = false → targets.length ≤ declared.length)
    (same : step.keep = true → others = targets) (arguments : List Expr)
    (resolved : step.keep = false → Expr.AllResolved step.functions arguments) :
    step.Tracks (Recorded.evaluateArguments left declared targets arguments)
      (Run.evaluateArguments right others (Expr.stripAll step.keep arguments)) := by
  cases arguments with
  | nil =>
      simp only [Recorded.evaluateArguments, Run.evaluateArguments, Expr.stripAll]
      exact .pure _
  | cons argument arguments =>
      simp only [Recorded.evaluateArguments, Run.evaluateArguments, Expr.stripAll]
      refine (evaluate_tracks calls argument fun bare => (resolved bare).1).bind fun value => ?_
      refine tested_tracks (Recorded.silent_offerArgument _ argument value)
        (fun keeps => by rw [same keeps]) ?_ ?_
      · intro bare _ expected
        have longer := announced bare
        cases targets with
        | nil => cases expected
        | cons target targets =>
            cases declared with
            | nil => cases longer
            | cons stated declared => exact announces_note rfl (some stated) argument value
      · have shorter (bare : step.keep = false) : targets.tail.length ≤ declared.tail.length := by
          have longer := announced bare
          simp only [List.length_tail]
          omega
        refine (evaluateArguments_tracks calls shorter (fun keeps => by rw [same keeps]) arguments
          fun bare => (resolved bare).2).bind fun _ => .pure _

end

theorem condition_tracks (calls : step.TracksCalls left right) (expr : Expr)
    (resolved : step.keep = false → expr.Resolved step.functions) :
    step.Tracks (Recorded.condition left expr)
      (Run.condition right (expr.strip step.keep)) := by
  simp only [Recorded.condition, Run.condition, Expr.start_strip]
  exact (evaluate_tracks calls expr resolved).bind fun _ => .ofCause _ _

theorem index_tracks (calls : step.TracksCalls left right) (expr : Expr)
    (resolved : step.keep = false → expr.Resolved step.functions) :
    step.Tracks (Recorded.index left expr) (Run.index right (expr.strip step.keep)) := by
  simp only [Recorded.index, Run.index, Expr.start_strip]
  exact (evaluate_tracks calls expr resolved).bind fun _ => .ofCause _ _

/-! ## Statements -/

theorem initialValue_tracks (calls : step.TracksCalls left right)
    {offer : Expr → Value → Recorded Unit}
    (silent : ∀ expr value, Recorded.Silent (offer expr value)) (binding : Option Variable)
    (initializer : Option Expr)
    (announces : step.keep = false → ∀ expr, initializer = some expr → expr.ty = some .any →
      ∀ value, Announces expr value (offer expr value))
    (resolved : step.keep = false → ∀ expr, initializer = some expr →
      expr.Resolved step.functions) :
    step.Tracks (Recorded.initialValue left offer binding initializer)
      (Run.initialValue right (kept step.keep binding)
        (initializer.map (Expr.strip step.keep))) := by
  cases initializer with
  | none => exact .pure _
  | some initializer =>
      simp only [Recorded.initialValue, Run.initialValue, Option.map_some]
      refine (evaluate_tracks calls initializer fun bare => resolved bare initializer rfl).bind
        fun value => ?_
      refine tested_tracks (silent initializer value) kept_map ?_ (.pure _)
      exact fun bare deferred _ => announces bare initializer rfl deferred value

theorem assign_tracks (calls : step.TracksCalls left right) (receiver value : Expr)
    (receiverResolved : step.keep = false → receiver.Resolved step.functions)
    (valueResolved : step.keep = false → value.Resolved step.functions) :
    step.Tracks (Recorded.assign left receiver value)
      (Run.assign right (receiver.strip step.keep) (value.strip step.keep)) := by
  -- Past the index, both kinds of receiver go on in the same way.
  have stored (slot : Recording → Option Ty) (ty : Option Ty) (name : String)
      (index : Option Int64) (position : Position) :
      step.Tracks
        (do
          let assigned ← Recorded.evaluate left value
          let recording ← get
          Recorded.note (.offered .receiver (slot recording) value assigned)
          Recorded.perform (Run.enforce value ty assigned)
          Recorded.store name index assigned position)
        (do
          let assigned ← Run.evaluate right (value.strip step.keep)
          Run.enforce (value.strip step.keep) (kept step.keep ty) assigned
          Run.store name index assigned position) := by
    refine (evaluate_tracks calls value valueResolved).bind fun assigned => ?_
    have tested (recording : Recording) : step.Tracks
        (do
          Recorded.note (.offered .receiver (slot recording) value assigned)
          Recorded.perform (Run.enforce value ty assigned)
          Recorded.store name index assigned position)
        (do
          Run.enforce (value.strip step.keep) (kept step.keep ty) assigned
          Run.store name index assigned position) :=
      tested_tracks (Recorded.silent_note _) (fun keeps => by rw [keeps, kept])
        (fun _ _ _ => announces_note rfl _ value assigned)
        (store_tracks name index assigned position)
    exact .after_get (tested (.initial none)).grows fun recording machine same =>
      (tested recording).inStep recording machine same
  cases receiver with
  | access span ty name binding => exact stored (·.variableType name) ty name none span.start
  | element span ty name binding offset =>
      refine (index_tracks calls offset receiverResolved).bind fun slot => ?_
      exact stored (fun recording => (recording.variableType name).bind Ty.element?) ty name
        (some slot) span.start
  | _ =>
      simp only [Recorded.assign, Run.assign, Expr.strip]
      exact .perform (Run.Quiet.throw _).grows fun _ => .throw _

theorem declare_tracks (name : String) (binding : Option Variable) (value : Value)
    (position : Position) :
    step.Tracks
      (do
        let recording ← get
        Recorded.define recording.machine.current name binding value position)
      (Run.declare name value position) := by
  refine .after_get (fun machine => ?_) fun recording machine same => ?_
  · exact (Run.Quiet.define machine.current name ⟨value, true⟩ position).grows machine
  · exact define_inStep same name binding value position

theorem repeatWhile_tracks {test : Recorded Bool} {runTest : Run Bool} {body : Recorded Signal}
    {runBody : Run Signal} (tests : step.Tracks test runTest) (bodies : step.Tracks body runBody)
    {leftBudget rightBudget : Nat} (affords : step.Affords leftBudget rightBudget) :
    step.Tracks (Recorded.repeatWhile test body leftBudget)
      (Run.repeatWhile runTest runBody rightBudget) := by
  induction leftBudget generalizing rightBudget with
  | zero =>
      apply affords.exhausted (Run.repeatWhile_grows tests.grows bodies.grows rightBudget)
      rintro rfl
      rfl
  | succ leftBudget ih =>
      rcases affords.exists_succ with ⟨rightBudget, rfl, rest⟩
      simp only [Recorded.repeatWhile, Run.repeatWhile]
      refine tests.bind fun holds => .ite (bodies.bind fun signal => ?_) (.pure _)
      cases signal with
      | finish value => exact .pure _
      | goOn => exact ih rest

section

variable {leftBudget rightBudget : Nat}

mutual

theorem execute_tracks (calls : step.TracksCalls left right)
    (affords : step.Affords leftBudget rightBudget) (statement : Stmt)
    (resolved : step.keep = false → statement.Resolved step.functions) :
    step.Tracks (Recorded.execute left leftBudget statement)
      (Run.execute right rightBudget (statement.strip step.keep)) := by
  cases statement with
  | expression span expr =>
      simp only [Recorded.execute, Run.execute, Stmt.strip]
      exact (evaluate_tracks calls expr resolved).bind fun _ => .pure _
  | declaration span name typeName initializer binding =>
      simp only [Recorded.execute, Run.execute, Stmt.strip]
      refine (initialValue_tracks calls (fun _ _ => Recorded.silent_note _) binding initializer
        (fun _ _ _ _ _ => announces_note rfl _ _ _) resolved).bind fun value => ?_
      have declared : step.Tracks _ _ :=
        (declare_tracks name binding value span.start).bind fun _ => .pure Signal.goOn
      rw [bind_assoc] at declared
      exact declared
  | assignment span receiver value =>
      simp only [Recorded.execute, Run.execute, Stmt.strip]
      exact (assign_tracks calls receiver value (fun bare => (resolved bare).1)
        fun bare => (resolved bare).2).bind fun _ => .pure _
  | branch span test thenBody elseBody =>
      simp only [Recorded.execute, Run.execute, Stmt.strip]
      refine (condition_tracks calls test fun bare => (resolved bare).1).bind fun holds =>
        .ite ?_ ?_
      · exact inScope_tracks (executeAll_tracks calls affords thenBody
          fun bare => (resolved bare).2.1)
      · exact inScope_tracks (executeAll_tracks calls affords elseBody
          fun bare => (resolved bare).2.2)
  | switch span subject cases =>
      simp only [Recorded.execute, Run.execute, Stmt.strip]
      exact (evaluate_tracks calls subject fun bare => (resolved bare).1).bind fun value =>
        executeCases_tracks calls affords value cases fun bare => (resolved bare).2
  | loop span test body =>
      simp only [Recorded.execute, Run.execute, Stmt.strip]
      exact repeatWhile_tracks (condition_tracks calls test fun bare => (resolved bare).1)
        (inScope_tracks (executeAll_tracks calls affords body fun bare => (resolved bare).2))
        affords
  | result span expr =>
      simp only [Recorded.execute, Run.execute, Stmt.strip]
      refine (evaluate_tracks calls expr resolved).bind fun value => .after_get ?_ ?_
      · intro machine
        exact ((Run.Quiet.enforce _ machine.returnType value).grows.bind fun _ => .pure _) machine
      · intro recording machine same
        have tested : step.Tracks _ _ := tested_tracks
          (Recorded.silent_note (.offered .result (some recording.resultType) expr value))
          (fun keeps => step.returnType keeps same) (fun _ _ _ => announces_note rfl _ expr value)
          (.pure (Signal.finish value))
        exact tested.inStep recording machine same

theorem executeCases_tracks (calls : step.TracksCalls left right)
    (affords : step.Affords leftBudget rightBudget) (subject : Value) (cases : Cases)
    (resolved : step.keep = false → cases.Resolved step.functions) :
    step.Tracks (Recorded.executeCases left leftBudget subject cases)
      (Run.executeCases right rightBudget subject (cases.strip step.keep)) := by
  cases cases with
  | default span body =>
      simp only [Recorded.executeCases, Run.executeCases, Cases.strip]
      exact inScope_tracks (executeAll_tracks calls affords body resolved)
  | case span value body others =>
      simp only [Recorded.executeCases, Run.executeCases, Cases.strip]
      refine (evaluate_tracks calls value fun bare => (resolved bare).1).bind fun value =>
        .ite ?_ ?_
      · exact inScope_tracks (executeAll_tracks calls affords body
          fun bare => (resolved bare).2.1)
      · exact executeCases_tracks calls affords subject others fun bare => (resolved bare).2.2

theorem executeAll_tracks (calls : step.TracksCalls left right)
    (affords : step.Affords leftBudget rightBudget) (statements : List Stmt)
    (resolved : step.keep = false → Stmt.AllResolved step.functions statements) :
    step.Tracks (Recorded.executeAll left leftBudget statements)
      (Run.executeAll right rightBudget (Stmt.stripAll step.keep statements)) := by
  cases statements with
  | nil =>
      simp only [Recorded.executeAll, Run.executeAll, Stmt.stripAll]
      exact .pure _
  | cons statement others =>
      simp only [Recorded.executeAll, Run.executeAll, Stmt.stripAll]
      refine (execute_tracks calls affords statement fun bare => (resolved bare).1).bind
        fun signal => ?_
      cases signal with
      | finish value => exact .pure _
      | goOn => exact executeAll_tracks calls affords others fun bare => (resolved bare).2

end

end

/-! ## Calls -/

/-- Parameters are bound in the current scope of each machine. -/
theorem bindArguments_inStep {left : Recording} {right : Machine}
    (same : step.related left.machine right) (position : Position) (parameters : List Parameter)
    (values : List Value) :
    step.InStep left.machine.arena.depth
      (Recorded.bindArguments left.machine.current position parameters values left)
      (Run.bindArguments right.current position parameters values right) := by
  induction parameters generalizing values left right with
  | nil => exact .done same (Nat.le_refl _)
  | cons parameter parameters ih =>
      cases values with
      | nil => exact .done same (Nat.le_refl _)
      | cons value values =>
          have first := define_inStep same parameter.name
            (some ⟨parameter.name, .any, true⟩) value position
          simp only [Recorded.bindArguments, Run.bindArguments]
          refine first.bind (fun _ => (Run.Quiet.bindArguments _ _ _ _).grows) ?_
          rintro ⟨⟩ after other onLeft onRight still
          have erased := Recorded.Erases.define left.machine.current parameter.name
            (some ⟨parameter.name, .any, true⟩) value position left
          rw [onLeft] at erased
          rw [← Run.current_of_define erased.symm, ← Run.current_of_define onRight]
          exact ih still values

/-- The body of a function goes in step from callers that agree in what it sees. -/
theorem body_inStep {left : Recording} {right : Machine} (same : step.related left.machine right)
    {body : Recorded Signal} {runBody : Run Signal} (bodies : step.Tracks body runBody)
    (position : Position) (parameters : List Parameter) (values : List Value) :
    step.InStep (left.machine.arena.depth + 1)
      ((Recorded.bindArguments left.enter.2 position parameters values >>= fun _ => body)
        left.enter.1)
      ((Run.bindArguments right.enter.2 position parameters values *> runBody)
        right.enter.1) := by
  have entered : step.related left.enter.1.machine right.enter.1 := step.enter same
  have bound := bindArguments_inStep entered position parameters values
  have deeper : left.enter.1.machine.arena.depth = left.machine.arena.depth + 1 :=
    Machine.depth_enter left.machine
  rw [deeper] at bound
  rw [seqRight_eq_bind]
  exact bound.bind (fun _ => bodies.grows) fun _ after other _ _ still =>
    bodies.inStep after other still

theorem enterFunction_inStep {left : Recording} {right : Machine}
    (same : step.related left.machine right) (function : Function) (closure : ScopeId)
    (sees : step.related
      (left.machine.calling closure (function.binding.map Signature.result))
      (right.calling closure ((function.strip step.keep).binding.map Signature.result)))
    (arguments : List Value) {body : Recorded Signal} {runBody : Run Signal}
    (bodies : step.Tracks body runBody) :
    step.InStep left.machine.arena.depth
      (Recorded.enterFunction function closure arguments body left)
      (Run.enterFunction (function.strip step.keep) closure arguments runBody right) := by
  have called : step.related (left.calling function closure).machine _ := sees
  have inside := body_inStep called bodies function.span.start function.parameters arguments
  have sink_eq := Run.sink_enterFunction (function.strip step.keep) closure arguments runBody right
  have whole := Run.enterFunction_eq (function.strip step.keep) closure arguments runBody right
  simp only [Function.span_strip, Function.parameters_strip] at sink_eq whole
  simp only [Recorded.enterFunction]
  generalize (Recorded.bindArguments _ _ _ _ >>= fun _ => body) _ = leftResult at inside
  generalize (Run.bindArguments _ _ _ _ *> runBody) _ = rightResult at inside sink_eq whole
  cases inside with
  | done still deep =>
      rw [whole]
      exact .done (step.resume same still deep) (Arena.le_depth_dropFrom (Nat.le_of_lt deep))
  | stopped still deep =>
      rw [whole]
      exact .stopped (step.resume same still deep) (Arena.le_depth_dropFrom (Nat.le_of_lt deep))
  | excused reason deep =>
      exact .excused (step.excused_later reason rfl rfl (.of_sink sink_eq))
        (Arena.le_depth_dropFrom (Nat.le_of_lt deep))

theorem callNative_tracks (function : Native) (arguments : List Value)
    (position : Option Position) :
    step.Tracks (Recorded.perform (Run.callNative function arguments position))
      (Run.callNative function arguments position) := by
  refine .perform (Run.Grows.callNative function arguments position) fun depth => ?_
  refine .callNative (fun value => .print ?_ ?_ value position) function arguments
  · rintro left right ⟨same, _⟩
    exact step.sink same
  · rintro left right sink ⟨same, deep⟩
    exact ⟨step.write sink same, deep⟩

/-- Calls go in step, however deep they nest. -/
theorem call_tracks {leftBudget rightBudget : Nat}
    (affords : step.Affords leftBudget rightBudget) :
    step.TracksCalls (Recorded.call leftBudget) (Run.call rightBudget) := by
  induction leftBudget generalizing rightBudget with
  | zero =>
      intro name arguments position
      apply affords.exhausted (Run.call_grows rightBudget name arguments position)
      rintro rfl
      rfl
  | succ leftBudget ih =>
      rcases affords.exists_succ with ⟨rightBudget, rfl, rest⟩
      intro name arguments position
      refine ⟨Run.call_grows _ name arguments position, fun left right same => ?_⟩
      simp only [Recorded.call, Run.call, bind, EStateM.bind, Recorded.perform]
      -- From here on the body of the routine counts, whose calls have a smaller budget.
      cases step.routineAt same name arguments.length position with
      | missing halt onLeft onRight =>
          simp only [onLeft, onRight]
          exact .stopped same (Nat.le_refl _)
      | found routine onLeft onRight sees resolved =>
          simp only [onLeft, onRight]
          cases routine with
          | builtIn function =>
              exact (callNative_tracks function arguments position).inStep left right same
          | written function closure =>
              exact enterFunction_inStep same function closure (sees function closure rfl)
                arguments (executeAll_tracks (ih rest) rest function.body
                  fun bare => resolved bare function closure rfl)

/-- The globals of a program are set up in step. -/
theorem setUpGlobals_tracks {leftBudget rightBudget : Nat}
    (affords : step.Affords leftBudget rightBudget) (globals : List Global)
    (listed : step.keep = false → ∀ global ∈ globals, ∀ span ty elements,
      global.initializer = some (.list span ty elements) → ty ≠ some .any)
    (resolved : step.keep = false → ∀ global ∈ globals, ∀ expr, global.initializer = some expr →
      expr.Resolved step.functions) :
    step.Tracks (Recorded.setUpGlobals leftBudget globals)
      (Run.setUpGlobals rightBudget (globals.map (Global.strip step.keep))) := by
  induction globals with
  | nil => exact .pure ()
  | cons global others ih =>
      have initial := initialValue_tracks (call_tracks affords)
        (Recorded.silent_offerGlobal global.name (Ty.ofName? global.typeName)) global.binding
        global.initializer ?_ fun bare => resolved bare global List.mem_cons_self
      · refine initial.bind fun value => Pairing.Tracks.bind ?_ fun _ => ih
          (fun bare other member => listed bare other (List.mem_cons_of_mem _ member))
          fun bare other member => resolved bare other (List.mem_cons_of_mem _ member)
        have notes := (Recorded.silent_remember Arena.root global.name global.binding).bind
          (Recorded.silent_note .changed)
        refine .before_silent (.perform (Run.Quiet.define _ _ _ _).grows fun depth => ?_) notes
        exact step.defineGlobal depth global.name ⟨value, true⟩ global.span.start
      · intro bare expr given deferred value
        cases expr with
        | list span ty elements =>
            exact absurd deferred (listed bare global List.mem_cons_self span ty elements given)
        | _ => exact announces_note rfl _ _ value

end Lockstep

end GradualScript
