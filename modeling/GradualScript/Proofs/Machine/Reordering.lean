import GradualScript.Proofs.Machine.Budget
import GradualScript.Proofs.Machine.Stripping
import GradualScript.Proofs.Scope.Reordering

/-!
# Running functions in another order

Machines that differ in the order in which functions were added to them go in step. So a program
runs in the same way with its functions in another order, unless one of them is declared twice; then
it stops before `main` is called, whatever the order.
-/

namespace GradualScript

/-- Whether a run ended because a function is declared twice. -/
def Halt.Redeclares (halt : Halt) : Prop :=
  ∃ name arity position, halt = .reported (.located (.functionRedeclared name arity) position)

theorem Arena.redeclares_of_addFunction {V F : Type} {arena : Arena V F} {id : ScopeId}
    {name : String} {arity : Nat} {function : F} {position : Position} {halt : Halt}
    (inside : id < arena.depth)
    (failed : arena.addFunction id name arity function position = .error halt) :
    halt.Redeclares := by
  rcases exists_scope inside with ⟨scope, found⟩
  simp only [addFunction, scope_eq_ok found, bind, Except.bind] at failed
  split at failed
  · cases failed
    exact ⟨name, arity, position, rfl⟩
  · cases failed

namespace Machine

variable {left right : Machine}

/-- Whether nothing tells two machines apart but the order in which functions were added. -/
structure Reordered (left right : Machine) : Prop where
  arena : left.arena.Reordered right.arena
  current : right.current = left.current
  returnType : right.returnType = left.returnType
  sink : right.sink = left.sink

namespace Reordered

theorem refl (machine : Machine) : machine.Reordered machine :=
  ⟨.refl _, rfl, rfl, rfl⟩

theorem sameGlobals (same : left.Reordered right) : left.SameGlobals right :=
  ⟨same.sink, same.arena.global?_eq⟩

theorem enter (same : left.Reordered right) : left.enter.1.Reordered right.enter.1 := by
  refine ⟨?_, same.arena.depth_eq, same.returnType, same.sink⟩
  change (left.arena.push left.current).1.Reordered (right.arena.push right.current).1
  rw [same.current]
  exact same.arena.push left.current

theorem leave {leftInner rightInner : Machine} (outer : left.Reordered right)
    (inner : leftInner.Reordered rightInner)
    (deeper : left.arena.depth < leftInner.arena.depth) :
    ∃ leftOuter rightOuter, leftInner.leave left.arena.depth = .ok leftOuter ∧
      rightInner.leave right.arena.depth = .ok rightOuter ∧ leftOuter.Reordered rightOuter := by
  rcases Arena.exists_scope deeper with ⟨scope, found⟩
  have parents := inner.arena.parent_eq left.arena.depth
  rw [Arena.parent, Arena.parent, Arena.scope_eq_ok found] at parents
  simp only [Machine.leave, outer.arena.depth_eq, Arena.parent, Arena.scope_eq_ok found, parents]
  exact ⟨_, _, rfl, rfl, inner.arena.dropFrom _, rfl, inner.returnType, inner.sink⟩

theorem resume {leftCallee rightCallee : Machine} (caller : left.Reordered right)
    (callee : leftCallee.Reordered rightCallee) :
    (left.resume leftCallee).Reordered (right.resume rightCallee) := by
  refine ⟨?_, caller.current, caller.returnType, callee.sink⟩
  simp only [Machine.resume, caller.arena.depth_eq]
  exact callee.arena.dropFrom _

end Reordered

theorem initial_notEmpty (limit : Option Nat) : 0 < (initial limit).arena.depth :=
  Nat.zero_lt_one

end Machine

namespace Run

variable {left right : Machine} {α β : Type}

theorem bind_of_error {run : Run α} {halt : Halt} (stopped : run left = .error halt right)
    (next : α → Run β) : (run >>= next) left = .error halt right := by
  simp only [Bind.bind, EStateM.bind, stopped]

theorem SameOutcome.mono {related weaker : Machine → Machine → Prop}
    {first second : EStateM.Result Halt Machine α} (same : SameOutcome related first second)
    (weaken : ∀ {left right : Machine}, related left right → weaker left right) :
    SameOutcome weaker first second := by
  cases same with
  | value after => exact .value (weaken after)
  | halt after => exact .halt (weaken after)

/-- A run that loses no scope stays as deep as it was. -/
theorem SameOutcome.deep {related : Machine → Machine → Prop} {run : Run α}
    {result : EStateM.Result Halt Machine α} {depth : Nat}
    (same : SameOutcome related (run left) result) (quiet : run.Quiet)
    (deep : depth ≤ left.arena.depth) :
    SameOutcome (Machine.Deep related depth) (run left) result := by
  have kept := Nat.le_trans deep (quiet left).depth
  generalize run left = first at same kept
  cases same with
  | value after => exact .value ⟨after, kept⟩
  | halt after => exact .halt ⟨after, kept⟩

theorem define_reordered (same : left.Reordered right) (id : ScopeId) (name : String) (cell : Cell)
    (position : Position) :
    SameOutcome Machine.Reordered (define id name cell position left)
      (define id name cell position right) := by
  have added := same.arena.addVariable id name cell position
  rw [define, bind_get, bind_get]
  generalize left.arena.addVariable id name cell position = onLeft at added ⊢
  generalize right.arena.addVariable id name cell position = onRight at added ⊢
  cases added with
  | done still => exact .value ⟨still, same.current, same.returnType, same.sink⟩
  | failed halt => exact .halt same

theorem cellAt_reordered (same : left.Reordered right) (name : String) (position : Position) :
    SameOutcome Machine.Reordered (cellAt name position left) (cellAt name position right) := by
  rw [cellAt, bind_get, bind_get, same.current, same.arena.findVariable_eq]
  rcases left.arena.findVariable left.current name with halt | _ | cell
  · exact .halt same
  · exact .halt same
  · exact .value same

theorem reassign_reordered (same : left.Reordered right) (name : String) (cell : Cell)
    (position : Position) :
    SameOutcome Machine.Reordered (reassign name cell position left)
      (reassign name cell position right) := by
  have assigned := same.arena.assign left.current name cell
  rw [reassign, bind_get, bind_get, same.current]
  generalize left.arena.assign left.current name cell = onLeft at assigned ⊢
  generalize right.arena.assign left.current name cell = onRight at assigned ⊢
  cases assigned with
  | failed halt => exact .halt same
  | done found =>
      cases found with
      | none => exact .halt same
      | some still => exact .value ⟨still, rfl, same.returnType, same.sink⟩

theorem findsSame_reordered (functions : Table (String × Nat) Signature)
    (same : left.Reordered right) (name : String) (arity : Nat) (position : Option Position) :
    Machine.FindsSame Machine.Reordered true functions left right name arity position := by
  have searches : right.arena.findFunction right.current name arity =
      left.arena.findFunction left.current name arity := by
    rw [same.current, same.arena.findFunction_eq]
  cases searched : left.arena.findFunction left.current name arity with
  | error halt =>
      rw [searched] at searches
      exact .missing halt (routineAt_of_error searched position)
        (routineAt_of_error searches position)
  | ok found =>
      rw [searched] at searches
      cases found with
      | none =>
          exact .missing _ (routineAt_of_none searched position)
            (routineAt_of_none searches position)
      | some routine =>
          refine .found routine (routineAt_of_some searched position) ?_ ?_ ?_
          · rw [routine.strip_true]
            exact routineAt_of_some searches position
          · intro function closure _
            rw [function.strip_true]
            exact ⟨same.arena, rfl, rfl, same.sink⟩
          · intro impossible
            cases impossible

end Run

/-- Machines that differ in the order of functions, in step. -/
def Lockstep.reordered : Lockstep where
  related := Machine.Reordered
  excused := fun _ _ _ => False
  excused_later := fun impossible _ _ _ => impossible
  keep := true
  functions := .empty
  misfit := by
    intro impossible
    cases impossible
  returnType := fun _ _ _ same => same.returnType
  parameters := by
    intro impossible
    cases impossible
  cellAt := by
    rintro depth name position left right ⟨same, deep⟩
    exact (Run.cellAt_reordered same name position).deep (.cellAt name position) deep
  define := by
    intro left right same name cell position
    rw [same.current]
    exact (Run.define_reordered same _ name cell position).deep (.define _ name cell position)
      (Nat.le_refl _)
  defineGlobal := by
    rintro depth name cell position left right ⟨same, deep⟩
    exact (Run.define_reordered same _ name cell position).deep (.define _ name cell position) deep
  reassign := by
    rintro depth name cell position left right ⟨same, deep⟩
    exact (Run.reassign_reordered same name cell position).deep (.reassign name cell position) deep
  sink := Machine.Reordered.sink
  write := fun _ same => ⟨same.arena, same.current, same.returnType, rfl⟩
  enter := Machine.Reordered.enter
  leave := Machine.Reordered.leave
  routineAt := Run.findsSame_reordered _
  resume := fun caller callee _ => caller.resume callee

namespace Run

variable {left right machine after : Machine} {functions others : List Function}

/-- A call comes to the same, whatever the order in which functions were added. -/
theorem call_reordered (same : left.Reordered right) (budget : Nat) (name : String)
    (arguments : List Value) (position : Option Position) :
    SameOutcome Machine.Reordered (call budget name arguments position left)
      (call budget name arguments position right) := by
  let start : Recording := ⟨left, .empty, .nil, []⟩
  have affords : Lockstep.reordered.Affords budget budget := .inl rfl
  have inStep := (Lockstep.call_tracks affords name arguments position).inStep start right same
  have erased := Recorded.call_erases budget name arguments position start
  rw [← erased]
  generalize Recorded.call budget name arguments position start = first at inStep ⊢
  generalize call budget name arguments position right = second at inStep ⊢
  cases inStep with
  | done still _ => exact .value still
  | stopped still _ => exact .halt still
  | excused impossible _ => exact impossible.elim

/-! ## Setting up functions -/

/-- Whether two runs come to the same value or stop for the same reason, or both stop at a function
that is declared twice. The functions that they stop at may differ. -/
inductive SameOrRedeclared {α : Type} :
    EStateM.Result Halt Machine α → EStateM.Result Halt Machine α → Prop
  | same {first second : EStateM.Result Halt Machine α}
      (same : SameOutcome Machine.SameGlobals first second) : SameOrRedeclared first second
  | redeclared {halt otherHalt : Halt} {left right : Machine} (redeclares : halt.Redeclares)
      (otherRedeclares : otherHalt.Redeclares) (still : left.SameGlobals right) :
      SameOrRedeclared (.error halt left) (.error otherHalt right)

theorem SameOrRedeclared.sameOutcome {α : Type} {first second : EStateM.Result Halt Machine α}
    (runs : SameOrRedeclared first second)
    (declaredOnce : ∀ halt machine, first = .error halt machine → ¬ halt.Redeclares) :
    SameOutcome Machine.SameGlobals first second := by
  cases runs with
  | same same => exact same
  | redeclared redeclares _ _ => exact absurd redeclares (declaredOnce _ _ rfl)

/-- What a function adds to the functions of a machine. -/
def entryOf (function : Function) : (String × Nat) × Routine :=
  ((function.name, function.arity), .written function Arena.root)

theorem setUpFunctions_eq_ok_iff :
    setUpFunctions functions machine = .ok () after ↔
      ∃ arena, machine.arena.AddsFunctions (functions.map entryOf) arena ∧
        after = { machine with arena } := by
  induction functions generalizing machine with
  | nil =>
      constructor
      · intro ran
        cases ran
        exact ⟨_, .nil, rfl⟩
      · rintro ⟨_, adds, rfl⟩
        cases adds
        rfl
  | cons function others ih =>
      rw [setUpFunctions, bind_get]
      cases added : machine.arena.addFunction Arena.root function.name function.arity
          (.written function Arena.root) function.span.start with
      | error halt =>
          constructor
          · intro ran
            cases ran
          · rintro ⟨arena, adds, rfl⟩
            cases adds with
            | cons lacks _ =>
                rw [Arena.addFunction_root_eq_ok_iff.mpr ⟨lacks, rfl⟩] at added
                cases added
      | ok arena =>
          rcases Arena.addFunction_root_eq_ok_iff.mp added with ⟨lacks, rfl⟩
          rw [bind_ofExcept rfl]
          refine Iff.trans ih ?_
          constructor
          · rintro ⟨last, adds, rfl⟩
            exact ⟨last, .cons lacks adds, rfl⟩
          · rintro ⟨last, adds, rfl⟩
            cases adds with
            | cons _ rest => exact ⟨last, rest, rfl⟩

/-- Where there is a root scope, functions are set up unless one of them is declared twice. What can
be seen of the machine stays as it was. -/
theorem setUpFunctions_eq_error {halt : Halt} (notEmpty : 0 < machine.arena.depth)
    (stopped : setUpFunctions functions machine = .error halt after) :
    halt.Redeclares ∧ machine.SameGlobals after := by
  induction functions generalizing machine with
  | nil => cases stopped
  | cons function others ih =>
      rw [setUpFunctions, bind_get] at stopped
      cases added : machine.arena.addFunction Arena.root function.name function.arity
          (.written function Arena.root) function.span.start with
      | error other =>
          rw [added] at stopped
          cases stopped
          exact ⟨Arena.redeclares_of_addFunction notEmpty added, rfl, fun _ => rfl⟩
      | ok arena =>
          rw [bind_ofExcept added] at stopped
          rcases Arena.addFunction_root_eq_ok_iff.mp added with ⟨_, rfl⟩
          have stillNotEmpty := Nat.lt_of_lt_of_eq notEmpty (machine.arena.depth_putFunction
            Arena.root (function.name, function.arity) (.written function Arena.root)).symm
          rcases ih stillNotEmpty stopped with ⟨redeclares, sink, globals⟩
          refine ⟨redeclares, sink, fun name => ?_⟩
          rw [globals name]
          exact Arena.global?_putFunction ..

/-- No scope is lost while globals are set up. -/
theorem depth_setUpGlobals {budget : Nat} {globals : List Global}
    (ran : setUpGlobals budget globals machine = .ok () after) :
    machine.arena.depth ≤ after.arena.depth := by
  let start : Recording := ⟨machine, .empty, .nil, []⟩
  have annotated : Lockstep.reordered.keep ≠ false := by
    intro impossible
    cases impossible
  have affords : Lockstep.reordered.Affords budget budget := .inl rfl
  have inStep := (Lockstep.setUpGlobals_tracks affords globals (absurd · annotated)
    (absurd · annotated)).inStep start machine (.refl machine)
  have erased := Recorded.setUpGlobals_erases budget globals start
  rw [ran] at erased
  generalize Recorded.setUpGlobals budget globals start = first at inStep erased
  generalize setUpGlobals budget _ machine = second at inStep
  cases inStep with
  | done _ deep =>
      cases erased
      exact deep
  | stopped _ _ => cases erased
  | excused impossible _ => exact impossible.elim

/-- With its functions in another order a program comes to the same, unless a function is declared
twice. -/
theorem program_reordered (reordered : functions.Perm others) (notEmpty : 0 < machine.arena.depth)
    (budget : Nat) (globals : List Global) :
    SameOrRedeclared (program budget ⟨globals, functions⟩ machine)
      (program budget ⟨globals, others⟩ machine) := by
  cases set : setUpGlobals budget globals machine with
  | error halt after =>
      rw [program, program, bind_of_error set, bind_of_error set]
      exact .same (.halt ⟨rfl, fun _ => rfl⟩)
  | ok _ middle =>
      have deep : 0 < middle.arena.depth := Nat.lt_of_lt_of_le notEmpty (depth_setUpGlobals set)
      rw [program, program, bind_of_ok set, bind_of_ok set]
      cases first : setUpFunctions functions middle with
      | ok _ left =>
          rcases setUpFunctions_eq_ok_iff.mp first with ⟨arena, adds, rfl⟩
          rcases adds.perm (reordered.map entryOf) (.refl _) with ⟨last, addsOthers, same⟩
          have second := setUpFunctions_eq_ok_iff.mpr ⟨last, addsOthers, rfl⟩
          rw [bind_of_ok first, bind_of_ok second]
          have reorderedThen :
              Machine.Reordered { middle with arena } { middle with arena := last } :=
            ⟨same, rfl, rfl, rfl⟩
          have called := call_reordered reorderedThen budget Checker.mainName [] none
          exact .same (called.mono Machine.Reordered.sameGlobals)
      | error halt left =>
          cases second : setUpFunctions others middle with
          | ok _ right =>
              -- What can be set up in one order can be set up in the other.
              rcases setUpFunctions_eq_ok_iff.mp second with ⟨arena, adds, rfl⟩
              rcases adds.perm (reordered.symm.map entryOf) (.refl _) with ⟨last, addsFirst, _⟩
              rw [setUpFunctions_eq_ok_iff.mpr ⟨last, addsFirst, rfl⟩] at first
              cases first
          | error otherHalt right =>
              rw [bind_of_error first, bind_of_error second]
              rcases setUpFunctions_eq_error deep first with ⟨redeclares, sink, sameGlobals⟩
              rcases setUpFunctions_eq_error deep second with ⟨otherwise, otherSink, others⟩
              refine .redeclared redeclares otherwise ⟨otherSink.trans sink.symm, fun name => ?_⟩
              exact (others name).trans (sameGlobals name).symm

end Run

end GradualScript
