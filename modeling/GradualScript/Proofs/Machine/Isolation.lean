import GradualScript.Proofs.Machine.Budget
import GradualScript.Proofs.Scope.Alignment

/-!
# Calls see the root only

The body of a function sees the names of its own scopes and of the root, since that is where
functions are declared. So what a call does depends on nothing else of its caller, and it touches
nothing else: from two machines that have the same root, but are otherwise in different places of
different programs, the same call comes to the same result.
-/

namespace GradualScript

namespace Machine

variable {leftStart rightStart : Arena Cell Routine} {left right : Machine}

/-- Whether two machines with scopes of their own below see the same, and go on with the same. -/
structure Aligned (leftStart rightStart : Arena Cell Routine) (left right : Machine) : Prop where
  arenas : ∃ count, Arena.Aligned leftStart rightStart count left.arena right.arena ∧
    Arena.Matching leftStart.depth rightStart.depth count left.current right.current
  closures : left.arena.AllFunctions fun _ routine => routine.SeesRoot
  returnType : left.returnType = right.returnType
  sink : left.sink = right.sink

namespace Aligned

theorem calling (aligned : Aligned leftStart rightStart left right) (returnType : Option Ty) :
    Aligned leftStart rightStart (left.calling Arena.root returnType)
      (right.calling Arena.root returnType) := by
  rcases aligned.arenas with ⟨count, arenas, _⟩
  exact ⟨⟨count, arenas, .root⟩, aligned.closures, rfl, aligned.sink⟩

theorem enter (aligned : Aligned leftStart rightStart left right) :
    Aligned leftStart rightStart left.enter.1 right.enter.1 := by
  rcases aligned.arenas with ⟨count, arenas, matching⟩
  refine ⟨⟨count + 1, arenas.push matching, ?_⟩, aligned.closures.push _, aligned.returnType,
    aligned.sink⟩
  change Arena.Matching _ _ _ left.arena.depth right.arena.depth
  rw [arenas.leftDepth, arenas.rightDepth]
  exact .entered (Nat.lt_succ_self count)

theorem leave {leftInner rightInner : Machine} (aligned : Aligned leftStart rightStart left right)
    (inner : Aligned leftStart rightStart leftInner rightInner)
    (deeper : left.arena.depth < leftInner.arena.depth) :
    ∃ leftOuter rightOuter, leftInner.leave left.arena.depth = .ok leftOuter ∧
      rightInner.leave right.arena.depth = .ok rightOuter ∧
        Aligned leftStart rightStart leftOuter rightOuter := by
  rcases aligned.arenas with ⟨count, arenas, _⟩
  rcases inner.arenas with ⟨innerCount, innerArenas, _⟩
  rw [arenas.leftDepth, innerArenas.leftDepth] at deeper
  have fewer : count ≤ innerCount := Nat.le_of_lt (Nat.lt_of_add_lt_add_left deeper)
  rcases Arena.exists_scope (innerArenas.leftDepth ▸ deeper) with ⟨scope, found⟩
  rcases innerArenas.inner found with ⟨leftParent, rightParent, up, present, parents⟩
  simp only [Machine.leave, Arena.parent, arenas.leftDepth, arenas.rightDepth,
    Arena.scope_eq_ok found, Arena.scope_eq_ok present]
  refine ⟨_, _, rfl, rfl, ⟨count, innerArenas.dropFrom fewer, ?_⟩, inner.closures.dropFrom _,
    inner.returnType, inner.sink⟩
  rw [up]
  exact parents

theorem resume {leftCallee rightCallee : Machine}
    (aligned : Aligned leftStart rightStart left right)
    (callees : Aligned leftStart rightStart leftCallee rightCallee)
    (deeper : left.arena.depth < leftCallee.arena.depth) :
    Aligned leftStart rightStart (left.resume leftCallee) (right.resume rightCallee) := by
  rcases aligned.arenas with ⟨count, arenas, matching⟩
  rcases callees.arenas with ⟨calleeCount, calleeArenas, _⟩
  rw [arenas.leftDepth, calleeArenas.leftDepth] at deeper
  have dropped := calleeArenas.dropFrom (Nat.le_of_lt (Nat.lt_of_add_lt_add_left deeper))
  rw [← arenas.leftDepth, ← arenas.rightDepth] at dropped
  exact ⟨⟨count, dropped, matching⟩, callees.closures.dropFrom _, aligned.returnType, callees.sink⟩

theorem cellAt (depth : Nat) (name : String) (position : Position) :
    Run.Alike (Deep (Aligned leftStart rightStart) depth) (Run.cellAt name position)
      (Run.cellAt name position) := by
  rintro left right ⟨aligned, deep⟩
  rcases aligned.arenas with ⟨count, arenas, matching⟩
  have searched := arenas.search (·.variableTable.find? name) (fun _ _ => rfl) matching
  generalize onLeft : left.arena.search _ left.current = leftPlace at searched
  generalize onRight : right.arena.search _ right.current = rightPlace at searched
  cases searched with
  | found value owners =>
      rw [Run.cellAt_of_search onLeft, Run.cellAt_of_search onRight]
      exact .value ⟨aligned, deep⟩
  | nowhere =>
      rw [Run.cellAt_of_nowhere onLeft, Run.cellAt_of_nowhere onRight]
      exact .halt ⟨aligned, deep⟩

/-- A variable is added to scopes that match. -/
theorem define_matching {count : Nat} {leftId rightId : ScopeId}
    (aligned : Aligned leftStart rightStart left right)
    (arenas : Arena.Aligned leftStart rightStart count left.arena right.arena)
    (currents : Arena.Matching leftStart.depth rightStart.depth count left.current right.current)
    (matching : Arena.Matching leftStart.depth rightStart.depth count leftId rightId) {depth : Nat}
    (deep : depth ≤ left.arena.depth) (name : String) (cell : Cell) (position : Position) :
    Run.SameOutcome (Deep (Aligned leftStart rightStart) depth)
      (Run.define leftId name cell position left)
      (Run.define rightId name cell position right) := by
  rcases Arena.exists_scope (arenas.lt_depth matching) with ⟨scope, found⟩
  rcases arenas.scope_right matching found with ⟨parent, present⟩
  by_cases fresh : scope.variableTable.find? name = none
  · rw [Run.define_of_fresh found fresh, Run.define_of_fresh present fresh]
    have evolves := Arena.Evolves.put left.arena leftId name cell
    exact .value ⟨⟨⟨count, arenas.modify matching fun _ _ => rfl, currents⟩,
      evolves.allFunctions aligned.closures, aligned.returnType, aligned.sink⟩,
      evolves.depth ▸ deep⟩
  · rw [Run.define_of_taken found fresh, Run.define_of_taken present fresh]
    exact .halt ⟨aligned, deep⟩

theorem define (aligned : Aligned leftStart rightStart left right) (name : String) (cell : Cell)
    (position : Position) :
    Run.SameOutcome (Deep (Aligned leftStart rightStart) left.arena.depth)
      (Run.define left.current name cell position left)
      (Run.define right.current name cell position right) := by
  rcases aligned.arenas with ⟨count, arenas, matching⟩
  exact aligned.define_matching arenas matching matching (Nat.le_refl _) name cell position

theorem defineGlobal (depth : Nat) (name : String) (cell : Cell) (position : Position) :
    Run.Alike (Deep (Aligned leftStart rightStart) depth)
      (Run.define Arena.root name cell position) (Run.define Arena.root name cell position) := by
  rintro left right ⟨aligned, deep⟩
  rcases aligned.arenas with ⟨count, arenas, matching⟩
  exact aligned.define_matching arenas matching .root deep name cell position

theorem reassign (depth : Nat) (name : String) (cell : Cell) (position : Position) :
    Run.Alike (Deep (Aligned leftStart rightStart) depth) (Run.reassign name cell position)
      (Run.reassign name cell position) := by
  rintro left right ⟨aligned, deep⟩
  rcases aligned.arenas with ⟨count, arenas, matching⟩
  have searched := arenas.search (·.variableTable.find? name) (fun _ _ => rfl) matching
  generalize onLeft : left.arena.search _ left.current = leftPlace at searched
  generalize onRight : right.arena.search _ right.current = rightPlace at searched
  cases searched with
  | @found owner _ value owners =>
      rw [Run.reassign_of_search onLeft, Run.reassign_of_search onRight]
      have evolves := Arena.Evolves.give left.arena owner name cell Arena.root fun _ => False
      exact .value ⟨⟨⟨count, arenas.modify owners fun _ _ => rfl, matching⟩,
        evolves.allFunctions aligned.closures, aligned.returnType, aligned.sink⟩,
        evolves.depth ▸ deep⟩
  | nowhere =>
      rw [Run.reassign_of_nowhere onLeft, Run.reassign_of_nowhere onRight]
      exact .halt ⟨aligned, deep⟩

theorem routineAt (aligned : Aligned leftStart rightStart left right) (name : String) (arity : Nat)
    (position : Option Position) :
    FindsSame (Aligned leftStart rightStart) true .empty left right name arity position := by
  rcases aligned.arenas with ⟨count, arenas, matching⟩
  have searched :=
    arenas.search (·.functionTable.find? (name, arity)) (fun _ _ => rfl) matching
  generalize onLeft : left.arena.search _ left.current = leftPlace at searched
  generalize onRight : right.arena.search _ right.current = rightPlace at searched
  cases searched with
  | found routine owners =>
      have rightFound :=
        Run.routineAt_of_some (Arena.findFunction_of_search onRight) position
      rw [← routine.strip_true] at rightFound
      refine .found routine (Run.routineAt_of_some (Arena.findFunction_of_search onLeft) position)
        rightFound ?_ fun impossible => ?_
      · rintro function closure rfl
        have atRoot : closure = Arena.root := aligned.closures.found onLeft
        subst atRoot
        rw [function.strip_true]
        exact aligned.calling _
      · cases impossible
  | nowhere =>
      exact .missing _ (Run.routineAt_of_none (Arena.findFunction_of_search onLeft) position)
        (Run.routineAt_of_none (Arena.findFunction_of_search onRight) position)

end Aligned

/-- Whether two machines are well formed, print to the same place and have the same root, in which
all functions are. -/
structure SameRoot (left right : Machine) : Prop where
  onLeft : left.WellFormed
  onRight : right.WellFormed
  root : left.arena.scopes[Arena.root]? = right.arena.scopes[Arena.root]?
  functions : ∃ functions, left.arena.Declares functions ∧ right.arena.Declares functions
  sink : left.sink = right.sink

/-- Whether two machines that came from others have the same root and have printed the same, and
every other scope of each is as it was. -/
structure Isolated (left right leftAfter rightAfter : Machine) : Prop where
  root : leftAfter.arena.scopes[Arena.root]? = rightAfter.arena.scopes[Arena.root]?
  sink : leftAfter.sink = rightAfter.sink
  onLeft : ∀ id, id ≠ Arena.root → leftAfter.arena.scopes[id]? = left.arena.scopes[id]?
  onRight : ∀ id, id ≠ Arena.root → rightAfter.arena.scopes[id]? = right.arena.scopes[id]?

namespace SameRoot

/-- What a call enters is the same. -/
theorem calling (same : SameRoot left right) (returnType : Option Ty) :
    Aligned left.arena right.arena (left.calling Arena.root returnType)
      (right.calling Arena.root returnType) := by
  have leftPos : Arena.root < left.arena.depth := Nat.zero_lt_of_lt same.onLeft.inside
  have rightPos : Arena.root < right.arena.depth := Nat.zero_lt_of_lt same.onRight.inside
  exact ⟨⟨0, .start leftPos rightPos same.onLeft.ordered same.root, .root⟩, same.onLeft.closures,
    rfl, same.sink⟩

theorem write (same : SameRoot left right) (sink : Sink) :
    Isolated left right { left with sink } { right with sink } :=
  ⟨same.root, rfl, fun _ _ => rfl, fun _ _ => rfl⟩

end SameRoot

/-- A function comes back to callers that still differ in what they differed in. -/
theorem Aligned.isolated {leftCallee rightCallee : Machine}
    (aligned : Aligned left.arena right.arena leftCallee rightCallee) :
    Isolated left right (left.resume leftCallee) (right.resume rightCallee) := by
  rcases aligned.arenas with ⟨count, arenas, _⟩
  have dropped := arenas.dropFrom (Nat.zero_le count)
  exact ⟨dropped.shared, aligned.sink, fun _ => dropped.leftKeeps.eq dropped.leftDepth,
    fun _ => dropped.rightKeeps.eq dropped.rightDepth⟩

end Machine

/-- Machines that see the same go in step. -/
def Lockstep.aligned (leftStart rightStart : Arena Cell Routine) : Lockstep where
  related := Machine.Aligned leftStart rightStart
  excused := fun _ _ _ => False
  excused_later := fun impossible _ _ _ => impossible
  keep := true
  functions := .empty
  misfit := by
    intro impossible
    cases impossible
  returnType := fun _ _ _ same => same.returnType.symm
  parameters := by
    intro impossible
    cases impossible
  cellAt := Machine.Aligned.cellAt
  define := Machine.Aligned.define
  defineGlobal := Machine.Aligned.defineGlobal
  reassign := Machine.Aligned.reassign
  sink := fun same => same.sink.symm
  write := fun _ same => ⟨same.arenas, same.closures, same.returnType, rfl⟩
  enter := Machine.Aligned.enter
  leave := Machine.Aligned.leave
  routineAt := Machine.Aligned.routineAt
  resume := Machine.Aligned.resume

namespace Run

variable {left right : Machine}

theorem callNative_isolated (same : Machine.SameRoot left right) (function : Native)
    (arguments : List Value) (position : Option Position) :
    SameOutcome (Machine.Isolated left right) (callNative function arguments position left)
      (callNative function arguments position right) := by
  let related (first second : Machine) : Prop :=
    ∃ sink, first = { left with sink } ∧ second = { right with sink }
  have prints (value : Value) : Alike related (print value position) (print value position) := by
    apply Alike.print
    · rintro _ _ ⟨sink, rfl, rfl⟩
      rfl
    · rintro _ _ sink ⟨_, rfl, rfl⟩
      exact ⟨sink, rfl, rfl⟩
  have outcome := Alike.callNative prints function arguments left right
    ⟨left.sink, rfl, by rw [same.sink]⟩
  generalize callNative function arguments position left = leftResult at outcome
  generalize callNative function arguments position right = rightResult at outcome
  cases outcome with
  | value after =>
      rcases after with ⟨sink, rfl, rfl⟩
      exact .value (same.write sink)
  | halt after =>
      rcases after with ⟨sink, rfl, rfl⟩
      exact .halt (same.write sink)

theorem enterFunction_isolated (same : Machine.SameRoot left right) (function : Function)
    (arguments : List Value) (budget : Nat) :
    SameOutcome (Machine.Isolated left right)
      (enterFunction function Arena.root arguments
        (executeAll (call budget) budget function.body) left)
      (enterFunction function Arena.root arguments
        (executeAll (call budget) budget function.body) right) := by
  let step := Lockstep.aligned left.arena right.arena
  let start : Recording := ⟨left, .empty, .nil, []⟩
  have annotated : step.keep ≠ false := by
    intro impossible
    cases impossible
  have affords : step.Affords budget budget := .inl rfl
  have bodies := Lockstep.executeAll_tracks (Lockstep.call_tracks affords) affords function.body
    (absurd · annotated)
  change step.Tracks _ (executeAll _ _ (Stmt.stripAll true function.body)) at bodies
  rw [Stmt.stripAll_true] at bodies
  have called : step.related (start.calling function Arena.root).machine _ :=
    same.calling (function.binding.map Signature.result)
  have inside := Lockstep.body_inStep called bodies function.span.start function.parameters
    arguments
  have erased := Recorded.enterFunction_erases function Arena.root arguments
    (Recorded.executeAll_erases (Recorded.call_erases budget) budget function.body) start
  rw [← erased, enterFunction_eq]
  simp only [Recorded.enterFunction]
  generalize (Recorded.bindArguments _ _ _ _ >>= fun _ => Recorded.executeAll _ _ _) _ = leftResult
    at inside
  generalize (bindArguments _ _ _ _ *> executeAll _ _ _) _ = rightResult at inside
  cases inside with
  | done still _ => exact .value (Machine.Aligned.isolated still)
  | stopped still _ => exact .halt (Machine.Aligned.isolated still)
  | excused reason _ => exact reason.elim

theorem call_isolated (same : Machine.SameRoot left right) (budget : Nat) (name : String)
    (arguments : List Value) (position : Option Position) :
    SameOutcome (Machine.Isolated left right) (call budget name arguments position left)
      (call budget name arguments position right) := by
  have unchanged : Machine.Isolated left right left right :=
    ⟨same.root, same.sink, fun _ _ => rfl, fun _ _ => rfl⟩
  cases budget with
  | zero => exact .halt unchanged
  | succ budget =>
      rcases same.functions with ⟨functions, leftDeclares, rightDeclares⟩
      have onLeft := same.onLeft.ordered.findFunction leftDeclares same.onLeft.inside name
        arguments.length
      have onRight := same.onRight.ordered.findFunction rightDeclares same.onRight.inside name
        arguments.length
      cases found : functions.find? (name, arguments.length) with
      | none =>
          rw [found] at onLeft onRight
          simp only [call, bind, EStateM.bind, routineAt_of_none onLeft, routineAt_of_none onRight]
          exact .halt unchanged
      | some routine =>
          rw [found] at onLeft onRight
          rw [call, bind_of_ok (routineAt_of_some onLeft position),
            bind_of_ok (routineAt_of_some onRight position)]
          cases routine with
          | builtIn function => exact callNative_isolated same function arguments position
          | written function closure =>
              rcases Arena.exists_scope (Nat.zero_lt_of_lt same.onLeft.inside) with ⟨scope, atRoot⟩
              have table : scope.functionTable = functions := leftDeclares _ _ atRoot
              have sees : closure = Arena.root := by
                rw [← table] at found
                exact same.onLeft.closures Arena.root scope atRoot _ _ found
              subst sees
              exact enterFunction_isolated same function arguments budget

/-- From machines with the same root a call gives the same value or stops for the same reason,
prints the same and changes the root in the same way, however they differ in other scopes. Of these
it changes none. If it ends for one machine, it ends for the other. -/
theorem calls_isolated (same : Machine.SameRoot left right) (name : String)
    (arguments : List Value) (position : Option Position) :
    (∀ budget, SameOutcome (Machine.Isolated left right)
        (call budget name arguments position left) (call budget name arguments position right)) ∧
      ((∃ budget, ended (call budget name arguments position left) = true) ↔
        ∃ budget, ended (call budget name arguments position right) = true) := by
  refine ⟨fun budget => call_isolated same budget name arguments position, ?_⟩
  constructor
  · rintro ⟨budget, hasEnded⟩
    exact ⟨budget, (call_isolated same budget name arguments position).ended_eq ▸ hasEnded⟩
  · rintro ⟨budget, hasEnded⟩
    exact ⟨budget, (call_isolated same budget name arguments position).ended_eq ▸ hasEnded⟩

/-- A function that reads a variable, called from the root and from a scope that has one of this
name. -/
theorem calls_isolated_from_local :
    let span : Span := ⟨.null, .null⟩
    let function : Function :=
      ⟨span, "get", [], none, [.result span (.access span none "x" none)], none⟩
    let start := Machine.initial none
    let left : Machine :=
      { start with
        arena := start.arena.putFunction Arena.root ("get", 0) (.written function Arena.root) }
    let right : Machine :=
      { left.enter.1 with arena := left.enter.1.arena.put left.enter.2 "x" ⟨.nil, true⟩ }
    Machine.SameRoot left right ∧
      SameOutcome (Machine.Isolated left right) (call 2 "get" [] none left)
        (call 2 "get" [] none right) := by
  intro span function start left right
  have wellFormed : start.WellFormed := Machine.initial_wellFormed none
  have leftFormed : left.WellFormed :=
    ⟨wellFormed.ordered.putFunction _ _ _, wellFormed.inside, wellFormed.closures.putFunction _ rfl⟩
  have evolves := Arena.Evolves.put left.enter.1.arena left.enter.2 "x" ⟨.nil, true⟩
  have declares : left.arena.Declares _ := (Arena.Declares.ofFunctions _).putFunction _ _
  have notEmpty : 0 < left.arena.depth := leftFormed.inside
  have same : Machine.SameRoot left right :=
    ⟨leftFormed, ⟨evolves.ordered leftFormed.enter.ordered, evolves.depth ▸ leftFormed.enter.inside,
      evolves.allFunctions leftFormed.enter.closures⟩, rfl,
      ⟨_, declares, (declares.push notEmpty _).put _ _ _⟩, rfl⟩
  exact ⟨same, (calls_isolated same "get" [] none).1 2⟩

end Run

end GradualScript
