import GradualScript.Proofs.Machine.Lockstep
import GradualScript.Proofs.Machine.Soundness

/-!
# Runs of trees without annotations

Annotations ask a machine to test values, and nothing else. So a well-typed program and the same
program without its annotations go in step, until a test fails. Then the annotated one stops, and
the other goes on from where it is.

That calls refer to known functions is all that is used of types here. It is what makes every test
of an argument follow a note about it.
-/

namespace GradualScript

namespace Arena

variable {V F G : Type} {left : Arena V F} {right : Arena V G} {id : ScopeId}

theorem Mirrors.give (mirrors : left.Mirrors Eq right) (owner : ScopeId) (name : String)
    (value : V) : (left.give owner name value).Mirrors Eq (right.give owner name value) := by
  have depth_eq : left.scopes.size = right.scopes.size := mirrors.depth
  refine ⟨by simp only [Arena.depth, Arena.give, Array.size_modify, depth_eq], ?_⟩
  intro other leftScope rightScope leftFound rightFound
  rw [scopes_give] at leftFound rightFound
  split at leftFound
  · rename_i same
    rw [if_pos same] at rightFound
    rcases Option.map_eq_some_iff.mp leftFound with ⟨leftBefore, leftPresent, rfl⟩
    rcases Option.map_eq_some_iff.mp rightFound with ⟨rightBefore, rightPresent, rfl⟩
    rcases mirrors.scopes other _ _ leftPresent rightPresent with ⟨parents, tables⟩
    refine ⟨parents, fun key => ?_⟩
    have pair := tables key
    rw [Table.find?_replace, Table.find?_replace]
    split
    · generalize leftBefore.variableTable.find? key = leftValue at pair ⊢
      generalize rightBefore.variableTable.find? key = rightValue at pair ⊢
      cases pair with
      | none => exact .none
      | some _ => exact .some rfl
    · exact pair
  · rename_i different
    rw [if_neg different] at rightFound
    exact mirrors.scopes other _ _ leftFound rightFound

theorem Mirrors.symm (mirrors : left.Mirrors Eq right) : right.Mirrors Eq left := by
  refine ⟨mirrors.depth.symm, fun id leftScope rightScope leftFound rightFound => ?_⟩
  rcases mirrors.scopes id _ _ rightFound leftFound with ⟨parents, tables⟩
  refine ⟨parents.symm, fun key => ?_⟩
  have pair := tables key
  generalize rightScope.variableTable.find? key = rightValue at pair ⊢
  generalize leftScope.variableTable.find? key = leftValue at pair ⊢
  cases pair with
  | none => exact .none
  | some values => exact .some values.symm

theorem Mirrors.global?_eq (mirrors : left.Mirrors Eq right) (name : String) :
    right.global? name = left.global? name := by
  unfold global?
  cases found : left.scopes[root]? with
  | some scope =>
      rcases mirrors.scope found with ⟨other, present, _, tables⟩
      have pair := tables name
      rw [present, Option.bind_some, Option.bind_some]
      generalize scope.variableTable.find? name = leftValue at pair ⊢
      generalize other.variableTable.find? name = rightValue at pair ⊢
      cases pair with
      | none => rfl
      | some values => rw [values]
  | none =>
      cases present : right.scopes[root]? with
      | none => rfl
      | some other =>
          rcases mirrors.symm.scope present with ⟨scope, isThere, _⟩
          rw [found] at isThere
          cases isThere

end Arena

namespace Context

variable {context : Context} {routines bareRoutines : Table (String × Nat) Routine}

/-- Whether routines are what the functions of a context promise, and others are the same without
annotations. -/
structure Strips (context : Context) (routines bareRoutines : Table (String × Nat) Routine) :
    Prop where
  implements : context.functions.Mirrors context.Implements routines
  strips : ∀ key, bareRoutines.find? key = (routines.find? key).map (Routine.strip false)

/-- Every routine is promised by a signature. -/
theorem Strips.exists_signature (strips : context.Strips routines bareRoutines)
    {key : String × Nat} {routine : Routine} (found : routines.find? key = some routine) :
    ∃ signature, context.Implements signature routine := by
  have pair := strips.implements key
  rw [found] at pair
  generalize context.functions.find? key = signature at pair
  cases pair with
  | some implements => exact ⟨_, implements⟩

end Context

namespace Machine

variable {routines bareRoutines : Table (String × Nat) Routine} {left right : Machine}

/-- Whether two machines differ in the annotations of their functions only. -/
structure Stripped (routines bareRoutines : Table (String × Nat) Routine) (left right : Machine) :
    Prop where
  ordered : left.arena.Ordered
  inside : left.current < left.arena.depth
  leftFunctions : left.arena.Declares routines
  rightFunctions : right.arena.Declares bareRoutines
  cells : left.arena.Mirrors Eq right.arena
  current : right.current = left.current
  sink : right.sink = left.sink

namespace Stripped

theorem depth_pos (stripped : Stripped routines bareRoutines left right) :
    0 < left.arena.depth :=
  Nat.zero_lt_of_lt stripped.inside

theorem calling (stripped : Stripped routines bareRoutines left right)
    (returnType otherType : Option Ty) :
    Stripped routines bareRoutines (left.calling Arena.root returnType)
      (right.calling Arena.root otherType) :=
  ⟨stripped.ordered, stripped.depth_pos, stripped.leftFunctions, stripped.rightFunctions,
    stripped.cells, rfl, stripped.sink⟩

theorem enter (stripped : Stripped routines bareRoutines left right) :
    Stripped routines bareRoutines left.enter.1 right.enter.1 := by
  have depth_eq := stripped.cells.depth
  refine ⟨stripped.ordered.push stripped.inside, ?_,
    stripped.leftFunctions.push stripped.depth_pos _,
    stripped.rightFunctions.push (depth_eq ▸ stripped.depth_pos) _, ?_, depth_eq.symm,
    stripped.sink⟩
  · rw [depth_enter]
    exact Nat.lt_succ_self _
  · change (left.arena.push left.current).1.Mirrors Eq (right.arena.push right.current).1
    rw [stripped.current]
    exact stripped.cells.push left.current

/-- Releasing the scopes that were entered since leaves what was there. -/
theorem dropFrom {leftInner rightInner : Machine} {id : ScopeId}
    (inner : Stripped routines bareRoutines leftInner rightInner) (notRoot : id ≠ Arena.root)
    (lower : id ≤ leftInner.arena.depth) {current : ScopeId} (inside : current < id)
    (returnType otherType : Option Ty) :
    Stripped routines bareRoutines
      { leftInner with arena := leftInner.arena.dropFrom id, current, returnType }
      { rightInner with
        arena := rightInner.arena.dropFrom id
        current
        returnType := otherType } := by
  refine ⟨inner.ordered.dropFrom notRoot, ?_, inner.leftFunctions.dropFrom notRoot,
    inner.rightFunctions.dropFrom notRoot, inner.cells.dropFrom notRoot, rfl, inner.sink⟩
  change current < (leftInner.arena.dropFrom id).depth
  rw [Arena.depth_dropFrom notRoot lower]
  exact inside

theorem leave {leftInner rightInner : Machine} (outer : Stripped routines bareRoutines left right)
    (inner : Stripped routines bareRoutines leftInner rightInner)
    (deeper : left.arena.depth < leftInner.arena.depth) :
    ∃ leftOuter rightOuter, leftInner.leave left.arena.depth = .ok leftOuter ∧
      rightInner.leave right.arena.depth = .ok rightOuter ∧
        Stripped routines bareRoutines leftOuter rightOuter := by
  have notRoot : left.arena.depth ≠ Arena.root := Nat.ne_of_gt outer.depth_pos
  rcases Arena.exists_scope deeper with ⟨scope, found⟩
  rcases inner.ordered.inner notRoot found with ⟨parent, up, below⟩
  rcases inner.cells.scope found with ⟨rightScope, present, parents, _⟩
  rw [← outer.cells.depth]
  simp only [Machine.leave, Arena.parent, Arena.scope_eq_ok found, Arena.scope_eq_ok present]
  refine ⟨_, _, rfl, rfl, ?_⟩
  rw [← parents, up]
  exact inner.dropFrom notRoot (Nat.le_of_lt deeper) below leftInner.returnType
    rightInner.returnType

theorem resume {leftCallee rightCallee : Machine}
    (caller : Stripped routines bareRoutines left right)
    (callee : Stripped routines bareRoutines leftCallee rightCallee)
    (deeper : left.arena.depth < leftCallee.arena.depth) :
    Stripped routines bareRoutines (left.resume leftCallee) (right.resume rightCallee) := by
  unfold Machine.resume
  rw [caller.current, ← caller.cells.depth]
  exact callee.dropFrom (Nat.ne_of_gt caller.depth_pos) (Nat.le_of_lt deeper) caller.inside
    left.returnType right.returnType

/-- Both machines have got new variables, or new values of old ones. -/
theorem evolves (stripped : Stripped routines bareRoutines left right) {id : ScopeId}
    {added : String → Prop} {arena other : Arena Cell Routine}
    (onLeft : left.arena.Evolves id added arena) (onRight : right.arena.Evolves id added other)
    (cells : arena.Mirrors Eq other) :
    Stripped routines bareRoutines { left with arena } { right with arena := other } :=
  ⟨onLeft.ordered stripped.ordered, Nat.lt_of_lt_of_eq stripped.inside onLeft.depth.symm,
    onLeft.declares stripped.leftFunctions, onRight.declares stripped.rightFunctions, cells,
    stripped.current, stripped.sink⟩

theorem exists_search (stripped : Stripped routines bareRoutines left right) (name : String) :
    ∃ place, left.arena.search (·.variableTable.find? name) left.current = .ok place ∧
      right.arena.search (·.variableTable.find? name) right.current = .ok place := by
  rcases stripped.ordered.search (·.variableTable.find? name) stripped.inside with
    ⟨place, searched⟩
  refine ⟨place, searched, ?_⟩
  rw [stripped.current]
  exact stripped.cells.search_eq searched

theorem cellAt (depth : Nat) (name : String) (position : Position) :
    Run.Alike (Deep (Stripped routines bareRoutines) depth) (Run.cellAt name position)
      (Run.cellAt name position) := by
  rintro left right ⟨stripped, deep⟩
  rcases stripped.exists_search name with ⟨place, onLeft, onRight⟩
  rcases place with _ | ⟨owner, cell⟩
  · rw [Run.cellAt_of_nowhere onLeft, Run.cellAt_of_nowhere onRight]
    exact .halt ⟨stripped, deep⟩
  · rw [Run.cellAt_of_search onLeft, Run.cellAt_of_search onRight]
    exact .value ⟨stripped, deep⟩

theorem define_at (stripped : Stripped routines bareRoutines left right) {id : ScopeId}
    (present : id < left.arena.depth) {depth : Nat} (deep : depth ≤ left.arena.depth)
    (name : String) (cell : Cell) (position : Position) :
    Run.SameOutcome (Deep (Stripped routines bareRoutines) depth)
      (Run.define id name cell position left) (Run.define id name cell position right) := by
  rcases Arena.exists_scope present with ⟨scope, found⟩
  rcases stripped.cells.scope found with ⟨other, rightFound, _, tables⟩
  cases taken : scope.variableTable.find? name with
  | none =>
      rw [Run.define_of_fresh found taken,
        Run.define_of_fresh rightFound (tables.find?_none taken)]
      have evolves := Arena.Evolves.put left.arena id name cell
      exact .value ⟨stripped.evolves evolves (.put _ id name cell)
        (stripped.cells.put rfl id name), evolves.depth ▸ deep⟩
  | some old =>
      rcases tables.find?_some taken with ⟨_, rightTaken, _⟩
      rw [Run.define_of_taken found (by simp [taken]),
        Run.define_of_taken rightFound (by simp [rightTaken])]
      exact .halt ⟨stripped, deep⟩

theorem define (stripped : Stripped routines bareRoutines left right) (name : String)
    (cell : Cell) (position : Position) :
    Run.SameOutcome (Deep (Stripped routines bareRoutines) left.arena.depth)
      (Run.define left.current name cell position left)
      (Run.define right.current name cell position right) := by
  rw [stripped.current]
  exact stripped.define_at stripped.inside (Nat.le_refl _) name cell position

theorem defineGlobal (depth : Nat) (name : String) (cell : Cell) (position : Position) :
    Run.Alike (Deep (Stripped routines bareRoutines) depth)
      (Run.define Arena.root name cell position) (Run.define Arena.root name cell position) := by
  rintro left right ⟨stripped, deep⟩
  exact stripped.define_at stripped.depth_pos deep name cell position

theorem reassign (depth : Nat) (name : String) (cell : Cell) (position : Position) :
    Run.Alike (Deep (Stripped routines bareRoutines) depth) (Run.reassign name cell position)
      (Run.reassign name cell position) := by
  rintro left right ⟨stripped, deep⟩
  rcases stripped.exists_search name with ⟨place, onLeft, onRight⟩
  rcases place with _ | ⟨owner, old⟩
  · rw [Run.reassign_of_nowhere onLeft, Run.reassign_of_nowhere onRight]
    exact .halt ⟨stripped, deep⟩
  · rw [Run.reassign_of_search onLeft, Run.reassign_of_search onRight]
    have evolves := Arena.Evolves.give left.arena owner name cell Arena.root fun _ => False
    exact .value ⟨stripped.evolves evolves (.give _ owner name cell Arena.root fun _ => False)
      (stripped.cells.give owner name cell), evolves.depth ▸ deep⟩

theorem findFunction (stripped : Stripped routines bareRoutines left right) (name : String)
    (arity : Nat) :
    left.arena.findFunction left.current name arity = .ok (routines.find? (name, arity)) ∧
      right.arena.findFunction right.current name arity =
        .ok (bareRoutines.find? (name, arity)) := by
  rcases stripped.ordered.shows stripped.inside with ⟨_, shows⟩
  rcases stripped.cells.shows shows with ⟨_, _, rightShows⟩
  rw [stripped.current]
  exact ⟨shows.findFunction stripped.leftFunctions name arity,
    rightShows.findFunction stripped.rightFunctions name arity⟩

theorem routineAt {context : Context} (strips : context.Strips routines bareRoutines)
    (stripped : Stripped routines bareRoutines left right) (name : String) (arity : Nat)
    (position : Option Position) :
    FindsSame (Stripped routines bareRoutines) false context.functions left right name arity
      position := by
  rcases stripped.findFunction name arity with ⟨onLeft, onRight⟩
  rw [strips.strips] at onRight
  cases found : routines.find? (name, arity) with
  | none =>
      rw [found] at onLeft onRight
      exact .missing _ (Run.routineAt_of_none onLeft position)
        (Run.routineAt_of_none onRight position)
  | some routine =>
      rw [found] at onLeft onRight
      rcases strips.exists_signature found with ⟨signature, implements⟩
      refine .found routine (Run.routineAt_of_some onLeft position)
        (Run.routineAt_of_some onRight position) ?_ ?_
      · rintro function closure rfl
        cases implements with
        | written _ _ _ _ _ => exact stripped.calling _ _
      · rintro _ function closure rfl
        cases implements with
        | written _ _ _ _ accepted => exact accepted.resolved

/-- A call is annotated with as many types as the called function states. -/
theorem length_parameters {context : Context} (strips : context.Strips routines bareRoutines)
    {recording : Recording} {machine : Machine}
    (stripped : Stripped routines bareRoutines recording.machine machine) {name : String}
    {arity : Nat} {signature : Signature}
    (known : context.functions.find? (name, arity) = some signature) :
    signature.parameters.length ≤ (recording.parameterTypes name arity).length := by
  rcases strips.implements.find?_some known with ⟨routine, found, implements⟩
  have onLeft := (stripped.findFunction name arity).1
  rw [found] at onLeft
  rw [Recording.parameterTypes, onLeft]
  cases implements with
  | builtIn stated =>
      cases stated
      exact Nat.le_refl _
  | written _ parameters _ _ _ => exact Nat.le_of_eq (congrArg List.length parameters.symm)

end Stripped

end Machine

/-- Runs of which the first may be stopped by a test, where the second prints what was printed up to
there. -/
def Pairing.tested (related : Machine → Machine → Prop) : Pairing where
  related := related
  excused := fun halt recording machine =>
    Misfit halt recording.moments ∧ recording.machine.Extends machine
  excused_later := by
    rintro halt recording later machine after ⟨misfit, before⟩ moments sink further
    rw [moments]
    exact ⟨misfit, .trans (.of_sink sink.symm) (before.trans further)⟩

theorem Pairing.InStep.weaken {α : Type} {related weaker : Machine → Machine → Prop} {depth : Nat}
    {left : EStateM.Result Halt Recording α} {right : EStateM.Result Halt Machine α}
    (inStep : (Pairing.tested related).InStep depth left right)
    (implies : ∀ {left right}, related left right → weaker left right) :
    (Pairing.tested weaker).InStep depth left right := by
  cases inStep with
  | done still deep => exact .done (implies still) deep
  | stopped still deep => exact .stopped (implies still) deep
  | excused reason deep => exact .excused reason deep

/-- A program in step with itself without annotations, up to a test that fails. -/
def Lockstep.stripped {context : Context} {routines bareRoutines : Table (String × Nat) Routine}
    (strips : context.Strips routines bareRoutines) : Lockstep where
  toPairing := .tested (Machine.Stripped routines bareRoutines)
  keep := false
  functions := context.functions
  misfit := fun _ _ _ _ same misfit => ⟨misfit, .of_sink same.sink⟩
  returnType := by
    intro impossible
    cases impossible
  parameters := fun _ _ _ same _ _ _ known => same.length_parameters strips known
  cellAt := Machine.Stripped.cellAt
  define := Machine.Stripped.define
  defineGlobal := Machine.Stripped.defineGlobal
  reassign := Machine.Stripped.reassign
  sink := Machine.Stripped.sink
  write := fun _ same => { same with sink := rfl }
  enter := Machine.Stripped.enter
  leave := Machine.Stripped.leave
  routineAt := Machine.Stripped.routineAt strips
  resume := Machine.Stripped.resume

/-! ## Whole programs -/

theorem Native.routines_strip {context : Context}
    (functions : context.functions = Checker.nativeSignatures) :
    context.Strips Native.routines Native.routines := by
  refine ⟨functions ▸ Native.routines_mirror context, fun key => ?_⟩
  have builtIn : Native.routines.All fun _ routine => routine.strip false = routine := by
    refine .ofList ?_ Native.all
    exact fun _ => rfl
  cases found : Native.routines.find? key with
  | none => rfl
  | some routine => rw [Option.map_some, builtIn key routine found]

theorem Machine.initial_stripped (limit : Option Nat) :
    Machine.Stripped Native.routines Native.routines (.initial limit) (.initial limit) :=
  ⟨.ofFunctions _, Nat.zero_lt_one, .ofFunctions _, .ofFunctions _, .ofFunctions _ _, rfl, rfl⟩

/-- Functions are added to both machines, with and without annotations. -/
theorem Context.DeclaresFunctions.strip {context : Context}
    {signatures after : Table (String × Nat) Signature} {functions : List Function}
    (declares : DeclaresFunctions signatures functions after)
    (accepted : ∀ function ∈ functions, ∀ signature, function.binding = some signature →
      context.AcceptsBody function signature)
    {routines bareRoutines : Table (String × Nat) Routine}
    (implements : signatures.Mirrors context.Implements routines)
    (strips : ∀ key, bareRoutines.find? key = (routines.find? key).map (Routine.strip false))
    {left right : Machine} (stripped : Machine.Stripped routines bareRoutines left right) :
    ∃ leftAfter rightAfter routinesAfter bareAfter,
      Run.setUpFunctions functions left = .ok () leftAfter ∧
      Run.setUpFunctions (functions.map (Function.strip false)) right = .ok () rightAfter ∧
      after.Mirrors context.Implements routinesAfter ∧
      (∀ key, bareAfter.find? key = (routinesAfter.find? key).map (Routine.strip false)) ∧
      Machine.Stripped routinesAfter bareAfter leftAfter rightAfter := by
  induction declares generalizing left right routines bareRoutines with
  | nil => exact ⟨left, right, routines, bareRoutines, rfl, rfl, implements, strips, stripped⟩
  | @cons signatures after function others signature stated fresh bound rest ih =>
      rcases Checker.signatureOf_ok stated with ⟨signature_eq, arity_eq⟩
      let key := (function.name, function.arity)
      let routine := Routine.written function Arena.root
      have promised : context.Implements signature routine :=
        .written bound (signature_eq ▸ rfl) (signature_eq ▸ rfl) arity_eq.symm
          (accepted function List.mem_cons_self signature bound)
      have freshLeft : routines.find? key = none := implements.find?_none fresh
      have freshRight : bareRoutines.find? key = none := by
        rw [strips, freshLeft]
        rfl
      rcases Arena.exists_scope stripped.depth_pos with ⟨scope, found⟩
      rcases stripped.cells.scope found with ⟨other, present, _, _⟩
      have leftTable : scope.functionTable = routines := stripped.leftFunctions _ _ found
      have rightTable : other.functionTable = bareRoutines := stripped.rightFunctions _ _ present
      have onLeft : left.arena.addFunction Arena.root function.name function.arity routine
          function.span.start = .ok (left.arena.putFunction Arena.root key routine) :=
        Arena.addFunction_eq_ok_iff.mpr ⟨scope, found, leftTable ▸ freshLeft, rfl⟩
      have onRight : right.arena.addFunction Arena.root function.name function.arity
          (routine.strip false) function.span.start =
          .ok (right.arena.putFunction Arena.root key (routine.strip false)) :=
        Arena.addFunction_eq_ok_iff.mpr ⟨other, present, rightTable ▸ freshRight, rfl⟩
      have cells := (stripped.cells.putFunction Arena.root key (routine.strip false)).symm
      have strippedNext : Machine.Stripped (routines.insert key routine)
          (bareRoutines.insert key (routine.strip false))
          { left with arena := left.arena.putFunction Arena.root key routine }
          { right with
            arena := right.arena.putFunction Arena.root key (routine.strip false) } :=
        ⟨stripped.ordered.putFunction _ _ _,
          Nat.lt_of_lt_of_eq stripped.inside Array.size_modify.symm,
          stripped.leftFunctions.putFunction _ _, stripped.rightFunctions.putFunction _ _,
          (cells.putFunction Arena.root key routine).symm, stripped.current, stripped.sink⟩
      have stripsNext (other : String × Nat) :
          (bareRoutines.insert key (routine.strip false)).find? other =
            ((routines.insert key routine).find? other).map (Routine.strip false) := by
        rw [Table.find?_insert, Table.find?_insert]
        split
        · rfl
        · exact strips other
      rcases ih (List.forall_mem_cons.mp accepted).2 (implements.insert promised key) stripsNext
        strippedNext with ⟨leftAfter, rightAfter, routinesAfter, bareAfter, leftSetUp, rightSetUp,
          implementsAfter, stripsAfter, strippedAfter⟩
      refine ⟨leftAfter, rightAfter, routinesAfter, bareAfter, ?_, ?_, implementsAfter, stripsAfter,
        strippedAfter⟩
      · rw [Run.setUpFunctions, Run.bind_get, Run.bind_ofExcept onLeft]
        exact leftSetUp
      · rw [List.map_cons, Run.setUpFunctions, Run.bind_get]
        change (Run.ofExcept (right.arena.addFunction Arena.root function.name function.arity
          (routine.strip false) function.span.start) >>= _) right = _
        rw [Run.bind_ofExcept onRight]
        exact rightSetUp

/-- Whether two machines have printed the same, and have the same global variables. -/
def Machine.SameGlobals (left right : Machine) : Prop :=
  right.sink = left.sink ∧ ∀ name, right.arena.global? name = left.arena.global? name

theorem Machine.Stripped.sameGlobals {routines bareRoutines : Table (String × Nat) Routine}
    {left right : Machine} (stripped : Machine.Stripped routines bareRoutines left right) :
    left.SameGlobals right :=
  ⟨stripped.sink, stripped.cells.global?_eq⟩

/-- A well-typed program goes in step with itself without annotations, up to a test that fails. -/
theorem Recorded.program_stripped {program : Program} {context : Context}
    (wellTyped : program.WellTyped context) (budget : Nat) (limit : Option Nat) :
    (Pairing.tested Machine.SameGlobals).InStep 0
      (Recorded.program budget program (.initial limit))
      (Run.program budget program.bare (.initial limit)) := by
  let natives : Context := ⟨Checker.nativeSignatures, .empty, [], context.permits⟩
  let start := Lockstep.stripped (Native.routines_strip (show natives.functions = _ from rfl))
  have affords : start.Affords budget budget := .inl rfl
  have listed : ∀ global ∈ program.globals, ∀ span ty elements,
      global.initializer = some (.list span ty elements) → ty ≠ some .any := by
    intro global member span ty elements given
    rcases wellTyped.globals.initial member with ⟨_, _, _, _, initial⟩
    exact initial.ty_ne_any given
  have resolved : ∀ global ∈ program.globals, ∀ expr, global.initializer = some expr →
      expr.Resolved natives.functions := by
    intro global member expr given
    rcases wellTyped.globals.initial member with ⟨_, _, _, functions_eq, initial⟩
    exact functions_eq ▸ initial.resolved given
  have globals := (Lockstep.setUpGlobals_tracks affords program.globals (fun _ => listed)
    fun _ => resolved).inStep (.initial limit) (.initial limit) (Machine.initial_stripped limit)
  have quiet := Run.Quiet.setUpFunctions program.bare.functions
  refine ((globals.weaken Machine.Stripped.sameGlobals).mono (Nat.zero_le _)).bind
    (fun _ => quiet.grows.bind fun _ => Run.call_grows budget _ _ _) ?_
  rintro ⟨⟩ middle other onLeft onRight _
  -- Now that the functions are there as well, calls go in step by the signatures of all of them.
  rw [onLeft, onRight] at globals
  cases globals with
  | done still _ =>
      rcases wellTyped.functions.strip wellTyped.bodies (Native.routines_mirror context)
        (Native.routines_strip (show natives.functions = _ from rfl)).strips still with
        ⟨leftAfter, rightAfter, routinesAfter, bareAfter, leftSetUp, rightSetUp, implements, strips,
          stripped⟩
      have calls : context.Strips routinesAfter bareAfter := ⟨implements, strips⟩
      have affordsMain : (Lockstep.stripped calls).Affords budget budget := .inl rfl
      have main := (Lockstep.call_tracks affordsMain Checker.mainName [] none).inStep
        { middle with machine := leftAfter } rightAfter stripped
      have kept := (Run.Quiet.setUpFunctions program.functions middle.machine).depth
      rw [leftSetUp] at kept
      have leftRest : (Recorded.perform (Run.setUpFunctions program.functions) >>= fun _ =>
          Recorded.call budget Checker.mainName [] none) middle =
          Recorded.call budget Checker.mainName [] none { middle with machine := leftAfter } := by
        simp only [bind, EStateM.bind, Recorded.perform, leftSetUp]
      have rightRest := Run.bind_of_ok rightSetUp fun _ => Run.call budget Checker.mainName [] none
      rw [leftRest]
      change Pairing.InStep _ _ _ ((Run.setUpFunctions (program.functions.map _) >>= _) other)
      rw [rightRest]
      exact (main.weaken Machine.Stripped.sameGlobals).mono kept

end GradualScript
