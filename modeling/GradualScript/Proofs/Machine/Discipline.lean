import GradualScript.Proofs.Machine.Erasure
import GradualScript.Proofs.Machine.Evaluation
import GradualScript.Proofs.Scope.Order

/-!
# Scopes and constants of a run

What a run leaves behind, whether its program was checked or not. Scopes that are entered are left
again, whichever way a piece of program ends, so a run comes back to the scope it started in, and
the scopes that were there have the names that they had.

Some variables of the root may be declared constant. At run time nothing but the program itself
keeps them from being changed: no assignment names one, unless a variable of an inner scope hides
it. `Stmt.Spares` says this of a tree, and then a run keeps the values of the constants at all of
its moments. With no constants at all it says nothing, and what is left is the discipline of scopes.
-/

namespace GradualScript

/-! ## Programs that spare constants -/

/-- The variable that an assignment to an expression changes. -/
def Expr.assigned? : Expr → Option String
  | .access _ _ name _ | .element _ _ name _ _ => some name
  | _ => none

/-- The names that a statement adds to the scope in which it runs. -/
def Stmt.declares : Stmt → List String
  | .declaration _ name _ _ _ => [name]
  | _ => []

mutual

/-- Whether a statement assigns to no fixed name that is not hidden. -/
def Stmt.Spares (fixed : String → Prop) (hidden : List String) : Stmt → Prop
  | .assignment _ receiver _ => ∀ name, receiver.assigned? = some name → fixed name → name ∈ hidden
  | .branch _ _ thenBody elseBody =>
    Stmt.AllSpare fixed hidden thenBody ∧ Stmt.AllSpare fixed hidden elseBody
  | .switch _ _ cases => Cases.Spares fixed hidden cases
  | .loop _ _ body => Stmt.AllSpare fixed hidden body
  | .expression .. | .declaration .. | .result .. => True

/-- Whether no arm assigns to a fixed name that is not hidden. -/
def Cases.Spares (fixed : String → Prop) (hidden : List String) : Cases → Prop
  | .default _ body => Stmt.AllSpare fixed hidden body
  | .case _ _ body others => Stmt.AllSpare fixed hidden body ∧ Cases.Spares fixed hidden others

/-- Whether statements assign to no fixed name that is not hidden, where a statement hides the names
that it declares from those after it. -/
def Stmt.AllSpare (fixed : String → Prop) (hidden : List String) : List Stmt → Prop
  | [] => True
  | statement :: others =>
    statement.Spares fixed hidden ∧ Stmt.AllSpare fixed (statement.declares ++ hidden) others

end

/-- Whether a routine that is called with some number of arguments assigns to no fixed name. -/
def Routine.Spares (fixed : String → Prop) (arity : Nat) : Routine → Prop
  | .builtIn _ => True
  | .written function _ =>
    Stmt.AllSpare fixed ((function.parameters.take arity).map Parameter.name) function.body

mutual

/-- Where no name is fixed, every statement spares all fixed names. -/
theorem Stmt.spares_of_none {fixed : String → Prop} (nothing : ∀ name, ¬fixed name)
    (hidden : List String) (statement : Stmt) : statement.Spares fixed hidden := by
  cases statement with
  | expression span expr => trivial
  | declaration span name typeName initializer binding => trivial
  | assignment span receiver value => exact fun name _ isFixed => absurd isFixed (nothing name)
  | branch span test thenBody elseBody =>
      exact ⟨Stmt.allSpare_of_none nothing hidden thenBody,
        Stmt.allSpare_of_none nothing hidden elseBody⟩
  | switch span subject cases => exact Cases.spares_of_none nothing hidden cases
  | loop span test body => exact Stmt.allSpare_of_none nothing hidden body
  | result span value => trivial

theorem Cases.spares_of_none {fixed : String → Prop} (nothing : ∀ name, ¬fixed name)
    (hidden : List String) (cases : Cases) : cases.Spares fixed hidden := by
  cases cases with
  | default span body => exact Stmt.allSpare_of_none nothing hidden body
  | case span value body others =>
      exact ⟨Stmt.allSpare_of_none nothing hidden body, others.spares_of_none nothing hidden⟩

theorem Stmt.allSpare_of_none {fixed : String → Prop} (nothing : ∀ name, ¬fixed name)
    (hidden : List String) (statements : List Stmt) : Stmt.AllSpare fixed hidden statements := by
  cases statements with
  | nil => trivial
  | cons statement others =>
      exact ⟨statement.spares_of_none nothing hidden, Stmt.allSpare_of_none nothing _ others⟩

end

/-! ## Well-formed machines -/

/-- Whether a routine sees names as the root does. -/
def Routine.SeesRoot : Routine → Prop
  | .builtIn _ => True
  | .written _ closure => closure = Arena.root

/-- Whether scopes are in order, the current one is there, and all functions see the root. -/
structure Machine.WellFormed (machine : Machine) : Prop where
  ordered : machine.arena.Ordered
  inside : machine.current < machine.arena.depth
  closures : machine.arena.AllFunctions fun _ routine => routine.SeesRoot

namespace Machine

theorem initial_wellFormed (limit : Option Nat) : (Machine.initial limit).WellFormed := by
  refine ⟨.ofFunctions _, Nat.zero_lt_one, .ofFunctions (.ofList ?_ Native.all)⟩
  exact fun _ => trivial

theorem WellFormed.enter {machine : Machine} (wellFormed : machine.WellFormed) :
    machine.enter.1.WellFormed := by
  refine ⟨wellFormed.ordered.push wellFormed.inside, ?_, wellFormed.closures.push _⟩
  change machine.arena.depth < (machine.arena.push machine.current).1.depth
  rw [Arena.depth_push]
  exact Nat.lt_succ_self _

end Machine

/-- Whether the root has the given variables, each with the given value. -/
def Arena.Holds (constants : Table String Cell) (arena : Arena Cell Routine) : Prop :=
  ∀ name cell, constants.find? name = some cell → arena.global? name = some cell

namespace Arena.Holds

variable {constants : Table String Cell} {arena : Arena Cell Routine} {id : ScopeId}

theorem push (holds : arena.Holds constants) (notEmpty : 0 < arena.depth) (parent : ScopeId) :
    (arena.push parent).1.Holds constants := by
  intro name cell constant
  rw [global?_push notEmpty]
  exact holds name cell constant

theorem dropFrom (holds : arena.Holds constants) (notRoot : id ≠ root) :
    (arena.dropFrom id).Holds constants := by
  intro name cell constant
  rw [global?_dropFrom arena notRoot]
  exact holds name cell constant

/-- A scope that does not have the name of a constant is not the root. -/
theorem ne_root (holds : arena.Holds constants) {name : String} {scope : Scope Cell Routine}
    (found : arena.scopes[id]? = some scope) (fresh : scope.variableTable.find? name = none)
    (constant : constants.contains name = true) : id ≠ root := by
  rintro rfl
  rcases Option.isSome_iff_exists.mp constant with ⟨cell, isConstant⟩
  have present := holds name cell isConstant
  rw [global?, found, Option.bind_some, fresh] at present
  cases present

theorem put (holds : arena.Holds constants) {name : String} {scope : Scope Cell Routine}
    (found : arena.scopes[id]? = some scope) (fresh : scope.variableTable.find? name = none)
    (cell : Cell) : (arena.put id name cell).Holds constants := by
  intro key old isConstant
  rw [global?_put, holds key old isConstant]
  by_cases same : name = key
  · subst same
    exact .inl (holds.ne_root found fresh (Option.isSome_iff_exists.mpr ⟨old, isConstant⟩))
  · exact .inr same

theorem give (holds : arena.Holds constants) {owner : ScopeId} {name : String}
    (spared : constants.contains name = true → owner ≠ root) (cell : Cell) :
    (arena.give owner name cell).Holds constants := by
  intro key old isConstant
  rw [global?_give, holds key old isConstant]
  by_cases same : name = key
  · subst same
    exact .inl (spared (Option.isSome_iff_exists.mpr ⟨old, isConstant⟩))
  · exact .inr same

end Arena.Holds

namespace Machine

/-- Whether a piece of program that hides some names can go on from here without a change to
constants. -/
structure Poised (constants : Table String Cell) (hidden : List String) (machine : Machine) :
    Prop where
  wellFormed : machine.WellFormed
  spares : machine.arena.AllFunctions
    fun arity routine => routine.Spares (fun name => constants.contains name = true) arity
  holds : machine.arena.Holds constants
  hides : ∀ name ∈ hidden, constants.contains name = true →
    machine.arena.Hides name machine.current

namespace Poised

variable {constants : Table String Cell} {hidden : List String} {machine : Machine}

theorem depth_pos (poised : machine.Poised constants hidden) : 0 < machine.arena.depth :=
  Nat.zero_lt_of_lt poised.wellFormed.inside

theorem weaken {fewer : List String} (poised : machine.Poised constants hidden)
    (among : ∀ name ∈ fewer, name ∈ hidden) : machine.Poised constants fewer :=
  { poised with hides := fun name member => poised.hides name (among name member) }

theorem enter (poised : machine.Poised constants hidden) :
    machine.enter.1.Poised constants hidden :=
  ⟨poised.wellFormed.enter, poised.spares.push _, poised.holds.push poised.depth_pos _,
    fun name member constant => (poised.hides name member constant).push⟩

/-- A caller about to enter a function that sees the root hides nothing. -/
theorem calling (poised : machine.Poised constants hidden) (returnType : Option Ty) :
    Poised constants [] { machine with current := Arena.root, returnType } :=
  ⟨⟨poised.wellFormed.ordered, poised.depth_pos, poised.wellFormed.closures⟩, poised.spares,
    poised.holds, by simp⟩

end Poised

end Machine

namespace Recording

/-- Whether constants have their values in a later recording and at all moments in between. -/
structure Preserves (constants : Table String Cell) (before after : Recording) : Prop where
  holds : after.machine.arena.Holds constants
  moments : ∃ newer, after.moments = newer ++ before.moments ∧
    ∀ moment ∈ newer, moment.machine.arena.Holds constants

/-- Whether a later recording is in the same scope of the same call, where at most the given names
were added in between and the constants were never changed. -/
structure Advances (constants : Table String Cell) (added : String → Prop)
    (before after : Recording) : Prop where
  current : after.machine.current = before.machine.current
  returnType : after.machine.returnType = before.machine.returnType
  arena : before.machine.arena.Evolves before.machine.current added after.machine.arena
  preserves : before.Preserves constants after

variable {constants : Table String Cell} {hidden : List String} {added : String → Prop}
  {before middle after : Recording}

/-- One more moment at which the machine is as it is afterwards. -/
theorem Preserves.noted {event : Event} {declared : Arena Variable Unit}
    (holds : after.machine.arena.Holds constants)
    (moments : after.moments = ⟨event, after.machine, declared⟩ :: before.moments) :
    before.Preserves constants after := by
  refine ⟨holds, [_], moments, ?_⟩
  intro moment member
  rw [List.mem_singleton.mp member]
  exact holds

theorem Preserves.trans (earlier : before.Preserves constants middle)
    (later : middle.Preserves constants after) : before.Preserves constants after := by
  rcases earlier.moments with ⟨older, olderEq, olderHold⟩
  rcases later.moments with ⟨newer, newerEq, newerHold⟩
  refine ⟨later.holds, newer ++ older, ?_, ?_⟩
  · rw [newerEq, olderEq, List.append_assoc]
  · intro moment member
    rcases List.mem_append.mp member with isNew | isOld
    · exact newerHold moment isNew
    · exact olderHold moment isOld

namespace Advances

theorem refl (holds : before.machine.arena.Holds constants) (added : String → Prop) :
    before.Advances constants added before :=
  ⟨rfl, rfl, .refl _ _ _, holds, [], rfl, by simp⟩

/-- What a piece of program goes on from is as good as what it started from. -/
theorem poised (advances : before.Advances constants added after)
    (poised : before.machine.Poised constants hidden) :
    after.machine.Poised constants hidden := by
  have evolves := advances.arena
  refine ⟨⟨evolves.ordered poised.wellFormed.ordered, ?_,
    evolves.allFunctions poised.wellFormed.closures⟩, evolves.allFunctions poised.spares,
    advances.preserves.holds, ?_⟩
  · rw [advances.current, evolves.depth]
    exact poised.wellFormed.inside
  · intro name member constant
    rw [advances.current]
    exact (poised.hides name member constant).evolves evolves

theorem trans (earlier : before.Advances constants added middle)
    (later : middle.Advances constants added after) : before.Advances constants added after := by
  have evolves := later.arena
  rw [earlier.current] at evolves
  exact ⟨later.current.trans earlier.current, later.returnType.trans earlier.returnType,
    earlier.arena.trans evolves, earlier.preserves.trans later.preserves⟩

theorem mono {more : String → Prop} (advances : before.Advances constants added after)
    (implies : ∀ name, added name → more name) : before.Advances constants more after :=
  { advances with arena := advances.arena.mono implies }

/-- What is done in a scope of its own is undone by releasing the scope. -/
theorem release (advances : before.enter.1.Advances constants added after)
    (poised : before.machine.Poised constants hidden) (id : ScopeId) :
    before.machine.arena.Evolves id (fun _ => False)
        (after.machine.arena.dropFrom before.enter.2) ∧
      (after.machine.arena.dropFrom before.enter.2).Holds constants :=
  ⟨advances.arena.release poised.depth_pos id,
    advances.preserves.holds.dropFrom (Nat.ne_of_gt poised.depth_pos)⟩

theorem leave (advances : before.enter.1.Advances constants added after)
    (poised : before.machine.Poised constants hidden) :
    ∃ outer, after.leave before.enter.2 = .ok outer ∧
      before.Advances constants (fun _ => False) outer := by
  rcases advances.release poised before.machine.current with ⟨evolves, holds⟩
  have parent : after.machine.arena.parent before.enter.2 = .ok (some before.machine.current) :=
    advances.arena.parent_push
  refine ⟨{ after with
    machine := { after.machine with
      arena := after.machine.arena.dropFrom before.enter.2
      current := before.machine.current }
    declared := after.declared.dropFrom before.enter.2 }, ?_, ?_⟩
  · simp only [Recording.leave, Machine.leave, parent]
    rfl
  · exact ⟨rfl, advances.returnType, evolves, holds, advances.preserves.moments⟩

/-- A function comes back to its caller. -/
theorem resume {function : Function}
    (advances : (before.calling function Arena.root).enter.1.Advances constants added after)
    (poised : before.machine.Poised constants hidden) :
    before.Advances constants (fun _ => False)
      (before.resume (before.calling function Arena.root).enter.2 after) := by
  rcases advances.release (poised.calling _) before.machine.current with ⟨evolves, holds⟩
  exact ⟨rfl, rfl, evolves, holds, advances.preserves.moments⟩

end Advances

end Recording

/-! ## What steps do to a machine -/

namespace Run

variable {α β : Type} {machine : Machine} {name : String}

theorem bind_of_ok {run : Run α} {value : α} {after : Machine}
    (made : run machine = .ok value after) (next : α → Run β) :
    (run >>= next) machine = next value after := by
  simp only [Bind.bind, EStateM.bind, made]

theorem cellAt_of_search {owner : ScopeId} {cell : Cell}
    (searched : machine.arena.search (·.variableTable.find? name) machine.current =
      .ok (some (owner, cell))) (position : Position) :
    cellAt name position machine = .ok cell machine := by
  rw [cellAt, bind_get, bind_ofExcept (Arena.findVariable_of_search searched)]
  rfl

theorem cellAt_of_nowhere
    (searched : machine.arena.search (·.variableTable.find? name) machine.current = .ok none)
    (position : Position) :
    cellAt name position machine =
      .error (.reported (.located (.variableUndefined name) position)) machine := by
  rw [cellAt, bind_get, bind_ofExcept (Arena.findVariable_of_search searched)]
  rfl

theorem routineAt_of_some {arity : Nat} {routine : Routine}
    (found : machine.arena.findFunction machine.current name arity = .ok (some routine))
    (position : Option Position) :
    routineAt name arity position machine = .ok routine machine := by
  rw [routineAt, bind_get, bind_ofExcept found]
  rfl

theorem routineAt_of_error {arity : Nat} {halt : Halt}
    (failed : machine.arena.findFunction machine.current name arity = .error halt)
    (position : Option Position) : routineAt name arity position machine = .error halt machine := by
  rw [routineAt, bind_get, failed]
  rfl

theorem routineAt_of_none {arity : Nat}
    (found : machine.arena.findFunction machine.current name arity = .ok none)
    (position : Option Position) :
    routineAt name arity position machine =
      .error (.reported ⟨.functionUndefined name arity, position⟩) machine := by
  rw [routineAt, bind_get, bind_ofExcept found]
  rfl

theorem define_of_fresh {id : ScopeId} {scope : Scope Cell Routine}
    (found : machine.arena.scopes[id]? = some scope)
    (fresh : scope.variableTable.find? name = none) (cell : Cell) (position : Position) :
    define id name cell position machine =
      .ok () { machine with arena := machine.arena.put id name cell } := by
  have added : machine.arena.addVariable id name cell position =
      .ok (machine.arena.put id name cell) :=
    Arena.addVariable_eq_ok_iff.mpr ⟨scope, found, fresh, rfl⟩
  rw [define, bind_get, bind_ofExcept added]
  rfl

theorem define_of_taken {id : ScopeId} {scope : Scope Cell Routine}
    (found : machine.arena.scopes[id]? = some scope)
    (taken : scope.variableTable.find? name ≠ none) (cell : Cell) (position : Position) :
    define id name cell position machine =
      .error (.reported (.located (.variableRedeclared name) position)) machine := by
  have present : scope.variableTable.contains name = true :=
    Bool.of_not_eq_false (mt Table.contains_eq_false_iff.mp taken)
  rw [define, bind_get, Arena.addVariable, Arena.scope_eq_ok found]
  simp only [bind, Except.bind, present, if_true]
  rfl

/-- The end of storing a value, where the variable gets it. -/
def reassign (name : String) (cell : Cell) (position : Position) : Run Unit := do
  let machine ← get
  match ← ofExcept (machine.arena.assign machine.current name cell) with
  | some arena => set { machine with arena }
  | none => report (.variableUndefined name) position

theorem reassign_of_search {owner : ScopeId} {old cell : Cell}
    (searched : machine.arena.search (·.variableTable.find? name) machine.current =
      .ok (some (owner, old))) (position : Position) :
    reassign name cell position machine =
      .ok () { machine with arena := machine.arena.give owner name cell } := by
  rw [reassign, bind_get, bind_ofExcept (Arena.assign_of_search searched)]
  rfl

theorem reassign_of_nowhere
    (searched : machine.arena.search (·.variableTable.find? name) machine.current = .ok none)
    (cell : Cell) (position : Position) :
    reassign name cell position machine =
      .error (.reported (.located (.variableUndefined name) position)) machine := by
  rw [reassign, bind_get, bind_ofExcept (Arena.assign_of_nowhere searched cell)]
  rfl

end Run

/-! ## Runs that change no variable -/

theorem Halt.exhausted_ne_dangling : Halt.exhausted ≠ .dangling := by
  intro impossible
  cases impossible

theorem Halt.reported_ne_dangling (diagnostic : Diagnostic) :
    Halt.reported diagnostic ≠ .dangling := by
  intro impossible
  cases impossible

/-- Whether a run never misses a scope and changes at most what is printed. -/
inductive Run.Result.Plain {α : Type} (machine : Machine) : EStateM.Result Halt Machine α → Prop
  | ok (value : α) (sink : Sink) : Plain machine (.ok value { machine with sink })
  | error {halt : Halt} (present : halt ≠ .dangling) (sink : Sink) :
      Plain machine (.error halt { machine with sink })

/-- Whether a run on any well-formed machine changes at most what is printed. -/
def Run.Plain {α : Type} (run : Run α) : Prop :=
  ∀ machine : Machine, machine.WellFormed → Result.Plain machine (run machine)

namespace Run

variable {α β : Type}

theorem Plain.pure (value : α) : Plain (Pure.pure value : Run α) :=
  fun machine _ => .ok value machine.sink

theorem Plain.throw {halt : Halt} (present : halt ≠ .dangling) :
    Plain (MonadExcept.throw halt : Run α) :=
  fun machine _ => .error present machine.sink

theorem Plain.bind {run : Run α} {next : α → Run β} (plain : run.Plain)
    (rest : ∀ value, (next value).Plain) : (run >>= next).Plain := by
  intro machine wellFormed
  have first := plain machine wellFormed
  simp only [Bind.bind, EStateM.bind]
  generalize run machine = result at first
  cases first with
  | ok value sink =>
      have second := rest value { machine with sink }
        ⟨wellFormed.ordered, wellFormed.inside, wellFormed.closures⟩
      simp only
      generalize next value { machine with sink } = result at second
      cases second with
      | ok value sink => exact .ok value sink
      | error present sink => exact .error present sink
  | error present sink => exact .error present sink

theorem Plain.ofCause (position : Position) (outcome : Except Cause α) :
    (Run.ofCause position outcome).Plain := by
  cases outcome with
  | ok value => exact .pure value
  | error cause => exact .throw (Halt.reported_ne_dangling _)

theorem Plain.enforce (expr : Expr) (target : Option Ty) (value : Value) :
    (Run.enforce expr target value).Plain := by
  unfold Run.enforce
  split
  · split
    · exact .throw (Halt.reported_ne_dangling _)
    · exact .pure ()
  · exact .pure ()

theorem Plain.cellAt (name : String) (position : Position) : (Run.cellAt name position).Plain := by
  intro machine wellFormed
  rcases wellFormed.ordered.search (·.variableTable.find? name) wellFormed.inside with
    ⟨place, searched⟩
  rcases place with _ | ⟨owner, cell⟩
  · rw [cellAt_of_nowhere searched]
    exact .error (Halt.reported_ne_dangling _) machine.sink
  · rw [cellAt_of_search searched]
    exact .ok cell machine.sink

theorem Plain.print (value : Value) (position : Option Position) :
    (Run.print value position).Plain := by
  intro machine wellFormed
  rw [Run.print, bind_get]
  rcases machine.sink.writeAll (value.pieces ++ ["\n"]) with ⟨sink, complete⟩
  cases complete with
  | true => exact .ok _ sink
  | false => exact .error (Halt.reported_ne_dangling _) sink

theorem Plain.callNative (function : Native) (arguments : List Value)
    (position : Option Position) : (Run.callNative function arguments position).Plain := by
  cases function with
  | print =>
      refine .bind ?_ fun _ => .pure _
      induction arguments with
      | nil => exact .pure ()
      | cons value values ih =>
          simp only [List.forM, bind_assoc]
          exact (Plain.print value position).bind fun _ => ih

/-! ## Runs that change variables -/

variable {machine : Machine}

/-- A variable is added to a scope, or there is one of its name. -/
theorem define_cases {id : ScopeId} (inside : id < machine.arena.depth) (name : String)
    (cell : Cell) (position : Position) :
    (∃ scope, machine.arena.scopes[id]? = some scope ∧ scope.variableTable.find? name = none ∧
      define id name cell position machine =
        .ok () { machine with arena := machine.arena.put id name cell }) ∨
      ∃ diagnostic, define id name cell position machine =
        .error (.reported diagnostic) machine := by
  rcases Arena.exists_scope inside with ⟨scope, found⟩
  by_cases fresh : scope.variableTable.find? name = none
  · exact .inl ⟨scope, found, fresh, define_of_fresh found fresh cell position⟩
  · exact .inr ⟨_, define_of_taken found fresh cell position⟩

/-- A variable gets a new value in the scope in which its name is found, or there is a reason why it
cannot. -/
theorem store_cases (wellFormed : machine.WellFormed) (name : String) (index : Option Int64)
    (value : Value) (position : Position) :
    (∃ owner old cell,
      machine.arena.search (·.variableTable.find? name) machine.current = .ok (some (owner, old)) ∧
        store name index value position machine =
          .ok () { machine with arena := machine.arena.give owner name cell }) ∨
      ∃ diagnostic, store name index value position machine =
        .error (.reported diagnostic) machine := by
  rcases wellFormed.ordered.search (·.variableTable.find? name) wellFormed.inside with
    ⟨place, searched⟩
  rcases place with _ | ⟨owner, old⟩
  · right
    refine ⟨.located (.variableUndefined name) position, ?_⟩
    simp only [store, bind, EStateM.bind, cellAt_of_nowhere searched]
  · rw [store, bind_of_ok (cellAt_of_search searched position)]
    rcases old with ⟨oldValue, isMutable⟩
    cases isMutable with
    | false => exact .inr ⟨_, rfl⟩
    | true =>
        cases index with
        | none => exact .inl ⟨owner, _, _, searched, reassign_of_search searched position⟩
        | some index =>
            simp only
            cases oldValue.setElement index value with
            | error cause => exact .inr ⟨_, rfl⟩
            | ok changed => exact .inl ⟨owner, _, _, searched, reassign_of_search searched position⟩

/-- A name and a number of arguments mean one of the functions of the machine, or none. -/
theorem routineAt_cases (wellFormed : machine.WellFormed) (name : String) (arity : Nat)
    (position : Option Position) :
    (∃ owner routine,
      machine.arena.search (·.functionTable.find? (name, arity)) machine.current =
        .ok (some (owner, routine)) ∧
        routineAt name arity position machine = .ok routine machine) ∨
      ∃ diagnostic, routineAt name arity position machine =
        .error (.reported diagnostic) machine := by
  rcases wellFormed.ordered.search (·.functionTable.find? (name, arity)) wellFormed.inside with
    ⟨place, searched⟩
  have found := Arena.findFunction_of_search searched
  rcases place with _ | ⟨owner, routine⟩
  · exact .inr ⟨_, routineAt_of_none found position⟩
  · exact .inl ⟨owner, routine, searched, routineAt_of_some found position⟩

end Run

namespace Recorded

variable {α β : Type} {constants : Table String Cell} {added : String → Prop}
  {hidden middle last : List String}

/-- Whether a recorded run ends in the scope in which it started, with or without a value, and has
left constants alone. With a value, it ends where the given names are hidden. -/
def Settles (constants : Table String Cell) (added : String → Prop) (last : List String)
    (before : Recording) (recorded : Recorded α) : Prop :=
  recorded.Ends before
    (fun _ after => before.Advances constants added after ∧ after.machine.Poised constants last)
    (fun halt after => before.Advances constants added after ∧ halt ≠ .dangling)

namespace Settles

variable {before : Recording} {recorded : Recorded α}

theorem bind {next : α → Recorded β} (settles : Settles constants added middle before recorded)
    (rest : ∀ value after, before.Advances constants added after →
      after.machine.Poised constants middle → Settles constants added last after (next value)) :
    Settles constants added last before (recorded >>= next) := by
  refine Ends.bind settles ?_
  rintro value between ⟨advances, poised⟩
  refine (rest value between advances poised).mono ?_ ?_
  · rintro _ after ⟨later, poisedAfter⟩
    exact ⟨advances.trans later, poisedAfter⟩
  · rintro _ after ⟨later, present⟩
    exact ⟨advances.trans later, present⟩

theorem mono {more : String → Prop} (settles : Settles constants added last before recorded)
    (implies : ∀ name, added name → more name) :
    Settles constants more last before recorded := by
  refine Ends.mono settles ?_ ?_
  · rintro _ after ⟨advances, poisedAfter⟩
    exact ⟨advances.mono implies, poisedAfter⟩
  · rintro _ after ⟨advances, present⟩
    exact ⟨advances.mono implies, present⟩

theorem weaken {fewer : List String} (settles : Settles constants added last before recorded)
    (among : ∀ name ∈ fewer, name ∈ last) : Settles constants added fewer before recorded := by
  refine Ends.mono settles ?_ fun _ _ stops => stops
  rintro _ after ⟨advances, poisedAfter⟩
  exact ⟨advances, poisedAfter.weaken among⟩

end Settles

/-- Whether something settles wherever the first names are hidden, and the last ones are hidden from
then on. -/
def Disciplined (constants : Table String Cell) (added : String → Prop)
    (hidden last : List String) (recorded : Recorded α) : Prop :=
  ∀ before : Recording, before.machine.Poised constants hidden →
    Settles constants added last before recorded

namespace Disciplined

theorem pure (value : α) : Disciplined constants added hidden hidden (Pure.pure value) :=
  fun _ poised => ⟨.refl poised.holds added, poised⟩

theorem throw {halt : Halt} (present : halt ≠ .dangling) :
    Disciplined constants added hidden last (MonadExcept.throw halt : Recorded α) :=
  fun _ poised => ⟨.refl poised.holds added, present⟩

theorem bind {recorded : Recorded α} {next : α → Recorded β}
    (first : Disciplined constants added hidden middle recorded)
    (rest : ∀ value, Disciplined constants added middle last (next value)) :
    Disciplined constants added hidden last (recorded >>= next) :=
  fun before poised => (first before poised).bind fun value after _ => rest value after

theorem after_get {next : Recording → Recorded α}
    (rest : ∀ before : Recording, Disciplined constants added hidden last (next before)) :
    Disciplined constants added hidden last (get >>= next) :=
  fun before poised => rest before before poised

theorem ite {condition : Prop} [Decidable condition] {recorded other : Recorded α}
    (whenTrue : Disciplined constants added hidden last recorded)
    (whenFalse : Disciplined constants added hidden last other) :
    Disciplined constants added hidden last (if condition then recorded else other) := by
  split
  · exact whenTrue
  · exact whenFalse

theorem mono {more : String → Prop} {recorded : Recorded α}
    (disciplined : Disciplined constants added hidden last recorded)
    (implies : ∀ name, added name → more name) :
    Disciplined constants more hidden last recorded :=
  fun before poised => (disciplined before poised).mono implies

theorem weaken {fewer : List String} {recorded : Recorded α}
    (disciplined : Disciplined constants added hidden last recorded)
    (among : ∀ name ∈ fewer, name ∈ last) :
    Disciplined constants added hidden fewer recorded :=
  fun before poised => (disciplined before poised).weaken among

theorem note (event : Event) : Disciplined constants added hidden hidden (Recorded.note event) := by
  intro before poised
  have advances : before.Advances constants added
      { before with moments := ⟨event, before.machine, before.declared⟩ :: before.moments } :=
    ⟨rfl, rfl, .refl _ _ _, .noted poised.holds rfl⟩
  exact ⟨advances, advances.poised poised⟩

theorem perform {run : Run α} (plain : run.Plain) :
    Disciplined constants added hidden hidden (Recorded.perform run) := by
  intro before poised
  have advances (sink : Sink) : before.Advances constants added
      { before with machine := { before.machine with sink } } :=
    ⟨rfl, rfl, .refl _ _ _, poised.holds, [], rfl, by simp⟩
  have result := plain before.machine poised.wellFormed
  unfold Settles Ends Recorded.perform
  generalize run before.machine = outcome at result
  cases result with
  | ok value sink => exact ⟨advances sink, (advances sink).poised poised⟩
  | error present sink => exact ⟨advances sink, present⟩

theorem valuing {recorded : Recorded Value} (expr : Expr)
    (disciplined : Disciplined constants added hidden hidden recorded) :
    Disciplined constants added hidden hidden (Recorded.valuing expr recorded) :=
  disciplined.bind fun value => (note (.valued expr value)).bind fun _ => .pure value

theorem offerArgument (target : Option Ty) (argument : Expr) (value : Value) :
    Disciplined constants added hidden hidden (Recorded.offerArgument target argument value) := by
  cases target with
  | none => exact .pure ()
  | some ty => exact .note _

/-- A block is left again whichever way it ends. -/
theorem inScope {recorded : Recorded α}
    (disciplined : Disciplined constants added hidden last recorded) :
    Disciplined constants (fun _ => False) hidden hidden (Recorded.inScope recorded) := by
  intro before poised
  have ends := disciplined before.enter.1 poised.enter
  unfold Settles Ends at ends ⊢
  simp only [Recorded.inScope]
  cases outcome : recorded before.enter.1 with
  | ok value after =>
      rw [outcome] at ends
      rcases ends.1.leave poised with ⟨outer, left, advances⟩
      simp only [left]
      exact ⟨advances, advances.poised poised⟩
  | error halt after =>
      rw [outcome] at ends
      rcases ends.1.leave poised with ⟨outer, left, advances⟩
      simp only [left]
      exact ⟨advances, ends.2⟩

end Disciplined

end Recorded

end GradualScript
