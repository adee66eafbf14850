import GradualScript.Proofs.Machine.Printing
import GradualScript.Proofs.Program.Places

/-!
# What holds all along a run

A `Conduct` is something that holds of a machine all along a run, together with the reasons for
which the run may stop. It has to survive the few things that a run does to a machine, which are
entering and leaving scopes, adding and changing variables, and printing. The reasons have to allow
for a missing name or scope, for a budget that is used up, and for what can be found wrong at the
places of the tree that runs. Then every run of a tree with these places is of this conduct.
-/

namespace GradualScript

/-- Whether all nodes of what a call runs start at certain places. -/
def Routine.Placed (places : Position → Prop) : Routine → Prop
  | .builtIn _ => True
  | .written function _ => function.Placed places

/-- What holds of a machine all along a run of a tree with certain places, and the reasons for which
the run may stop. -/
structure Conduct (places : Position → Prop) where
  holds : Arena Cell Routine → Sink → Prop
  stops : Halt → Prop
  push : ∀ {arena sink} (parent : ScopeId), holds arena sink → holds (arena.push parent).1 sink
  dropFrom : ∀ {arena sink} (id : ScopeId), holds arena sink → holds (arena.dropFrom id) sink
  put : ∀ {arena sink} (id : ScopeId) (name : String) (cell : Cell), holds arena sink →
    holds (arena.put id name cell) sink
  give : ∀ {arena sink} (owner : ScopeId) (name : String) (cell : Cell), holds arena sink →
    holds (arena.give owner name cell) sink
  putFunction : ∀ {arena sink} (id : ScopeId) (key : String × Nat) {routine : Routine},
    routine.Placed places → holds arena sink → holds (arena.putFunction id key routine) sink
  routines : ∀ {arena sink}, holds arena sink →
    arena.AllFunctions fun _ routine => routine.Placed places
  write : ∀ {arena sink} (text : String), holds arena sink → holds arena (sink.write text).1
  refused : ∀ {arena sink} (text : String), holds arena sink → (sink.write text).2 = false →
    ∀ position, stops (.reported (.orAt (.unlocated (.outputFailed Sink.refusal)) position))
  naming : ∀ {halt : Halt}, halt.isNaming = true → stops halt
  exhausted : stops .exhausted
  blames : ∀ {halt : Halt}, halt.Blames .running places → stops halt

namespace Arena

variable {V F α : Type} {arena : Arena V F} {id : ScopeId} {halt : Halt}

/-- A search for a name can only fail because scopes are missing or have no end. -/
theorem search_error {find : Scope V F → Option α} (failed : arena.search find id = .error halt) :
    halt.isNaming = true ∨ halt = .exhausted := by
  unfold search at failed
  generalize arena.depth + 1 = budget at failed
  induction budget generalizing id with
  | zero =>
      cases failed
      exact .inr rfl
  | succ budget ih =>
      simp only [searchWithin, scope, bind, Except.bind] at failed
      cases present : arena.scopes[id]? with
      | none =>
          simp only [present] at failed
          cases failed
          exact .inl rfl
      | some scope =>
          simp only [present] at failed
          split at failed
          · cases failed
          · split at failed
            · exact ih failed
            · cases failed

theorem isNaming_of_addVariable {name : String} {value : V} {position : Position}
    (failed : arena.addVariable id name value position = .error halt) : halt.isNaming = true := by
  simp only [addVariable, scope, bind, Except.bind] at failed
  cases present : arena.scopes[id]? with
  | none =>
      simp only [present] at failed
      cases failed
      rfl
  | some scope =>
      simp only [present] at failed
      split at failed
      · cases failed
        rfl
      · cases failed

theorem isNaming_of_addFunction {name : String} {arity : Nat} {function : F} {position : Position}
    (failed : arena.addFunction id name arity function position = .error halt) :
    halt.isNaming = true := by
  simp only [addFunction, scope, bind, Except.bind] at failed
  cases present : arena.scopes[id]? with
  | none =>
      simp only [present] at failed
      cases failed
      rfl
  | some scope =>
      simp only [present] at failed
      split at failed
      · cases failed
        rfl
      · cases failed

end Arena

namespace Machine

/-- A machine about to enter a function that sees names as a scope does. -/
def calling (machine : Machine) (closure : ScopeId) (returnType : Option Ty) : Machine :=
  { machine with current := closure, returnType }

/-- A caller to which a function comes back. -/
def resume (caller callee : Machine) : Machine :=
  { callee with
    arena := callee.arena.dropFrom caller.arena.depth
    current := caller.current
    returnType := caller.returnType }

/-- A scope can be left unless it is missing. -/
theorem leave_cases (machine : Machine) (id : ScopeId) :
    machine.leave id = .error .dangling ∨
      ∃ current, machine.leave id =
        .ok { machine with arena := machine.arena.dropFrom id, current } := by
  simp only [leave, Arena.parent, Arena.scope]
  cases machine.arena.scopes[id]? with
  | none => exact .inl rfl
  | some scope => exact .inr ⟨_, rfl⟩

end Machine

namespace Run

variable {α β : Type}

theorem enterFunction_eq (function : Function) (closure : ScopeId) (arguments : List Value)
    (body : Run Signal) (caller : Machine) :
    let entered := (caller.calling closure (function.binding.map Signature.result)).enter
    Run.enterFunction function closure arguments body caller =
      match (Run.bindArguments entered.2 function.span.start function.parameters arguments *>
        body) entered.1 with
      | .ok signal callee => .ok (valueOf signal) (caller.resume callee)
      | .error halt callee => .error halt (caller.resume callee) :=
  rfl

variable {places : Position → Prop} {conduct : Conduct places}

/-- Whether a run came to an end as a conduct asks. -/
inductive Allowed (conduct : Conduct places) : EStateM.Result Halt Machine α → Prop
  | ok {value : α} {after : Machine} (holds : conduct.holds after.arena after.sink) :
      Allowed conduct (.ok value after)
  | error {halt : Halt} {after : Machine} (holds : conduct.holds after.arena after.sink)
      (stops : conduct.stops halt) : Allowed conduct (.error halt after)

/-- Whether a run is of a conduct. -/
def Abides (conduct : Conduct places) (run : Run α) : Prop :=
  ∀ machine : Machine, conduct.holds machine.arena machine.sink → Allowed conduct (run machine)

namespace Abides

theorem pure (value : α) : Abides conduct (Pure.pure value : Run α) :=
  fun _ holds => .ok holds

theorem throw {halt : Halt} (stops : conduct.stops halt) :
    Abides conduct (MonadExcept.throw halt : Run α) :=
  fun _ holds => .error holds stops

theorem bind {run : Run α} {next : α → Run β} (abides : Abides conduct run)
    (rest : ∀ value, Abides conduct (next value)) : Abides conduct (run >>= next) := by
  intro machine holds
  have first := abides machine holds
  change Allowed conduct (EStateM.bind run next machine)
  unfold EStateM.bind
  generalize run machine = result at first ⊢
  cases first with
  | ok holds => exact rest _ _ holds
  | error holds stops => exact .error holds stops

/-- A run after a look at the machine. -/
theorem look {next : Machine → Run α}
    (each : ∀ machine : Machine, conduct.holds machine.arena machine.sink →
      Allowed conduct (next machine machine)) : Abides conduct (get >>= next) :=
  each

theorem ite {condition : Prop} [Decidable condition] {first second : Run α}
    (whenTrue : Abides conduct first) (whenFalse : Abides conduct second) :
    Abides conduct (if condition then first else second) := by
  split
  · exact whenTrue
  · exact whenFalse

theorem ofCause {result : Except Cause α} {known : α → Prop} {position : Position}
    (gives : Value.Gives result known) (placed : places position) :
    Abides conduct (Run.ofCause position result) := by
  cases result with
  | ok value => exact .pure value
  | error cause => exact .throw (conduct.blames ⟨cause, position, rfl, gives.2, placed⟩)

theorem enforce {expr : Expr} (placed : expr.Placed places) (target : Option Ty) (value : Value) :
    Abides conduct (Run.enforce expr target value) := by
  unfold Run.enforce
  split
  · exact .ite (.throw (conduct.blames ⟨_, _, rfl, rfl, placed.start⟩)) (.pure ())
  · exact .pure ()

theorem define (id : ScopeId) (name : String) (cell : Cell) (position : Position) :
    Abides conduct (Run.define id name cell position) := by
  refine look fun machine holds => ?_
  simp only [Bind.bind, EStateM.bind]
  cases added : machine.arena.addVariable id name cell position with
  | error halt => exact .error holds (conduct.naming (Arena.isNaming_of_addVariable added))
  | ok arena =>
      rcases Arena.addVariable_eq_ok_iff.mp added with ⟨_, _, _, rfl⟩
      exact .ok (conduct.put _ _ _ holds)

theorem stops_of_search {V F : Type} {arena : Arena V F} {find : Scope V F → Option α}
    {id : ScopeId} {halt : Halt} (failed : arena.search find id = .error halt) :
    conduct.stops halt := by
  rcases Arena.search_error failed with naming | rfl
  · exact conduct.naming naming
  · exact conduct.exhausted

theorem cellAt (name : String) (position : Position) :
    Abides conduct (Run.cellAt name position) := by
  refine look fun machine holds => ?_
  cases searched : machine.arena.search (·.variableTable.find? name) machine.current with
  | error halt =>
      rw [Arena.findVariable, searched]
      exact .error holds (stops_of_search searched)
  | ok place =>
      rw [Arena.findVariable_of_search searched]
      cases place with
      | none => exact .error holds (conduct.naming rfl)
      | some place => exact .ok holds

theorem reassign (name : String) (cell : Cell) (position : Position) :
    Abides conduct (Run.reassign name cell position) := by
  refine look fun machine holds => ?_
  cases searched : machine.arena.search (·.variableTable.find? name) machine.current with
  | error halt =>
      rw [Arena.assign, searched]
      exact .error holds (stops_of_search searched)
  | ok place =>
      cases place with
      | none =>
          rw [Arena.assign, searched]
          exact .error holds (conduct.naming rfl)
      | some place =>
          rw [Arena.assign_of_search searched]
          exact .ok (conduct.give _ _ _ holds)

theorem store {position : Position} (placed : places position) (name : String)
    (index : Option Int64) (value : Value) :
    Abides conduct (Run.store name index value position) := by
  refine (cellAt name position).bind fun cell => ?_
  rcases cell with ⟨old, isMutable⟩
  cases isMutable with
  | false => exact .throw (conduct.naming rfl)
  | true =>
      cases index with
      | none => exact .reassign name _ position
      | some index =>
          exact (ofCause (Value.setElement_gives old index value) placed).bind fun _ =>
            .reassign name _ position

theorem bindArguments (id : ScopeId) (position : Position) (parameters : List Parameter)
    (values : List Value) : Abides conduct (Run.bindArguments id position parameters values) := by
  induction parameters generalizing values with
  | nil => exact .pure ()
  | cons parameter parameters ih =>
      cases values with
      | nil => exact .pure ()
      | cons value values => exact (define _ _ _ _).bind fun _ => ih values

/-- What a name means is at the places, too. -/
theorem afterRoutine {name : String} {arity : Nat} {position : Option Position}
    {next : Routine → Run α}
    (each : ∀ routine : Routine, routine.Placed places → Abides conduct (next routine)) :
    Abides conduct (Run.routineAt name arity position >>= next) := by
  intro machine holds
  cases searched : machine.arena.search (·.functionTable.find? (name, arity)) machine.current with
  | error halt =>
      have failed : machine.arena.findFunction machine.current name arity = .error halt := by
        rw [Arena.findFunction, searched]
        rfl
      simp only [Bind.bind, EStateM.bind, routineAt_of_error failed]
      exact .error holds (stops_of_search searched)
  | ok place =>
      have found := Arena.findFunction_of_search searched
      cases place with
      | none =>
          simp only [Bind.bind, EStateM.bind, routineAt_of_none found]
          exact .error holds (conduct.naming rfl)
      | some place =>
          rw [bind_of_ok (routineAt_of_some found position)]
          exact each _ ((conduct.routines holds).found searched) machine holds

theorem print (value : Value) (position : Option Position) :
    Abides conduct (Run.print value position) := by
  rw [print_eq]
  refine look fun machine holds => ?_
  have written := conduct.write (value.render ++ "\n") holds
  have refused := conduct.refused (value.render ++ "\n") holds
  generalize machine.sink.write (value.render ++ "\n") = outcome at written refused ⊢
  rcases outcome with ⟨sink, complete⟩
  cases complete with
  | true => exact .ok written
  | false => exact .error written (refused rfl position)

theorem callNative (function : Native) (arguments : List Value) (position : Option Position) :
    Abides conduct (Run.callNative function arguments position) := by
  cases function with
  | print =>
      refine bind ?_ fun _ => .pure _
      induction arguments with
      | nil => exact .pure ()
      | cons value values ih =>
          simp only [List.forM, bind_assoc]
          exact (print value position).bind fun _ => ih

theorem inScope {run : Run α} (abides : Abides conduct run) :
    Abides conduct (Run.inScope run) := by
  intro machine holds
  have inside := abides machine.enter.1 (conduct.push _ holds)
  simp only [Run.inScope]
  generalize run machine.enter.1 = result at inside ⊢
  cases inside with
  | @ok value inner holds =>
      rcases inner.leave_cases machine.enter.2 with left | ⟨current, left⟩
      · simp only [left]
        exact .error holds (conduct.naming rfl)
      · simp only [left]
        exact .ok (conduct.dropFrom _ holds)
  | @error halt inner holds stops =>
      rcases inner.leave_cases machine.enter.2 with left | ⟨current, left⟩
      · simp only [left]
        exact .error holds (conduct.naming rfl)
      · simp only [left]
        exact .error (conduct.dropFrom _ holds) stops

theorem enterFunction {body : Run Signal} (abides : Abides conduct body) (function : Function)
    (closure : ScopeId) (arguments : List Value) :
    Abides conduct (Run.enterFunction function closure arguments body) := by
  intro caller holds
  have bound (id : ScopeId) : Abides conduct
      (Run.bindArguments id function.span.start function.parameters arguments *> body) := by
    rw [seqRight_eq_bind]
    exact (bindArguments _ _ _ _).bind fun _ => abides
  let entered := (caller.calling closure (function.binding.map Signature.result)).enter
  have inside := bound entered.2 entered.1 (conduct.push closure holds)
  rw [enterFunction_eq]
  generalize (Run.bindArguments _ _ _ _ *> body) _ = result at inside ⊢
  cases inside with
  | ok holds => exact .ok (conduct.dropFrom _ holds)
  | error holds stops => exact .error (conduct.dropFrom _ holds) stops

end Abides

/-! ## Whole programs -/

/-- Whether all calls are of a conduct. -/
def CallsAbide (conduct : Conduct places) (call : Caller) : Prop :=
  ∀ name arguments position, Abides conduct (call name arguments position)

variable {call : Caller}

mutual

theorem evaluate_abides (calls : CallsAbide conduct call) (expr : Expr)
    (placed : expr.Placed places) : Abides conduct (evaluate call expr) := by
  cases expr with
  | literal span ty value =>
      simp only [evaluate]
      exact .pure _
  | group span ty inner =>
      simp only [evaluate]
      exact evaluate_abides calls inner placed.2
  | binary span ty operator left right =>
      rcases placed with ⟨placed, leftPlaced, rightPlaced⟩
      simp only [evaluate]
      refine (evaluate_abides calls left leftPlaced).bind fun leftValue => .ite ?_ ?_
      · refine (Abides.ofCause (Value.asBoolean_gives leftValue) leftPlaced.start).bind fun _ => ?_
        refine .ite (.pure _) ((evaluate_abides calls right rightPlaced).bind fun _ => ?_)
        exact .ofCause (Value.apply_gives _ _ _) placed
      · refine (evaluate_abides calls right rightPlaced).bind fun _ => ?_
        exact .ofCause (Value.apply_gives _ _ _) placed
  | access span ty name binding =>
      simp only [evaluate]
      exact (Abides.cellAt name span.start).bind fun _ => .pure _
  | element span ty name binding offset =>
      rcases placed with ⟨placed, offsetPlaced⟩
      simp only [evaluate]
      refine (evaluate_abides calls offset offsetPlaced).bind fun index => ?_
      refine (Abides.ofCause (Value.asInteger_gives index) offsetPlaced.start).bind fun _ => ?_
      refine (Abides.cellAt name span.start).bind fun cell => ?_
      exact .ofCause (Value.elementAt_gives _ _) placed
  | call span ty name binding arguments =>
      simp only [evaluate]
      exact (evaluateArguments_abides calls _ arguments placed.2).bind fun values =>
        calls name values _
  | list span ty elements =>
      simp only [evaluate]
      exact (evaluateArguments_abides calls [] elements placed.2).bind fun _ => .pure _

theorem evaluateArguments_abides (calls : CallsAbide conduct call) (targets : List Ty)
    (arguments : List Expr) (placed : Expr.AllPlaced places arguments) :
    Abides conduct (evaluateArguments call targets arguments) := by
  cases arguments with
  | nil =>
      simp only [evaluateArguments]
      exact .pure _
  | cons argument others =>
      rcases placed with ⟨placed, othersPlaced⟩
      simp only [evaluateArguments]
      refine (evaluate_abides calls argument placed).bind fun value => ?_
      refine (Abides.enforce placed _ value).bind fun _ => ?_
      exact (evaluateArguments_abides calls targets.tail others othersPlaced).bind fun _ => .pure _

end

section

variable (calls : CallsAbide conduct call)

include calls

theorem condition_abides {expr : Expr} (placed : expr.Placed places) :
    Abides conduct (condition call expr) :=
  (evaluate_abides calls expr placed).bind fun value =>
    .ofCause (Value.asBoolean_gives value) placed.start

theorem initialValue_abides (binding : Option Variable) {initializer : Option Expr}
    (placed : ∀ expr ∈ initializer, expr.Placed places) :
    Abides conduct (initialValue call binding initializer) := by
  cases initializer with
  | none => exact .pure _
  | some initializer =>
      have initialPlaced := placed initializer rfl
      refine (evaluate_abides calls initializer initialPlaced).bind fun value => ?_
      exact (Abides.enforce initialPlaced _ value).bind fun _ => .pure _

theorem assign_abides {receiver value : Expr} (receiverPlaced : receiver.Placed places)
    (valuePlaced : value.Placed places) : Abides conduct (assign call receiver value) := by
  have stored (ty : Option Ty) (name : String) (index : Option Int64) {position : Position}
      (placed : places position) :
      Abides conduct (do
        let assigned ← evaluate call value
        enforce value ty assigned
        store name index assigned position) :=
    (evaluate_abides calls value valuePlaced).bind fun assigned =>
      (Abides.enforce valuePlaced ty assigned).bind fun _ => .store placed name index assigned
  cases receiver with
  | access span ty name binding => exact stored ty name none receiverPlaced
  | element span ty name binding offset =>
      rcases receiverPlaced with ⟨placed, offsetPlaced⟩
      refine Abides.bind ?_ fun slot => stored ty name (some slot) placed
      exact (evaluate_abides calls offset offsetPlaced).bind fun index =>
        .ofCause (Value.asInteger_gives index) offsetPlaced.start
  | _ => exact .throw (conduct.naming rfl)

end

theorem repeatWhile_abides {test : Run Bool} {body : Run Signal} (tests : Abides conduct test)
    (bodies : Abides conduct body) (budget : Nat) :
    Abides conduct (repeatWhile test body budget) := by
  induction budget with
  | zero => exact .throw conduct.exhausted
  | succ budget ih =>
      simp only [repeatWhile]
      refine tests.bind fun holds => .ite (bodies.bind fun signal => ?_) (.pure _)
      cases signal with
      | finish value => exact .pure _
      | goOn => exact ih

mutual

theorem execute_abides (calls : CallsAbide conduct call) (budget : Nat) (statement : Stmt)
    (placed : statement.Placed places) : Abides conduct (execute call budget statement) := by
  cases statement with
  | expression span expr =>
      simp only [execute]
      exact (evaluate_abides calls expr placed.2).bind fun _ => .pure _
  | declaration span name typeName initializer binding =>
      simp only [execute]
      refine (initialValue_abides calls binding placed.2).bind fun value => ?_
      refine Abides.bind (fun machine holds => ?_) fun _ => .pure _
      exact Abides.define machine.current name ⟨value, true⟩ span.start machine holds
  | assignment span receiver value =>
      simp only [execute]
      exact (assign_abides calls placed.2.1 placed.2.2).bind fun _ => .pure _
  | branch span test thenBody elseBody =>
      rcases placed with ⟨_, testPlaced, thenPlaced, elsePlaced⟩
      simp only [execute]
      refine (condition_abides calls testPlaced).bind fun _ => .ite ?_ ?_
      · exact (executeAll_abides calls budget thenBody thenPlaced).inScope
      · exact (executeAll_abides calls budget elseBody elsePlaced).inScope
  | switch span subject cases =>
      simp only [execute]
      exact (evaluate_abides calls subject placed.2.1).bind fun value =>
        executeCases_abides calls budget value cases placed.2.2
  | loop span test body =>
      simp only [execute]
      refine repeatWhile_abides (condition_abides calls placed.2.1) ?_ budget
      exact (executeAll_abides calls budget body placed.2.2).inScope
  | result span expr =>
      simp only [execute]
      refine (evaluate_abides calls expr placed.2).bind fun value machine holds => ?_
      have tested : Abides conduct (enforce expr machine.returnType value) :=
        .enforce placed.2 _ _
      exact (tested.bind fun _ => .pure _) machine holds

theorem executeCases_abides (calls : CallsAbide conduct call) (budget : Nat) (subject : Value)
    (cases : Cases) (placed : cases.Placed places) :
    Abides conduct (executeCases call budget subject cases) := by
  cases cases with
  | default span body =>
      simp only [executeCases]
      exact (executeAll_abides calls budget body placed.2).inScope
  | case span value body others =>
      rcases placed with ⟨_, valuePlaced, bodyPlaced, othersPlaced⟩
      simp only [executeCases]
      refine (evaluate_abides calls value valuePlaced).bind fun value => .ite ?_ ?_
      · exact (executeAll_abides calls budget body bodyPlaced).inScope
      · exact executeCases_abides calls budget subject others othersPlaced

theorem executeAll_abides (calls : CallsAbide conduct call) (budget : Nat)
    (statements : List Stmt) (placed : Stmt.AllPlaced places statements) :
    Abides conduct (executeAll call budget statements) := by
  cases statements with
  | nil =>
      simp only [executeAll]
      exact .pure _
  | cons statement others =>
      simp only [executeAll]
      refine (execute_abides calls budget statement placed.1).bind fun signal => ?_
      cases signal with
      | finish value => exact .pure _
      | goOn => exact executeAll_abides calls budget others placed.2

end

theorem call_abides (conduct : Conduct places) (budget : Nat) :
    CallsAbide conduct (Run.call budget) := by
  induction budget with
  | zero => exact fun _ _ _ => .throw conduct.exhausted
  | succ budget ih =>
      intro name arguments position
      simp only [Run.call]
      refine .afterRoutine fun routine placed => ?_
      cases routine with
      | builtIn function => exact .callNative function arguments position
      | written function closure =>
          have body := executeAll_abides ih budget function.body placed.2
          exact body.enterFunction function closure arguments

theorem setUpGlobals_abides (conduct : Conduct places) (budget : Nat) {globals : List Global}
    (placed : ∀ global ∈ globals, global.Placed places) :
    Abides conduct (setUpGlobals budget globals) := by
  induction globals with
  | nil => exact .pure ()
  | cons global others ih =>
      rcases List.forall_mem_cons.mp placed with ⟨placed, othersPlaced⟩
      have initial := initialValue_abides (call_abides conduct budget) global.binding placed.2
      refine initial.bind fun value => ?_
      exact (Abides.define _ _ _ _).bind fun _ => ih othersPlaced

theorem setUpFunctions_abides (conduct : Conduct places) {functions : List Function}
    (placed : ∀ function ∈ functions, function.Placed places) :
    Abides conduct (setUpFunctions functions) := by
  induction functions with
  | nil => exact .pure ()
  | cons function others ih =>
      rcases List.forall_mem_cons.mp placed with ⟨placed, othersPlaced⟩
      refine .look fun machine holds => ?_
      simp only [Bind.bind, EStateM.bind]
      cases added : machine.arena.addFunction Arena.root function.name function.arity
          (.written function Arena.root) function.span.start with
      | error halt => exact .error holds (conduct.naming (Arena.isNaming_of_addFunction added))
      | ok arena =>
          rcases Arena.addFunction_eq_ok_iff.mp added with ⟨_, _, _, rfl⟩
          exact ih othersPlaced _ (conduct.putFunction _ _ placed holds)

theorem program_abides (conduct : Conduct places) (budget : Nat) {program : Program}
    (placed : program.Placed places) : Abides conduct (Run.program budget program) := by
  refine (setUpGlobals_abides conduct budget placed.onGlobals).bind fun _ => ?_
  refine (setUpFunctions_abides conduct placed.onFunctions).bind fun _ => ?_
  exact call_abides conduct budget _ _ _

end Run

end GradualScript
