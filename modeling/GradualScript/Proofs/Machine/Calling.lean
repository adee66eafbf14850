import GradualScript.Proofs.Machine.Execution

/-!
# Calls of well-typed functions

A call gives a value of the type that the function states, or nil if the body ends without one, and
leaves the caller's variables declared as they were. The proof is by induction on how deep calls may
nest.
-/

namespace GradualScript

/-- Whatever a body comes to, its scope is released, and the state of the caller is as it was apart
from new values. -/
theorem Recording.Ready.resume {reliance : Reliance} {routines : Table (String × Nat) Routine}
    {tables : List (Table String Variable)} {caller callee : Recording} {function : Function}
    {closure : ScopeId}
    (ready : (caller.calling function closure).Ready reliance routines tables)
    (continues : (caller.calling function closure).enter.1.Continues callee)
    (sound : callee.Sound reliance routines) :
    let after := caller.resume (caller.calling function closure).enter.2 callee
    caller.Keeps after ∧ after.Sound reliance routines := by
  rcases ready.release continues sound with ⟨declared, cells, functions⟩
  refine ⟨⟨rfl, rfl, rfl, declared⟩, ?_, functions, sound.moments⟩
  simp only [Recording.resume, declared]
  exact cells

namespace Recorded

variable {reliance : Reliance} {routines : Table (String × Nat) Routine}
  {tables : List (Table String Variable)} {context : Context}

theorem Computes.print (value : Value) (position : Option Position) :
    Computes reliance routines tables (perform (Run.print value position)) fun _ => True := by
  intro before ready
  rcases written : before.machine.sink.writeAll (value.pieces ++ ["\n"]) with ⟨sink, complete⟩
  have readyAfter : Recording.Ready reliance routines tables
      { before with machine := { before.machine with sink } } :=
    ⟨⟨ready.sound.cells, ready.sound.functions, ready.sound.moments⟩, ready.orderly,
      ready.shows⟩
  rw [Ends, perform, Run.print, Run.bind_get, written]
  cases complete with
  | true => exact ⟨⟨rfl, rfl, rfl, rfl⟩, readyAfter, trivial⟩
  | false =>
      refine ⟨⟨rfl, rfl, rfl, .refl _ _⟩, readyAfter.sound, .orderly readyAfter.orderly, ?_⟩
      cases position <;> rfl

theorem Computes.callNative (function : Native) (arguments : List Value)
    (position : Option Position) :
    Computes reliance routines tables (perform (Run.callNative function arguments position))
      (reliance.holds · function.signature.result) := by
  have printed : Computes reliance routines tables
      (perform (arguments.forM fun value => do let _ ← Run.print value position))
      fun _ => True := by
    induction arguments with
    | nil => exact .pure trivial
    | cons value values ih =>
        simp only [List.forM, perform_bind, bind_assoc]
        exact (Computes.print value position).bind fun _ _ => ih
  cases function with
  | print =>
      simp only [Run.callNative, perform_bind]
      exact printed.bind fun _ _ => .pure (reliance.nil _)

/-- The arguments of a call become variables of any type in the scope of the callee. -/
theorem bindArguments_ends {table : Table String Variable} {parameters : List Parameter}
    {values : List Value} {before : Recording}
    (ready : before.Ready reliance routines (table :: tables))
    (distinct : (parameters.map Parameter.name).Nodup)
    (fresh : ∀ parameter ∈ parameters, table.find? parameter.name = none)
    (sameLength : parameters.length = values.length) (position : Position) :
    (bindArguments before.machine.current position parameters values).Ends before
      (fun _ after => before.Continues after ∧ after.Ready reliance routines
        (parameters.foldl
          (fun table parameter => table.insert parameter.name ⟨parameter.name, .any, true⟩)
          table :: tables))
      (before.Stops reliance routines) := by
  induction parameters generalizing table values before with
  | nil => exact ⟨(Recording.Keeps.refl before).continues, ready⟩
  | cons parameter parameters ih =>
      cases values with
      | nil => cases sameLength
      | cons value values =>
          rcases List.nodup_cons.mp distinct with ⟨notLater, distinct⟩
          have isFresh := fresh parameter List.mem_cons_self
          let found : Variable := ⟨parameter.name, .any, true⟩
          have freshAfter : ∀ other ∈ parameters,
              (table.insert parameter.name found).find? other.name = none := by
            intro other member
            have different : parameter.name ≠ other.name := fun same =>
              notLater (same ▸ List.mem_map_of_mem member)
            rw [Table.find?_insert, if_neg different]
            exact fresh other (List.mem_cons_of_mem _ member)
          have holds : reliance.holds value found.ty := reliance.any value
          refine (define_ends ready isFresh holds position).bind ?_
          rintro _ middle ⟨continues, readyMiddle⟩
          rw [← continues.current]
          have others := ih readyMiddle distinct freshAfter (Nat.succ.inj sameLength)
          exact others.continuing continues

/-- Runs the body of a function for a caller, and stays where it ends. -/
def runBody (function : Function) (closure : ScopeId) (arguments : List Value)
    (body : Recorded Signal) : Recorded Signal := fun caller =>
  let (inner, id) := (caller.calling function closure).enter
  (bindArguments id function.span.start function.parameters arguments >>= fun _ => body) inner

theorem enterFunction_eq (function : Function) (closure : ScopeId) (arguments : List Value)
    (body : Recorded Signal) (caller : Recording) :
    enterFunction function closure arguments body caller =
      match runBody function closure arguments body caller with
      | .ok signal callee =>
        .ok (Run.valueOf signal) (caller.resume (caller.calling function closure).enter.2 callee)
      | .error halt callee =>
        .error halt (caller.resume (caller.calling function closure).enter.2 callee) :=
  rfl

theorem ready_calling {locals : List (Table String Variable)} {caller : Recording}
    (ready : caller.Ready reliance routines (locals ++ [context.globals])) (function : Function) :
    (caller.calling function Arena.root).Ready reliance routines [context.globals] :=
  ⟨⟨ready.sound.cells, ready.sound.functions, ready.sound.moments⟩, ready.orderly,
    ready.shows.root_of_append⟩

section

variable {locals tablesAfter : List (Table String Variable)} {function : Function}
  {signature : Signature} {arguments : List Value} {body : Recorded Signal}

/-- A body that is well typed runs in a scope with the arguments. -/
theorem runBody_ends (bound : function.binding = some signature)
    (result : function.resultType = signature.result)
    (distinct : (function.parameters.map Parameter.name).Nodup)
    (arity : function.parameters.length = arguments.length)
    (runs : Runs reliance routines
      [Context.parameterTable function.parameters, context.globals] tablesAfter signature.result
      body)
    {caller : Recording} (ready : caller.Ready reliance routines (locals ++ [context.globals])) :
    (runBody function Arena.root arguments body).Ends caller
      ((caller.calling function Arena.root).enter.1.Reaches reliance routines tablesAfter
        signature.result)
      ((caller.calling function Arena.root).enter.1.Stops reliance routines) := by
  let entering := caller.calling function Arena.root
  have inside : entering.enter.1.Inside signature.result := by
    refine ⟨?_, result⟩
    change function.binding.map Signature.result = some signature.result
    rw [bound]
    rfl
  have binds := bindArguments_ends (ready_calling ready function).enter distinct (by simp) arity
    function.span.start
  change (bindArguments entering.enter.2 function.span.start function.parameters arguments >>=
    fun _ => body).Ends entering.enter.1 _ _
  refine binds.bind ?_
  rintro _ inner ⟨continues, readyInner⟩
  exact runs.continuing continues readyInner inside

/-- A function whose body is well typed gives a value of the type that it states. -/
theorem enterFunction_computes (bound : function.binding = some signature)
    (result : function.resultType = signature.result)
    (distinct : (function.parameters.map Parameter.name).Nodup)
    (arity : function.parameters.length = arguments.length)
    (runs : Runs reliance routines
      [Context.parameterTable function.parameters, context.globals] tablesAfter signature.result
      body) :
    Computes reliance routines (locals ++ [context.globals])
      (enterFunction function Arena.root arguments body)
      (reliance.holds · signature.result) := by
  intro caller ready
  have whole := runBody_ends bound result distinct arity runs ready
  have readyEntering := ready_calling ready function
  unfold Ends at whole ⊢
  rw [enterFunction_eq]
  cases outcome : runBody function Arena.root arguments body caller with
  | ok signal callee =>
      rw [outcome] at whole
      rcases readyEntering.resume whole.continues whole.sound with ⟨keeps, sound⟩
      refine ⟨keeps, keeps.ready sound whole.orderly ready, ?_⟩
      cases signal with
      | finish value => exact (whole.finish value rfl).1
      | goOn => exact reliance.nil _
  | error halt callee =>
      rw [outcome] at whole
      rcases readyEntering.resume whole.continues whole.sound with ⟨keeps, sound⟩
      exact ⟨keeps.continues, sound, whole.stopped, whole.notNaming⟩

end

theorem Computes.routineAt {name : String} {arity : Nat} {routine : Routine}
    (found : routines.find? (name, arity) = some routine) (position : Option Position) :
    Computes reliance routines tables (perform (Run.routineAt name arity position))
      fun other => other = routine := by
  intro before ready
  have result : Run.routineAt name arity position before.machine = .ok routine before.machine := by
    rw [Run.routineAt, Run.bind_get, Run.bind_ofExcept (ready.findFunction name arity), found]
    rfl
  exact .perform result ⟨.refl before, ready, rfl⟩

/-- Calls of functions that are well typed throughout give values of the types that they state,
however deep they nest. -/
theorem call_sound (supports : context.base.Supports reliance routines) (budget : Nat) :
    Caller.Sound reliance routines context.base (call budget) := by
  induction budget with
  | zero => exact fun _ _ _ _ _ _ => .throw rfl
  | succ budget ih =>
      intro locals name arguments position signature known
      rcases supports.functions.find?_some known with ⟨routine, found, implements⟩
      simp only [call]
      refine (Computes.routineAt found position).bind ?_
      rintro _ rfl
      cases implements with
      | builtIn stated =>
          rw [← stated]
          exact .callNative _ arguments position
      | @written function bound _ result arity accepted =>
          rcases accepted.body with ⟨after, bodyAccepted⟩
          have runs := executeAll_runs function.body bodyAccepted supports ih budget
          exact enterFunction_computes bound result accepted.distinct
            (arity.trans (supports.arity known)) runs

end Recorded

end GradualScript
