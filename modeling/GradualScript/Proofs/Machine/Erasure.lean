import GradualScript.Proofs.Machine.Recording

/-!
# Recorded runs without their notes

Forgetting the notes of a recorded run gives the run itself: notes are never looked at, and the
machine goes through the same states. The proof goes along the definitions; what carries it is that
`Recorded.Erases` is kept by sequencing, and that notes change no machine.
-/

namespace GradualScript

namespace Recorded

variable {α β : Type}

/-- A result without the notes. -/
def forget : EStateM.Result Halt Recording α → EStateM.Result Halt Machine α
  | .ok value recording => .ok value recording.machine
  | .error halt recording => .error halt recording.machine

/-- Whether a recorded run is a run, apart from its notes. -/
def Erases (recorded : Recorded α) (run : Run α) : Prop :=
  ∀ recording, forget (recorded recording) = run recording.machine

/-- Whether something does nothing but take notes. -/
def Silent (recorded : Recorded Unit) : Prop :=
  ∀ recording, ∃ after, recorded recording = .ok () after ∧ after.machine = recording.machine

theorem silent_note (event : Event) : Silent (note event) :=
  fun _ => ⟨_, rfl, rfl⟩

theorem silent_pure : Silent (pure ()) :=
  fun recording => ⟨recording, rfl, rfl⟩

theorem silent_remember (id : ScopeId) (name : String) (binding : Option Variable) :
    Silent (remember id name binding) := by
  intro recording
  cases binding with
  | none => exact ⟨_, rfl, rfl⟩
  | some _ => exact ⟨_, rfl, rfl⟩

theorem Silent.bind {first second : Recorded Unit} (silent : Silent first) (rest : Silent second) :
    Silent (first >>= fun _ => second) := by
  intro recording
  rcases silent recording with ⟨middle, made, same⟩
  rcases rest middle with ⟨after, last, still⟩
  refine ⟨after, ?_, still.trans same⟩
  simp only [Bind.bind, EStateM.bind, made, last]

theorem silent_offerArgument (target : Option Ty) (argument : Expr) (value : Value) :
    Silent (offerArgument target argument value) := by
  cases target with
  | none => exact silent_pure
  | some _ => exact silent_note _

theorem silent_offerElements (name : String) (target : Option Ty) (index : Nat)
    (elements : List Expr) (values : List Value) :
    Silent (offerElements name target index elements values) := by
  induction elements generalizing index values with
  | nil => exact silent_pure
  | cons element elements ih =>
      cases values with
      | nil => exact silent_pure
      | cons value values => exact (silent_note _).bind (ih _ _)

theorem silent_offerGlobal (name : String) (target : Option Ty) (initializer : Expr)
    (value : Value) : Silent (offerGlobal name target initializer value) := by
  unfold offerGlobal
  split
  · exact silent_offerElements name target 0 _ _
  · exact silent_note _

namespace Erases

theorem pure (value : α) : Erases (Pure.pure value) (Pure.pure value) :=
  fun _ => rfl

theorem throw (halt : Halt) :
    Erases (MonadExcept.throw halt : Recorded α) (MonadExcept.throw halt) :=
  fun _ => rfl

theorem perform (run : Run α) : Erases (Recorded.perform run) run := by
  intro recording
  unfold Recorded.perform
  cases run recording.machine with
  | ok value machine => rfl
  | error halt machine => rfl

theorem bind {recorded : Recorded α} {run : Run α} {next : α → Recorded β} {runNext : α → Run β}
    (erases : Erases recorded run) (rest : ∀ value, Erases (next value) (runNext value)) :
    Erases (recorded >>= next) (run >>= runNext) := by
  intro recording
  have first := erases recording
  simp only [Bind.bind, EStateM.bind, ← first]
  cases recorded recording with
  | ok value after => exact rest value after
  | error halt after => rfl

/-- Notes before a recorded run do not count. -/
theorem after_silent {notes : Recorded Unit} {recorded : Recorded α} {run : Run α}
    (silent : Silent notes) (erases : Erases recorded run) :
    Erases (notes >>= fun _ => recorded) run := by
  intro recording
  rcases silent recording with ⟨after, made, same⟩
  simp only [Bind.bind, EStateM.bind, made]
  rw [erases after, same]

theorem before_silent {notes recorded : Recorded Unit} {run : Run Unit}
    (erases : Erases recorded run) (silent : Silent notes) :
    Erases (recorded >>= fun _ => notes) run := by
  intro recording
  have first := erases recording
  simp only [Bind.bind, EStateM.bind, ← first]
  cases recorded recording with
  | ok _ middle =>
      rcases silent middle with ⟨after, made, same⟩
      simp only [made, forget, same]
  | error halt after => rfl

/-- Looking at the recording does not count either. -/
theorem after_get {next : Recording → Recorded α} {run : Run α}
    (erases : ∀ recording, forget (next recording recording) = run recording.machine) :
    Erases (get >>= next) run :=
  erases

theorem ite {condition : Prop} [Decidable condition] {first second : Recorded α}
    {runFirst runSecond : Run α} (whenTrue : Erases first runFirst)
    (whenFalse : Erases second runSecond) :
    Erases (if condition then first else second) (if condition then runFirst else runSecond) := by
  split
  · exact whenTrue
  · exact whenFalse

theorem valuing {recorded : Recorded Value} {run : Run Value} (expr : Expr)
    (erases : Erases recorded run) : Erases (Recorded.valuing expr recorded) run := by
  have whole := erases.bind fun value =>
    after_silent (silent_note (.valued expr value)) (pure value)
  rw [bind_pure] at whole
  exact whole

theorem define (id : ScopeId) (name : String) (binding : Option Variable) (value : Value)
    (position : Position) :
    Erases (Recorded.define id name binding value position)
      (Run.define id name ⟨value, true⟩ position) := by
  have notes := (silent_remember id name binding).bind (silent_note .changed)
  exact (perform _).before_silent notes

theorem inScope {recorded : Recorded α} {run : Run α} (erases : Erases recorded run) :
    Erases (Recorded.inScope recorded) (Run.inScope run) := by
  intro recording
  have inside := erases recording.enter.1
  have left (after : Recording) (id : ScopeId) :
      (after.leave id).map Recording.machine = after.machine.leave id := by
    unfold Recording.leave
    cases after.machine.leave id <;> rfl
  unfold Recorded.inScope Run.inScope
  have entered : recording.enter.1.machine = recording.machine.enter.1 := rfl
  have number : recording.enter.2 = recording.machine.enter.2 := rfl
  rw [entered] at inside
  simp only [← inside, number]
  cases recorded recording.enter.1 with
  | ok value after =>
      simp only [forget, ← left]
      cases after.leave recording.machine.enter.2 <;> rfl
  | error halt after =>
      simp only [forget, ← left]
      cases after.leave recording.machine.enter.2 <;> rfl

end Erases

/-- Whether recorded calls are calls, apart from their notes. -/
def Caller.Erases (recorded : Caller) (call : GradualScript.Caller) : Prop :=
  ∀ name arguments position, Recorded.Erases (recorded name arguments position)
    (call name arguments position)

variable {recorded : Caller} {call : GradualScript.Caller}

mutual

theorem evaluate_erases (calls : recorded.Erases call) (expr : Expr) :
    Erases (evaluate recorded expr) (Run.evaluate call expr) := by
  cases expr with
  | literal span ty value =>
      simp only [evaluate, Run.evaluate]
      exact .valuing _ (.pure _)
  | group span ty inner =>
      simp only [evaluate, Run.evaluate]
      exact .valuing _ (evaluate_erases calls inner)
  | binary span ty operator left right =>
      simp only [evaluate, Run.evaluate]
      refine .valuing _ ((evaluate_erases calls left).bind fun leftValue => .ite ?_ ?_)
      · refine (Erases.perform _).bind fun leftValue => ?_
        exact .ite (.pure _) ((evaluate_erases calls right).bind fun _ => .perform _)
      · exact (evaluate_erases calls right).bind fun _ => .perform _
  | access span ty name binding =>
      simp only [evaluate, Run.evaluate]
      exact .valuing _ ((Erases.perform _).bind fun _ => .pure _)
  | element span ty name binding offset =>
      simp only [evaluate, Run.evaluate]
      refine .valuing _ ((evaluate_erases calls offset).bind fun _ => ?_)
      exact (Erases.perform _).bind fun _ => (Erases.perform _).bind fun _ => .perform _
  | call span ty name binding arguments =>
      simp only [evaluate, Run.evaluate]
      refine .valuing _ (.after_get fun recording => ?_)
      have values := evaluateArguments_erases calls
        (recording.parameterTypes name arguments.length)
        ((binding.map Signature.parameters).getD []) arguments
      exact (values.bind fun values => calls name values (some span.start)) recording
  | list span ty elements =>
      simp only [evaluate, Run.evaluate]
      exact .valuing _ ((evaluateArguments_erases calls [] [] elements).bind fun _ => .pure _)

theorem evaluateArguments_erases (calls : recorded.Erases call) (declared targets : List Ty)
    (arguments : List Expr) :
    Erases (evaluateArguments recorded declared targets arguments)
      (Run.evaluateArguments call targets arguments) := by
  cases arguments with
  | nil =>
      simp only [evaluateArguments, Run.evaluateArguments]
      exact .pure _
  | cons argument others =>
      simp only [evaluateArguments, Run.evaluateArguments]
      refine (evaluate_erases calls argument).bind fun value => ?_
      refine .after_silent (silent_offerArgument _ argument value) ?_
      refine (Erases.perform _).bind fun _ => ?_
      exact (evaluateArguments_erases calls declared.tail targets.tail others).bind fun _ => .pure _

end

theorem condition_erases (calls : recorded.Erases call) (expr : Expr) :
    Erases (condition recorded expr) (Run.condition call expr) :=
  (evaluate_erases calls expr).bind fun _ => .perform _

theorem index_erases (calls : recorded.Erases call) (expr : Expr) :
    Erases (index recorded expr) (Run.index call expr) :=
  (evaluate_erases calls expr).bind fun _ => .perform _

theorem initialValue_erases (calls : recorded.Erases call) {offer : Expr → Value → Recorded Unit}
    (silent : ∀ expr value, Silent (offer expr value)) (binding : Option Variable)
    (initializer : Option Expr) :
    Erases (initialValue recorded offer binding initializer)
      (Run.initialValue call binding initializer) := by
  cases initializer with
  | none => exact .pure _
  | some initializer =>
      refine (evaluate_erases calls initializer).bind fun value => ?_
      exact .after_silent (silent initializer value) ((Erases.perform _).bind fun _ => .pure _)

theorem store_erases (name : String) (index : Option Int64) (value : Value) (position : Position) :
    Erases (store name index value position) (Run.store name index value position) :=
  (Erases.perform _).before_silent (silent_note _)

theorem assign_erases (calls : recorded.Erases call) (receiver value : Expr) :
    Erases (assign recorded receiver value) (Run.assign call receiver value) := by
  -- Past the value, both kinds of receiver go on in the same way.
  have tested (slot : Recording → Option Ty) (ty : Option Ty) (name : String)
      (index : Option Int64) (assigned : Value) (position : Position) :
      Erases
        (do
          let recording ← get
          note (.offered .receiver (slot recording) value assigned)
          perform (Run.enforce value ty assigned)
          store name index assigned position)
        (do
          Run.enforce value ty assigned
          Run.store name index assigned position) := by
    refine .after_get fun recording => ?_
    have erases := (Erases.perform (Run.enforce value ty assigned)).bind fun _ =>
      store_erases name index assigned position
    exact erases.after_silent (silent_note _) recording
  cases receiver with
  | access span ty name binding =>
      exact (evaluate_erases calls value).bind fun assigned =>
        tested (·.variableType name) ty name none assigned span.start
  | element span ty name binding offset =>
      refine (index_erases calls offset).bind fun slot => ?_
      exact (evaluate_erases calls value).bind fun assigned =>
        tested (fun recording => (recording.variableType name).bind Ty.element?) ty name (some slot)
          assigned span.start
  | _ =>
      simp only [assign, Run.assign]
      exact .perform _

theorem repeatWhile_erases {test : Recorded Bool} {runTest : Run Bool} {body : Recorded Signal}
    {runBody : Run Signal} (tests : Erases test runTest) (bodies : Erases body runBody)
    (budget : Nat) :
    Erases (repeatWhile test body budget) (Run.repeatWhile runTest runBody budget) := by
  induction budget with
  | zero => exact .throw _
  | succ budget ih =>
      simp only [repeatWhile, Run.repeatWhile]
      refine tests.bind fun holds => .ite (bodies.bind fun signal => ?_) (.pure _)
      cases signal with
      | finish value => exact .pure _
      | goOn => exact ih

mutual

theorem execute_erases (calls : recorded.Erases call) (budget : Nat) (statement : Stmt) :
    Erases (execute recorded budget statement) (Run.execute call budget statement) := by
  cases statement with
  | expression span expr =>
      simp only [execute, Run.execute]
      exact (evaluate_erases calls expr).bind fun _ => .pure _
  | declaration span name typeName initializer binding =>
      simp only [execute, Run.execute]
      refine (initialValue_erases calls (fun _ _ => silent_note _) binding initializer).bind
        fun value => ?_
      refine .after_get fun recording => ?_
      have erases := (Erases.define recording.machine.current name binding value span.start).bind
        fun _ => .pure Signal.goOn
      exact erases recording
  | assignment span receiver value =>
      simp only [execute, Run.execute]
      exact (assign_erases calls receiver value).bind fun _ => .pure _
  | branch span test thenBody elseBody =>
      simp only [execute, Run.execute]
      refine (condition_erases calls test).bind fun holds => .ite ?_ ?_
      · exact (executeAll_erases calls budget thenBody).inScope
      · exact (executeAll_erases calls budget elseBody).inScope
  | switch span subject cases =>
      simp only [execute, Run.execute]
      exact (evaluate_erases calls subject).bind fun value =>
        executeCases_erases calls budget value cases
  | loop span test body =>
      simp only [execute, Run.execute]
      exact repeatWhile_erases (condition_erases calls test)
        (executeAll_erases calls budget body).inScope budget
  | result span expr =>
      simp only [execute, Run.execute]
      refine (evaluate_erases calls expr).bind fun value => .after_get fun recording => ?_
      have erases := (Erases.perform (Run.enforce expr recording.machine.returnType value)).bind
        fun _ => .pure (Signal.finish value)
      exact erases.after_silent (silent_note _) recording

theorem executeCases_erases (calls : recorded.Erases call) (budget : Nat) (subject : Value)
    (cases : Cases) :
    Erases (executeCases recorded budget subject cases)
      (Run.executeCases call budget subject cases) := by
  cases cases with
  | default span body =>
      simp only [executeCases, Run.executeCases]
      exact (executeAll_erases calls budget body).inScope
  | case span value body others =>
      simp only [executeCases, Run.executeCases]
      refine (evaluate_erases calls value).bind fun value => .ite ?_ ?_
      · exact (executeAll_erases calls budget body).inScope
      · exact executeCases_erases calls budget subject others

theorem executeAll_erases (calls : recorded.Erases call) (budget : Nat)
    (statements : List Stmt) :
    Erases (executeAll recorded budget statements) (Run.executeAll call budget statements) := by
  cases statements with
  | nil =>
      simp only [executeAll, Run.executeAll]
      exact .pure _
  | cons statement others =>
      simp only [executeAll, Run.executeAll]
      refine (execute_erases calls budget statement).bind fun signal => ?_
      cases signal with
      | finish value => exact .pure _
      | goOn => exact executeAll_erases calls budget others

end

theorem bindArguments_erases (id : ScopeId) (position : Position) (parameters : List Parameter)
    (values : List Value) :
    Erases (bindArguments id position parameters values)
      (Run.bindArguments id position parameters values) := by
  induction parameters generalizing values with
  | nil => exact .pure _
  | cons parameter parameters ih =>
      cases values with
      | nil => exact .pure _
      | cons value values =>
          exact (Erases.define id parameter.name _ value position).bind fun _ => ih values

theorem enterFunction_erases (function : Function) (closure : ScopeId) (arguments : List Value)
    {body : Recorded Signal} {runBody : Run Signal} (bodies : Erases body runBody) :
    Erases (enterFunction function closure arguments body)
      (Run.enterFunction function closure arguments runBody) := by
  intro caller
  let called : Machine :=
    { caller.machine with
      current := closure
      returnType := function.binding.map Signature.result }
  have entered : (caller.calling function closure).enter.1.machine = called.enter.1 := rfl
  have number : (caller.calling function closure).enter.2 = called.enter.2 := rfl
  have inside := ((bindArguments_erases called.enter.2 function.span.start function.parameters
    arguments).bind fun _ => bodies) (caller.calling function closure).enter.1
  rw [entered] at inside
  simp only [enterFunction, Run.enterFunction, seqRight_eq_bind, ← inside, number, called]
  cases (bindArguments called.enter.2 function.span.start function.parameters arguments >>=
    fun _ => body) (caller.calling function closure).enter.1 with
  | ok signal callee => rfl
  | error halt callee => rfl

theorem call_erases (budget : Nat) : Caller.Erases (Recorded.call budget) (Run.call budget) := by
  induction budget with
  | zero => exact fun _ _ _ => .throw _
  | succ budget ih =>
      intro name arguments position
      simp only [Recorded.call, Run.call]
      refine (Erases.perform _).bind fun routine => ?_
      cases routine with
      | builtIn function => exact .perform _
      | written function closure =>
          exact enterFunction_erases function closure arguments
            (executeAll_erases ih budget function.body)

theorem setUpGlobals_erases (budget : Nat) (globals : List Global) :
    Erases (setUpGlobals budget globals) (Run.setUpGlobals budget globals) := by
  induction globals with
  | nil => exact .pure _
  | cons global others ih =>
      have initial := initialValue_erases (call_erases budget)
        (silent_offerGlobal global.name (Ty.ofName? global.typeName)) global.binding
        global.initializer
      exact initial.bind fun value => (Erases.define _ _ _ value _).bind fun _ => ih

/-- A recorded run of a program is the run of the program, apart from its notes. -/
theorem program_erases (budget : Nat) (program : Program) :
    Erases (Recorded.program budget program) (Run.program budget program) := by
  refine (setUpGlobals_erases budget program.globals).bind fun _ => ?_
  exact (Erases.perform _).bind fun _ => call_erases budget _ _ _

end Recorded

end GradualScript
