import GradualScript.Machine.Expression

/-!
# Running statements

Statements run in order until one of them ends the function. What a call runs is a parameter, and so
is the number of rounds that a loop may take, since a script may go on for ever.
-/

namespace GradualScript

namespace Run

/-- The value that a variable starts with. Without an initial value it is nil. -/
def initialValue (call : Caller) (binding : Option Variable) : Option Expr → Run Value
  | some initializer => do
    let value ← evaluate call initializer
    enforce initializer (binding.map Variable.ty) value
    return value
  | none => return .nil

/-- Gives a variable, or its element at an index, a new value. -/
def store (name : String) (index : Option Int64) (value : Value) (position : Position) :
    Run Unit := do
  let cell ← cellAt name position
  if !cell.isMutable then report (.variableConstant name) position
  let value ←
    match index with
    | some index => ofCause position (cell.value.setElement index value)
    | none => pure value
  let machine ← get
  match ← ofExcept (machine.arena.assign machine.current name { cell with value }) with
  | some arena => set { machine with arena }
  | none => report (.variableUndefined name) position

/-- Runs an assignment. The index is evaluated before the value. -/
def assign (call : Caller) (receiver value : Expr) : Run Unit := do
  match receiver with
  | .access span ty name _ =>
    let assigned ← evaluate call value
    enforce value ty assigned
    store name none assigned span.start
  | .element span ty name _ offset =>
    let slot ← index call offset
    let assigned ← evaluate call value
    enforce value ty assigned
    store name (some slot) assigned span.start
  | _ => report .invalidTarget receiver.start

/-- Runs a block as long as a condition holds, for at most `budget` rounds. -/
def repeatWhile (condition : Run Bool) (body : Run Signal) : Nat → Run Signal
  | 0 => throw .exhausted
  | budget + 1 => do
    if ← condition then
      match ← body with
      | .finish value => return .finish value
      | .goOn => repeatWhile condition body budget
    else
      return .goOn

mutual

/-- Runs a statement. -/
def execute (call : Caller) (budget : Nat) : Stmt → Run Signal
  | .expression _ expr => do
    let _ ← evaluate call expr
    return .goOn
  | .declaration span name _ initializer binding => do
    let value ← initialValue call binding initializer
    declare name value span.start
    return .goOn
  | .assignment _ receiver value => do
    assign call receiver value
    return .goOn
  | .branch _ test thenBody elseBody => do
    if ← condition call test then inScope (executeAll call budget thenBody)
    else inScope (executeAll call budget elseBody)
  | .switch _ subject cases => do
    let subject ← evaluate call subject
    executeCases call budget subject cases
  | .loop _ test body =>
    repeatWhile (condition call test) (inScope (executeAll call budget body)) budget
  | .result _ expr => do
    let value ← evaluate call expr
    enforce expr (← get).returnType value
    return .finish value

/-- Runs the first arm whose value equals the subject, or the default. -/
def executeCases (call : Caller) (budget : Nat) (subject : Value) : Cases → Run Signal
  | .default _ body => inScope (executeAll call budget body)
  | .case _ value body others => do
    let value ← evaluate call value
    if value.same subject then inScope (executeAll call budget body)
    else executeCases call budget subject others

/-- Runs statements in the current scope until one of them ends the function. -/
def executeAll (call : Caller) (budget : Nat) : List Stmt → Run Signal
  | [] => return .goOn
  | statement :: others => do
    match ← execute call budget statement with
    | .finish value => return .finish value
    | .goOn => executeAll call budget others

end

end Run

end GradualScript
