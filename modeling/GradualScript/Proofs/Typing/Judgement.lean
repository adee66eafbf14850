import GradualScript.Proofs.Scope.Lookup
import GradualScript.Typing.Program

/-!
# Well-typed programs

What it means for a checked tree to be well typed, said by rules instead of by a checker that works
through an arena of scopes. A rule speaks of a `Context`: the functions of the program, its globals,
and the tables of the scopes around the piece of program, innermost first. A declaration adds to the
innermost table, and a block is judged with one table more.

The rules ask that each annotation is the type or the name that the rule finds, so a tree that obeys
them is annotated throughout. Types that only the running script can tell are let through by
`Ty.allows`, as in the checker.
-/

namespace GradualScript

mutual

/-- The operations in an expression, each with the type that it is annotated with. -/
def Expr.operations : Expr → List (Operator × Option Ty)
  | .literal .. | .access .. => []
  | .group _ _ inner => inner.operations
  | .binary _ ty operator left right => (operator, ty) :: (left.operations ++ right.operations)
  | .element _ _ _ _ offset => offset.operations
  | .call _ _ _ _ arguments => Expr.operationsOf arguments
  | .list _ _ elements => Expr.operationsOf elements

/-- The operations in a list of expressions. -/
def Expr.operationsOf : List Expr → List (Operator × Option Ty)
  | [] => []
  | expr :: others => expr.operations ++ Expr.operationsOf others

end

/-- The operations in an initial value, if there is one. -/
def Expr.operationsIn (initializer : Option Expr) : List (Operator × Option Ty) :=
  (initializer.map Expr.operations).getD []

mutual

/-- The operations in a statement. -/
def Stmt.operations : Stmt → List (Operator × Option Ty)
  | .expression _ expr => expr.operations
  | .declaration _ _ _ initializer _ => Expr.operationsIn initializer
  | .assignment _ receiver value => receiver.operations ++ value.operations
  | .branch _ condition thenBody elseBody =>
    condition.operations ++ (Stmt.operationsOf thenBody ++ Stmt.operationsOf elseBody)
  | .switch _ subject cases => subject.operations ++ cases.operations
  | .loop _ condition body => condition.operations ++ Stmt.operationsOf body
  | .result _ value => value.operations

/-- The operations in the arms of a switch. -/
def Cases.operations : Cases → List (Operator × Option Ty)
  | .default _ body => Stmt.operationsOf body
  | .case _ value body others =>
    value.operations ++ (Stmt.operationsOf body ++ others.operations)

/-- The operations in a list of statements. -/
def Stmt.operationsOf : List Stmt → List (Operator × Option Ty)
  | [] => []
  | statement :: others => statement.operations ++ Stmt.operationsOf others

end

/-- The operations in a program. -/
def Program.operations (program : Program) : List (Operator × Option Ty) :=
  program.globals.flatMap (Expr.operationsIn ·.initializer) ++
    program.functions.flatMap (Stmt.operationsOf ·.body)

mutual

/-- Whether every assignment in a statement names a variable or an element of one. -/
def Stmt.Targeted : Stmt → Prop
  | .expression .. | .declaration .. | .result .. => True
  | .assignment _ receiver _ => receiver.isAccess = true
  | .branch _ _ thenBody elseBody => Stmt.AllTargeted thenBody ∧ Stmt.AllTargeted elseBody
  | .switch _ _ cases => cases.Targeted
  | .loop _ _ body => Stmt.AllTargeted body

/-- Whether every assignment in the arms of a switch names a variable or an element of one. -/
def Cases.Targeted : Cases → Prop
  | .default _ body => Stmt.AllTargeted body
  | .case _ _ body others => Stmt.AllTargeted body ∧ others.Targeted

/-- Whether every assignment in some statements names a variable or an element of one. -/
def Stmt.AllTargeted : List Stmt → Prop
  | [] => True
  | statement :: others => statement.Targeted ∧ Stmt.AllTargeted others

end

/-- A program as it is read: no name has been declared yet, and every assignment names a variable or
an element of one. -/
structure Program.Unchecked (program : Program) : Prop where
  globals : ∀ global ∈ program.globals, global.binding = none
  functions : ∀ function ∈ program.functions, function.binding = none
  bodies : ∀ function ∈ program.functions, Stmt.AllTargeted function.body

/-- The types that a function states for its parameters. -/
def Function.parameterTypes (function : Function) : List Ty :=
  function.parameters.filterMap (Ty.ofName? ·.typeName)

/-- The type that a function states for its result; one that states none gives nil. -/
def Function.resultType (function : Function) : Ty :=
  (function.resultTypeName.bind Ty.ofName?).getD .nil

/-- What a piece of a program may use: functions, globals, the variables of the scopes around it
with the innermost scope first, and operations, by the type of their result. -/
structure Context where
  functions : Table (String × Nat) Signature
  globals : Table String Variable
  locals : List (Table String Variable)
  permits : Operator → Ty → Prop

/-- The functions that a checker knows before it has seen a program. -/
def Checker.nativeSignatures : Table (String × Nat) Signature :=
  .ofList (Native.all.map fun function =>
    ((function.signature.name, function.signature.arity), function.signature))

namespace Context

/-- The tables in which a name is looked for. -/
def tables (context : Context) : List (Table String Variable) :=
  context.locals ++ [context.globals]

/-- The variable that a name means. -/
def lookup (context : Context) (name : String) : Option Variable :=
  Table.findIn context.tables name

/-- The context inside a new scope. -/
def enter (context : Context) : Context := { context with locals := .empty :: context.locals }

/-- Whether all operations of a list may be used, by the types that they are annotated with. -/
def PermitsAll (context : Context) (operations : List (Operator × Option Ty)) : Prop :=
  ∀ operator found, (operator, some found) ∈ operations → context.permits operator found

namespace PermitsAll

variable {context : Context} {first second : List (Operator × Option Ty)}

theorem left (permitted : context.PermitsAll (first ++ second)) : context.PermitsAll first := by
  intro operator found uses
  exact permitted operator found (List.mem_append_left second uses)

theorem right (permitted : context.PermitsAll (first ++ second)) : context.PermitsAll second := by
  intro operator found uses
  exact permitted operator found (List.mem_append_right first uses)

theorem head {operator : Operator} {ty : Ty}
    (permitted : context.PermitsAll ((operator, some ty) :: first)) :
    context.permits operator ty :=
  permitted operator ty List.mem_cons_self

theorem tail {operation : Operator × Option Ty}
    (permitted : context.PermitsAll (operation :: first)) : context.PermitsAll first := by
  intro operator found uses
  exact permitted operator found (List.mem_cons_of_mem operation uses)

end PermitsAll

mutual

/-- Whether an expression is annotated throughout and of a type. -/
inductive Types (context : Context) : Expr → Ty → Prop
  | literal {span : Span} {value : Literal} :
      Types context (.literal span (some value.ty) value) value.ty
  | group {span : Span} {inner : Expr} {ty : Ty} (isBinary : inner.isBinary = true)
      (typed : Types context inner ty) : Types context (.group span (some ty) inner) ty
  | binary {span : Span} {operator : Operator} {left right : Expr} {leftType rightType ty : Ty}
      (leftTyped : Types context left leftType) (rightTyped : Types context right rightType)
      (operation : Ty.ofOperation? operator leftType rightType = some ty)
      (permitted : context.permits operator ty) :
      Types context (.binary span (some ty) operator left right) ty
  | access {span : Span} {name : String} {found : Variable}
      (known : context.lookup name = some found) :
      Types context (.access span (some found.ty) name (some found)) found.ty
  | element {span : Span} {name : String} {found : Variable} {offset : Expr}
      {offsetType ty : Ty} (known : context.lookup name = some found)
      (offsetTyped : Types context offset offsetType)
      (whole : Ty.integer.allows offsetType = true) (element : found.ty.element? = some ty) :
      Types context (.element span (some ty) name (some found) offset) ty
  | call {span : Span} {name : String} {found : Signature} {arguments : List Expr}
      {types : List Ty} (typed : TypesAll context arguments types)
      (known : context.functions.find? (name, arguments.length) = some found)
      (allowed : ∀ (index : Nat) (target received : Ty), found.parameters[index]? = some target →
        types[index]? = some received → target.allows received = true) :
      Types context (.call span (some found.result) name (some found) arguments) found.result
  | list {span : Span} {elements : List Expr} {types : List Ty}
      (typed : TypesAll context elements types) :
      Types context (.list span (some (Ty.ofElements types)) elements) (Ty.ofElements types)

/-- Whether expressions are annotated throughout and of the given types. -/
inductive TypesAll (context : Context) : List Expr → List Ty → Prop
  | nil : TypesAll context [] []
  | cons {expr : Expr} {others : List Expr} {ty : Ty} {types : List Ty}
      (typed : Types context expr ty) (rest : TypesAll context others types) :
      TypesAll context (expr :: others) (ty :: types)

end

theorem Types.ty_eq {context : Context} {expr : Expr} {ty : Ty} (typed : context.Types expr ty) :
    expr.ty = some ty := by
  cases typed <;> rfl

theorem TypesAll.length_eq {context : Context} {exprs : List Expr} {types : List Ty}
    (typed : context.TypesAll exprs types) : exprs.length = types.length := by
  induction exprs generalizing types with
  | nil =>
      cases typed
      rfl
  | cons expr others ih =>
      cases typed with
      | cons _ rest => exact congrArg (· + 1) (ih rest)

/-- Whether a variable with a type, an initial value, or both, is of a type. -/
inductive Initializes (context : Context) : Option Ty → Option Expr → Ty → Prop
  | given {declared ty : Ty} {initializer : Expr} (typed : context.Types initializer ty)
      (allowed : declared.allows ty = true) :
      Initializes context (some declared) (some initializer) declared
  | missing {declared : Ty} : Initializes context (some declared) none declared
  | inferred {ty : Ty} {initializer : Expr} (typed : context.Types initializer ty) :
      Initializes context none (some initializer) ty

mutual

/-- Whether a statement of a function with the given result is well typed, and the context after
it. -/
inductive Accepts : Context → Ty → Stmt → Context → Prop
  | expression {context : Context} {result ty : Ty} {span : Span} {expr : Expr}
      (typed : context.Types expr ty) : Accepts context result (.expression span expr) context
  | declaration {context : Context} {result : Ty} {span : Span} {name : String}
      {typeName : Option String} {initializer : Option Expr} {binding : Variable}
      {table : Table String Variable} {locals : List (Table String Variable)}
      (inside : context.locals = table :: locals) (fresh : table.find? name = none)
      (known : ∀ text, typeName = some text → (Ty.ofName? text).isSome = true)
      (initial : context.Initializes (typeName.bind Ty.ofName?) initializer binding.ty) :
      Accepts context result (.declaration span name typeName initializer (some binding))
        { context with locals := table.insert name binding :: locals }
  | assignment {context : Context} {result target ty : Ty} {span : Span} {receiver value : Expr}
      (isAccess : receiver.isAccess = true) (receiverTyped : context.Types receiver target)
      (isMutable : Checker.expectMutable receiver = .ok ())
      (valueTyped : context.Types value ty) (allowed : target.allows ty = true) :
      Accepts context result (.assignment span receiver value) context
  | branch {context thenAfter elseAfter : Context} {result ty : Ty} {span : Span}
      {condition : Expr} {thenBody elseBody : List Stmt} (typed : context.Types condition ty)
      (allowed : Ty.boolean.allows ty = true)
      (thenAccepted : AcceptsAll context.enter result thenBody thenAfter)
      (elseAccepted : AcceptsAll context.enter result elseBody elseAfter) :
      Accepts context result (.branch span condition thenBody elseBody) context
  | switch {context : Context} {result ty : Ty} {span : Span} {subject : Expr} {cases : Cases}
      (typed : context.Types subject ty) (accepted : AcceptsCases context result ty cases) :
      Accepts context result (.switch span subject cases) context
  | loop {context after : Context} {result ty : Ty} {span : Span} {condition : Expr}
      {body : List Stmt} (typed : context.Types condition ty)
      (allowed : Ty.boolean.allows ty = true)
      (accepted : AcceptsAll context.enter result body after) :
      Accepts context result (.loop span condition body) context
  | result {context : Context} {result ty : Ty} {span : Span} {value : Expr}
      (typed : context.Types value ty) (allowed : result.allows ty = true) :
      Accepts context result (.result span value) context

/-- Whether the arms of a switch on a subject of the given type are well typed. -/
inductive AcceptsCases : Context → Ty → Ty → Cases → Prop
  | default {context after : Context} {result subject : Ty} {span : Span} {body : List Stmt}
      (accepted : AcceptsAll context.enter result body after) :
      AcceptsCases context result subject (.default span body)
  | case {context after : Context} {result subject ty : Ty} {span : Span} {value : Expr}
      {body : List Stmt} {others : Cases} (typed : context.Types value ty)
      (allowed : subject.allows ty = true)
      (accepted : AcceptsAll context.enter result body after)
      (rest : AcceptsCases context result subject others) :
      AcceptsCases context result subject (.case span value body others)

/-- Whether statements are well typed one after the other, and the context after them. -/
inductive AcceptsAll : Context → Ty → List Stmt → Context → Prop
  | nil {context : Context} {result : Ty} : AcceptsAll context result [] context
  | cons {context middle after : Context} {result : Ty} {statement : Stmt} {others : List Stmt}
      (accepted : Accepts context result statement middle)
      (rest : AcceptsAll middle result others after) :
      AcceptsAll context result (statement :: others) after

end

/-- Whether the initial value of a global with the given declared type is well typed, and the type
of the global. A list in brackets has elements of the declared type. -/
inductive InitializesGlobal (context : Context) (declared : Ty) : Option Expr → Ty → Prop
  | missing : InitializesGlobal context declared none declared
  | list {span : Span} {elements : List Expr} {types : List Ty}
      (typed : context.TypesAll elements types)
      (allowed : ∀ ty ∈ types, declared.allows ty = true) :
      InitializesGlobal context declared
        (some (.list span (some (.list declared)) elements)) (.list declared)
  | given {initializer : Expr} {ty : Ty}
      (notList : ∀ span label elements, initializer ≠ .list span label elements)
      (typed : context.Types initializer ty) (allowed : declared.allows ty = true) :
      InitializesGlobal context declared (some initializer) declared

/-- The globals that a list of globals adds to those of a context. -/
inductive DeclaresGlobals : Context → List Global → Context → Prop
  | nil {context : Context} : DeclaresGlobals context [] context
  | cons {context after : Context} {global : Global} {others : List Global} {declared ty : Ty}
      (named : Ty.ofName? global.typeName = some declared)
      (initial : context.InitializesGlobal declared global.initializer ty)
      (fresh : context.globals.find? global.name = none)
      (bound : global.binding = some ⟨global.name, ty, global.isMutable⟩)
      (rest : DeclaresGlobals
        { context with
          globals := context.globals.insert global.name ⟨global.name, ty, global.isMutable⟩ }
        others after) :
      DeclaresGlobals context (global :: others) after

/-- The functions that a list of functions adds to a table. -/
inductive DeclaresFunctions :
    Table (String × Nat) Signature → List Function → Table (String × Nat) Signature → Prop
  | nil {functions : Table (String × Nat) Signature} : DeclaresFunctions functions [] functions
  | cons {functions after : Table (String × Nat) Signature} {function : Function}
      {others : List Function} {signature : Signature}
      (stated : Checker.signatureOf function = .ok signature)
      (fresh : functions.find? (function.name, function.arity) = none)
      (bound : function.binding = some signature)
      (rest : DeclaresFunctions
        (functions.insert (function.name, function.arity) signature) others after) :
      DeclaresFunctions functions (function :: others) after

/-- The table of some parameters, in which each is a variable of any type. -/
def parameterTable (parameters : List Parameter) : Table String Variable :=
  parameters.foldl (fun table parameter => table.insert parameter.name ⟨parameter.name, .any, true⟩)
    .empty

/-- Whether the body of a function is well typed in a context without local variables. -/
structure AcceptsBody (context : Context) (function : Function) (signature : Signature) : Prop where
  distinct : (function.parameters.map Parameter.name).Nodup
  body : ∃ after, AcceptsAll
    { context with locals := [parameterTable function.parameters] } signature.result
    function.body after

end Context

/-- A program that obeys the rules, with the functions and globals that it declares. -/
structure Program.WellTyped (program : Program) (context : Context) : Prop where
  locals : context.locals = []
  globals : Context.DeclaresGlobals
    ⟨Checker.nativeSignatures, .empty, [], context.permits⟩ program.globals
    ⟨Checker.nativeSignatures, context.globals, [], context.permits⟩
  functions : Context.DeclaresFunctions Checker.nativeSignatures program.functions
    context.functions
  bodies : ∀ function ∈ program.functions, ∀ signature, function.binding = some signature →
    context.AcceptsBody function signature
  main : ∃ signature, context.functions.find? (Checker.mainName, 0) = some signature ∧
    signature.result = .integer

end GradualScript
