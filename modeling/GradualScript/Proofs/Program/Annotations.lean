import GradualScript.Proofs.Typing.Judgement

/-!
# Trees without annotations

A checked tree says of each expression what type it has, and of each name what it refers to. Without
this it is again the tree that was read, as far as a machine is concerned.

Of the annotations of a well-typed tree, the ones that matter when a call is made are those of the
called functions. `Expr.Resolved` says of a tree that these are the signatures of known functions.
-/

namespace GradualScript

/-- What checking found out, if it is to be kept. -/
def kept {α : Type} : Bool → Option α → Option α
  | true, found => found
  | false, _ => none

mutual

/-- An expression, with its annotations if they are to be kept. -/
def Expr.strip (keep : Bool) : Expr → Expr
  | .literal span ty value => .literal span (kept keep ty) value
  | .group span ty inner => .group span (kept keep ty) (inner.strip keep)
  | .binary span ty operator left right =>
    .binary span (kept keep ty) operator (left.strip keep) (right.strip keep)
  | .access span ty name binding => .access span (kept keep ty) name (kept keep binding)
  | .element span ty name binding offset =>
    .element span (kept keep ty) name (kept keep binding) (offset.strip keep)
  | .call span ty name binding arguments =>
    .call span (kept keep ty) name (kept keep binding) (Expr.stripAll keep arguments)
  | .list span ty elements => .list span (kept keep ty) (Expr.stripAll keep elements)

/-- Expressions, with their annotations if they are to be kept. -/
def Expr.stripAll (keep : Bool) : List Expr → List Expr
  | [] => []
  | expr :: others => expr.strip keep :: Expr.stripAll keep others

end

mutual

/-- A statement, with its annotations if they are to be kept. -/
def Stmt.strip (keep : Bool) : Stmt → Stmt
  | .expression span expr => .expression span (expr.strip keep)
  | .declaration span name typeName initializer binding =>
    .declaration span name typeName (initializer.map (Expr.strip keep)) (kept keep binding)
  | .assignment span receiver value =>
    .assignment span (receiver.strip keep) (value.strip keep)
  | .branch span condition thenBody elseBody =>
    .branch span (condition.strip keep) (Stmt.stripAll keep thenBody)
      (Stmt.stripAll keep elseBody)
  | .switch span subject cases => .switch span (subject.strip keep) (cases.strip keep)
  | .loop span condition body => .loop span (condition.strip keep) (Stmt.stripAll keep body)
  | .result span value => .result span (value.strip keep)

/-- The arms of a switch, with their annotations if they are to be kept. -/
def Cases.strip (keep : Bool) : Cases → Cases
  | .default span body => .default span (Stmt.stripAll keep body)
  | .case span value body others =>
    .case span (value.strip keep) (Stmt.stripAll keep body) (others.strip keep)

/-- Statements, with their annotations if they are to be kept. -/
def Stmt.stripAll (keep : Bool) : List Stmt → List Stmt
  | [] => []
  | statement :: others => statement.strip keep :: Stmt.stripAll keep others

end

/-- A global, with its annotations if they are to be kept. -/
def Global.strip (keep : Bool) (global : Global) : Global :=
  { global with
    initializer := global.initializer.map (Expr.strip keep)
    binding := kept keep global.binding }

/-- A function, with its annotations if they are to be kept. -/
def Function.strip (keep : Bool) (function : Function) : Function :=
  { function with
    body := Stmt.stripAll keep function.body
    binding := kept keep function.binding }

@[simp] theorem Function.span_strip (keep : Bool) (function : Function) :
    (function.strip keep).span = function.span := rfl

@[simp] theorem Function.parameters_strip (keep : Bool) (function : Function) :
    (function.strip keep).parameters = function.parameters := rfl

/-- A program, with its annotations if they are to be kept. -/
def Program.strip (keep : Bool) (program : Program) : Program :=
  ⟨program.globals.map (Global.strip keep), program.functions.map (Function.strip keep)⟩

/-- A program without annotations. -/
def Program.bare (program : Program) : Program := program.strip false

mutual

theorem Expr.strip_true (expr : Expr) : expr.strip true = expr := by
  cases expr with
  | literal span ty value => rfl
  | group span ty inner => simp only [Expr.strip, kept, inner.strip_true]
  | binary span ty operator left right =>
      simp only [Expr.strip, kept, left.strip_true, right.strip_true]
  | access span ty name binding => rfl
  | element span ty name binding offset => simp only [Expr.strip, kept, offset.strip_true]
  | call span ty name binding arguments =>
      simp only [Expr.strip, kept, Expr.stripAll_true arguments]
  | list span ty elements => simp only [Expr.strip, kept, Expr.stripAll_true elements]

theorem Expr.stripAll_true (exprs : List Expr) : Expr.stripAll true exprs = exprs := by
  cases exprs with
  | nil => rfl
  | cons expr others => simp only [Expr.stripAll, expr.strip_true, Expr.stripAll_true others]

end

theorem Expr.map_strip_true (initializer : Option Expr) :
    initializer.map (Expr.strip true) = initializer := by
  cases initializer with
  | none => rfl
  | some initializer => simp only [Option.map_some, initializer.strip_true]

mutual

theorem Stmt.strip_true (statement : Stmt) : statement.strip true = statement := by
  cases statement with
  | expression span expr => simp only [Stmt.strip, expr.strip_true]
  | declaration span name typeName initializer binding =>
      simp only [Stmt.strip, kept, Expr.map_strip_true]
  | assignment span receiver value => simp only [Stmt.strip, receiver.strip_true, value.strip_true]
  | branch span condition thenBody elseBody =>
      simp only [Stmt.strip, condition.strip_true, Stmt.stripAll_true thenBody,
        Stmt.stripAll_true elseBody]
  | switch span subject cases => simp only [Stmt.strip, subject.strip_true, cases.strip_true]
  | loop span condition body =>
      simp only [Stmt.strip, condition.strip_true, Stmt.stripAll_true body]
  | result span value => simp only [Stmt.strip, value.strip_true]

theorem Cases.strip_true (cases : Cases) : cases.strip true = cases := by
  cases cases with
  | default span body => simp only [Cases.strip, Stmt.stripAll_true body]
  | case span value body others =>
      simp only [Cases.strip, value.strip_true, Stmt.stripAll_true body, others.strip_true]

theorem Stmt.stripAll_true (statements : List Stmt) :
    Stmt.stripAll true statements = statements := by
  cases statements with
  | nil => rfl
  | cons statement others =>
      simp only [Stmt.stripAll, statement.strip_true, Stmt.stripAll_true others]

end

theorem Global.strip_true (global : Global) : global.strip true = global := by
  rw [Global.strip, Expr.map_strip_true, kept]

theorem Function.strip_true (function : Function) : function.strip true = function := by
  rw [Function.strip, Stmt.stripAll_true, kept]

theorem Program.strip_true (program : Program) : program.strip true = program := by
  have globals : program.globals.map (Global.strip true) = program.globals :=
    List.map_id'' Global.strip_true program.globals
  have functions : program.functions.map (Function.strip true) = program.functions :=
    List.map_id'' Function.strip_true program.functions
  rw [Program.strip, globals, functions]

theorem Expr.start_strip (keep : Bool) (expr : Expr) : (expr.strip keep).start = expr.start := by
  cases expr <;> rfl

theorem Expr.ty_strip (keep : Bool) (expr : Expr) : (expr.strip keep).ty = kept keep expr.ty := by
  cases expr <;> rfl

/-! ## Calls of known functions -/

mutual

/-- Whether every call in an expression is annotated, if at all, with the known function of its name
and number of arguments. -/
def Expr.Resolved (functions : Table (String × Nat) Signature) : Expr → Prop
  | .literal .. | .access .. => True
  | .group _ _ inner => inner.Resolved functions
  | .binary _ _ _ left right => left.Resolved functions ∧ right.Resolved functions
  | .element _ _ _ _ offset => offset.Resolved functions
  | .call _ _ name binding arguments =>
    (∀ signature, binding = some signature →
      functions.find? (name, arguments.length) = some signature) ∧
    Expr.AllResolved functions arguments
  | .list _ _ elements => Expr.AllResolved functions elements

/-- Whether all calls in some expressions are annotated with known functions. -/
def Expr.AllResolved (functions : Table (String × Nat) Signature) : List Expr → Prop
  | [] => True
  | expr :: others => expr.Resolved functions ∧ Expr.AllResolved functions others

end

mutual

/-- Whether all calls in a statement are annotated with known functions. -/
def Stmt.Resolved (functions : Table (String × Nat) Signature) : Stmt → Prop
  | .expression _ expr => expr.Resolved functions
  | .declaration _ _ _ initializer _ =>
    ∀ value, initializer = some value → value.Resolved functions
  | .assignment _ receiver value => receiver.Resolved functions ∧ value.Resolved functions
  | .branch _ condition thenBody elseBody =>
    condition.Resolved functions ∧ Stmt.AllResolved functions thenBody ∧
      Stmt.AllResolved functions elseBody
  | .switch _ subject cases => subject.Resolved functions ∧ cases.Resolved functions
  | .loop _ condition body => condition.Resolved functions ∧ Stmt.AllResolved functions body
  | .result _ value => value.Resolved functions

/-- Whether all calls in the arms of a switch are annotated with known functions. -/
def Cases.Resolved (functions : Table (String × Nat) Signature) : Cases → Prop
  | .default _ body => Stmt.AllResolved functions body
  | .case _ value body others =>
    value.Resolved functions ∧ Stmt.AllResolved functions body ∧ others.Resolved functions

/-- Whether all calls in some statements are annotated with known functions. -/
def Stmt.AllResolved (functions : Table (String × Nat) Signature) : List Stmt → Prop
  | [] => True
  | statement :: others => statement.Resolved functions ∧ Stmt.AllResolved functions others

end

namespace Context

variable {context after : Context} {result ty : Ty}

mutual

theorem Types.resolved {expr : Expr} {ty : Ty} (typed : context.Types expr ty) :
    expr.Resolved context.functions := by
  cases expr with
  | literal span label value => trivial
  | group span label inner =>
      cases typed with
      | group _ typed => exact typed.resolved
  | binary span label operator left right =>
      cases typed with
      | binary leftTyped rightTyped _ _ => exact ⟨leftTyped.resolved, rightTyped.resolved⟩
  | access span label name binding => trivial
  | element span label name binding offset =>
      cases typed with
      | element _ offsetTyped _ _ => exact offsetTyped.resolved
  | call span label name binding arguments =>
      cases typed with
      | call typed known _ =>
          refine ⟨?_, typed.resolved⟩
          rintro signature ⟨⟩
          exact known
  | list span label elements =>
      cases typed with
      | list typed => exact typed.resolved

theorem TypesAll.resolved {exprs : List Expr} {types : List Ty}
    (typed : context.TypesAll exprs types) : Expr.AllResolved context.functions exprs := by
  cases exprs with
  | nil => trivial
  | cons expr others =>
      cases typed with
      | cons typed rest => exact ⟨typed.resolved, rest.resolved⟩

end

theorem Initializes.resolved {declared : Option Ty} {initializer : Option Expr}
    (initial : context.Initializes declared initializer ty) {value : Expr}
    (given : initializer = some value) : value.Resolved context.functions := by
  cases initial with
  | given typed _ =>
      cases given
      exact typed.resolved
  | missing => cases given
  | inferred typed =>
      cases given
      exact typed.resolved

theorem Accepts.functions_eq {statement : Stmt}
    (accepted : Accepts context result statement after) :
    after.functions = context.functions := by
  cases accepted <;> rfl

mutual

theorem Accepts.resolved {context after : Context} {statement : Stmt}
    (accepted : Accepts context result statement after) :
    statement.Resolved context.functions := by
  cases statement with
  | expression span expr =>
      cases accepted with
      | expression typed => exact typed.resolved
  | declaration span name typeName initializer binding =>
      cases accepted with
      | declaration _ _ _ initial => exact fun value given => initial.resolved given
  | assignment span receiver value =>
      cases accepted with
      | assignment _ receiverTyped _ valueTyped _ =>
          exact ⟨receiverTyped.resolved, valueTyped.resolved⟩
  | branch span condition thenBody elseBody =>
      cases accepted with
      | branch typed _ thenAccepted elseAccepted =>
          exact ⟨typed.resolved, thenAccepted.resolved, elseAccepted.resolved⟩
  | switch span subject cases =>
      cases accepted with
      | switch typed accepted => exact ⟨typed.resolved, accepted.resolved⟩
  | loop span condition body =>
      cases accepted with
      | loop typed _ accepted => exact ⟨typed.resolved, accepted.resolved⟩
  | result span value =>
      cases accepted with
      | result typed _ => exact typed.resolved

theorem AcceptsCases.resolved {context : Context} {subject : Ty} {cases : Cases}
    (accepted : AcceptsCases context result subject cases) :
    cases.Resolved context.functions := by
  cases cases with
  | default span body =>
      cases accepted with
      | default accepted => exact accepted.resolved
  | case span value body others =>
      cases accepted with
      | case typed _ accepted rest => exact ⟨typed.resolved, accepted.resolved, rest.resolved⟩

theorem AcceptsAll.resolved {context after : Context} {statements : List Stmt}
    (accepted : AcceptsAll context result statements after) :
    Stmt.AllResolved context.functions statements := by
  cases statements with
  | nil => trivial
  | cons statement others =>
      cases accepted with
      | cons accepted rest => exact ⟨accepted.resolved, accepted.functions_eq ▸ rest.resolved⟩

end

theorem AcceptsBody.resolved {function : Function} {signature : Signature}
    (accepted : context.AcceptsBody function signature) :
    Stmt.AllResolved context.functions function.body := by
  rcases accepted.body with ⟨_, accepted⟩
  exact accepted.resolved

theorem InitializesGlobal.resolved {declared : Ty} {initializer : Option Expr}
    (initial : context.InitializesGlobal declared initializer ty) {expr : Expr}
    (given : initializer = some expr) : expr.Resolved context.functions := by
  cases initial with
  | missing => cases given
  | list typed _ =>
      cases given
      exact typed.resolved
  | given _ typed _ =>
      cases given
      exact typed.resolved

/-- A list in brackets that a global starts with is annotated with the type declared for it. -/
theorem InitializesGlobal.ty_ne_any {declared : Ty} {initializer : Option Expr}
    (initial : context.InitializesGlobal declared initializer ty) {span : Span}
    {label : Option Ty} {elements : List Expr}
    (given : initializer = some (.list span label elements)) : label ≠ some .any := by
  cases initial with
  | missing => cases given
  | list _ _ =>
      cases given
      intro impossible
      cases impossible
  | given notList _ _ =>
      cases given
      exact absurd rfl (notList span label elements)

theorem DeclaresGlobals.initial {globals : List Global}
    (declares : DeclaresGlobals context globals after) {global : Global}
    (member : global ∈ globals) :
    ∃ (before : Context) (declared ty : Ty), before.functions = context.functions ∧
      before.InitializesGlobal declared global.initializer ty := by
  induction declares with
  | nil => cases member
  | cons _ initial _ _ _ ih =>
      rcases List.mem_cons.mp member with rfl | later
      · exact ⟨_, _, _, rfl, initial⟩
      · exact ih later

end Context

end GradualScript
