import GradualScript.Proofs.Machine.Invariant

/-!
# Values of well-typed expressions

An expression of a type comes to a value that may be relied on to be of that type, and its names
mean at run time what they meant to the checker. The statement about calls is a hypothesis here,
since what a call runs is a parameter of evaluation.
-/

namespace GradualScript

/-- Whether the value of an expression is looked up: that of a variable, of an element of one or of
a function. -/
def Expr.looksUp : Expr → Bool
  | access .. | element .. | call .. => true
  | _ => false

namespace Context

/-- A context without its local variables. -/
def base (context : Context) : Context := { context with locals := [] }

/-- Statements declare local variables only. -/
theorem Accepts.base_eq {context after : Context} {result : Ty} {statement : Stmt}
    (accepted : Accepts context result statement after) : context.base = after.base := by
  cases accepted <;> rfl

/-- Whether a routine is what a signature promises, for calls from anywhere in a program. -/
inductive Implements (context : Context) (signature : Signature) : Routine → Prop
  | builtIn {function : Native} (stated : function.signature = signature) :
      Implements context signature (.builtIn function)
  | written {function : Function} (bound : function.binding = some signature)
      (parameters : function.parameterTypes = signature.parameters)
      (result : function.resultType = signature.result)
      (arity : function.parameters.length = signature.arity)
      (accepted : context.AcceptsBody function signature) :
      Implements context signature (.written function Arena.root)

/-- Whether the functions of a context are there at run time, and its operations may be relied on.
-/
structure Supports (context : Context) (reliance : Reliance)
    (routines : Table (String × Nat) Routine) : Prop where
  functions : context.functions.Mirrors context.Implements routines
  arity : ∀ {name arity signature}, context.functions.find? (name, arity) = some signature →
    signature.arity = arity
  permits : ∀ {operator ty}, context.permits operator ty → reliance.permits operator ty

end Context

namespace Run

theorem bind_get {α : Type} (next : Machine → Run α) (machine : Machine) :
    (get >>= next) machine = next machine machine :=
  rfl

theorem bind_ofExcept {α β : Type} {outcome : Except Halt β} {result : β}
    (made : outcome = .ok result) (next : β → Run α) (machine : Machine) :
    (ofExcept outcome >>= next) machine = next result machine := by
  rw [made]
  rfl

variable {expr : Expr} {value : Value}

theorem enforce_eq_pure {tested : Option Ty}
    (passes : ∀ ty, tested = some ty → expr.ty = some .any → value.fits ty = true) :
    enforce expr tested value = pure () := by
  unfold enforce
  split
  · rename_i ty
    rw [if_neg]
    rintro unfit
    simp only [Bool.and_eq_true, decide_eq_true_eq, Bool.not_eq_true'] at unfit
    rw [passes ty rfl unfit.1] at unfit
    cases unfit.2
  · rfl

theorem enforce_eq_report {ty : Ty} (deferred : expr.ty = some .any)
    (unfit : value.fits ty = false) :
    enforce expr (some ty) value = report (value.mismatch ty.name) expr.start := by
  simp [enforce, deferred, unfit]

end Run

namespace Recording.Ready

variable {reliance : Reliance} {routines : Table (String × Nat) Routine}
  {tables : List (Table String Variable)} {recording : Recording}

theorem noted (ready : recording.Ready reliance routines tables) {moment : Moment}
    (sound : moment.Sound reliance) (orderly : Orderly (moment :: recording.moments)) :
    Ready reliance routines tables { recording with moments := moment :: recording.moments } :=
  ⟨ready.sound.noted sound, orderly, ready.shows⟩

/-- A name means a variable of the type that it was declared with. -/
theorem cellAt (ready : recording.Ready reliance routines tables) {name : String}
    {found : Variable} (known : Table.findIn tables name = some found) (position : Position) :
    ∃ cell, Run.cellAt name position recording.machine = .ok cell recording.machine ∧
      reliance.Stores found cell := by
  rcases ready.sound.cells.findVariable ready.shows known with ⟨cell, result, stores⟩
  refine ⟨cell, ?_, stores⟩
  rw [Run.cellAt, Run.bind_get, Run.bind_ofExcept result]
  rfl

/-- A name and a number of arguments mean the same function everywhere. -/
theorem findFunction (ready : recording.Ready reliance routines tables) (name : String)
    (arity : Nat) :
    recording.machine.arena.findFunction recording.machine.current name arity =
      .ok (routines.find? (name, arity)) := by
  rcases ready.sound.cells.shows ready.shows with ⟨_, _, shown⟩
  exact shown.findFunction ready.sound.functions name arity

theorem variableType (ready : recording.Ready reliance routines tables) {name : String}
    {found : Variable} (known : Table.findIn tables name = some found) :
    recording.variableType name = some found.ty := by
  simp only [Recording.variableType, ready.shows.findVariable name, known, Option.map_some]

end Recording.Ready

namespace Recorded

variable {α : Type} {reliance : Reliance} {routines : Table (String × Nat) Routine}
  {tables : List (Table String Variable)}

theorem Ends.perform {run : Run α} {before : Recording} {value : α}
    {done : α → Recording → Prop} {stopped : Halt → Recording → Prop}
    (result : run before.machine = .ok value before.machine) (holds : done value before) :
    (Recorded.perform run).Ends before done stopped := by
  simp only [Ends, Recorded.perform, result]
  exact holds

namespace Computes

theorem ofCause {result : Except Cause α} {known : α → Prop} (gives : Value.Gives result known)
    (position : Position) :
    Computes reliance routines tables (Recorded.perform (Run.ofCause position result)) known := by
  intro before ready
  cases result with
  | ok value => exact ⟨.refl before, ready, gives⟩
  | error cause => exact ready.stops gives.1

theorem cellAt {name : String} {found : Variable} (known : Table.findIn tables name = some found)
    (position : Position) :
    Computes reliance routines tables (Recorded.perform (Run.cellAt name position))
      (reliance.Stores found) := by
  intro before ready
  rcases ready.cellAt known position with ⟨cell, result, stores⟩
  exact .perform result ⟨.refl before, ready, stores⟩

/-- A value is noted with what is known of it. -/
theorem valuing_known {recorded : Recorded Value} {expr : Expr} {ty : Ty} {known : Value → Prop}
    (typed : expr.ty = some ty) (holds : ∀ value, known value → reliance.holds value ty)
    (computes : Computes reliance routines tables recorded known) :
    Computes reliance routines tables (Recorded.valuing expr recorded) known := by
  refine computes.bind fun value isKnown before ready => ?_
  refine ⟨⟨rfl, rfl, rfl, rfl⟩, ready.noted ⟨?_, ready.sound.cells⟩ ?_, isKnown⟩
  · intro other otherValue otherType event otherTyped
    cases event
    rw [typed] at otherTyped
    cases otherTyped
    exact holds value isKnown
  · apply ready.orderly.cons_of_not_offered
    intro _ _ _ _ event
    cases event

theorem valuing {recorded : Recorded Value} {expr : Expr} {ty : Ty} (typed : expr.ty = some ty)
    (computes : Computes reliance routines tables recorded (reliance.holds · ty)) :
    Computes reliance routines tables (Recorded.valuing expr recorded) (reliance.holds · ty) :=
  valuing_known typed (fun _ holds => holds) computes

/-- A value of unknown type that is offered to a slot fits the type declared for it, or the run
stops there. The test goes by `tested`, which the checker left for it. -/
theorem offer {slot : Slot} {target tested : Option Ty} {expr : Expr} {value : Value}
    (notElement : slot.isElement = false) (typed : slot ≠ .declaration → target.isSome = true)
    (stated : ∀ ty, target = some ty → tested = some ty)
    (found : ∀ ty, tested = some ty → target = some ty ∨ expr.ty = some ty) :
    Computes reliance routines tables
      (do
        note (.offered slot target expr value)
        perform (Run.enforce expr tested value))
      fun _ => ∀ ty, tested = some ty → expr.ty = some .any → value.fits ty = true := by
  intro before ready
  have sound : Moment.Sound reliance
      ⟨.offered slot target expr value, before.machine, before.declared⟩ := by
    refine ⟨?_, ready.sound.cells⟩
    intro _ _ _ event
    cases event
  by_cases passes : ∀ ty, tested = some ty → expr.ty = some .any → value.fits ty = true
  · rw [Run.enforce_eq_pure passes]
    refine ⟨⟨rfl, rfl, rfl, rfl⟩, ready.noted sound (ready.orderly.cons ⟨?_, ?_⟩ ?_), passes⟩
    · intro _ _ _ _ event notDeclaration
      cases event
      exact typed notDeclaration
    · intro _ ty _ _ event _ deferred
      cases event
      exact passes ty (stated ty rfl) deferred
    · intro _ _ _ _ _ event
      cases event
      cases notElement
  · simp only [Classical.not_forall, Bool.not_eq_true] at passes
    rcases passes with ⟨ty, isTested, deferred, unfit⟩
    have isTarget : target = some ty := by
      rcases found ty isTested with isTarget | isAny
      · exact isTarget
      · rw [deferred] at isAny
        cases isAny
        rw [value.fits_any] at unfit
        cases unfit
    subst isTarget isTested
    rw [Run.enforce_eq_report deferred unfit]
    exact ⟨⟨rfl, rfl, rfl, .refl _ _⟩, ready.sound.noted sound,
      .misfit ready.orderly rfl notElement deferred unfit, rfl⟩

end Computes

theorem Computes.offerArgument (target : Option Ty) (argument : Expr) (value : Value) :
    Computes reliance routines tables
      (do
        Recorded.offerArgument target argument value
        perform (Run.enforce argument target value))
      fun _ => True := by
  cases target with
  | none => exact .pure trivial
  | some ty =>
      simp only [Recorded.offerArgument]
      exact (offer rfl (fun _ => rfl) (fun _ same => same) fun _ same => .inl same).mono
        fun _ _ => trivial

/-- Whether calls of known functions give values of the types that the functions state. Nothing is
asked of the arguments, since parameters are of any type. -/
def Caller.Sound (reliance : Reliance) (routines : Table (String × Nat) Routine) (context : Context)
    (call : Caller) : Prop :=
  ∀ (locals : List (Table String Variable)) (name : String) (arguments : List Value)
    (position : Option Position) (signature : Signature),
    context.functions.find? (name, arguments.length) = some signature →
      Computes reliance routines (locals ++ [context.globals]) (call name arguments position)
        (reliance.holds · signature.result)

section

variable {context : Context} {call : Caller}

/-- What an operation on values of known types gives. -/
theorem apply_gives_holds {operator : Operator} {left right : Value} {leftType rightType ty : Ty}
    (leftHolds : reliance.holds left leftType) (rightHolds : reliance.holds right rightType)
    (operation : Ty.ofOperation? operator leftType rightType = some ty)
    (permitted : reliance.permits operator ty) :
    Value.Gives (Value.apply operator left right) (reliance.holds · ty) :=
  (Value.apply_gives operator left right).and_ok fun _ made =>
    reliance.applied leftHolds rightHolds operation permitted made

/-- What is found at an index of a value of a known type. -/
theorem elementAt_gives_holds {value : Value} {ty element : Ty} (holds : reliance.holds value ty)
    (elements : ty.element? = some element) (index : Int64) :
    Value.Gives (value.elementAt index) (reliance.holds · element) := by
  refine (Value.elementAt_gives value index).mono ?_
  rintro found ⟨values, rfl, member⟩
  cases ty with
  | list inner =>
      cases elements
      exact reliance.element holds found member
  | any =>
      cases elements
      exact reliance.any found
  | _ => cases elements

/-- A call knows the declared types of its parameters. -/
theorem parameterTypes_eq {recording : Recording} {name : String} {arity : Nat}
    {signature : Signature} (supports : context.Supports reliance routines)
    (ready : recording.Ready reliance routines tables)
    (known : context.functions.find? (name, arity) = some signature) :
    recording.parameterTypes name arity = signature.parameters := by
  rcases supports.functions.find?_some known with ⟨routine, found, implements⟩
  simp only [Recording.parameterTypes, ready.findFunction name arity, found]
  cases implements with
  | builtIn stated => exact congrArg Signature.parameters stated
  | written _ parameters _ _ _ => exact parameters

mutual

/-- An expression of a type comes to a value that may be relied on to be of that type. -/
theorem evaluate_computes (supports : context.base.Supports reliance routines)
    (calls : call.Sound reliance routines context.base) {ty : Ty} (expr : Expr)
    (typed : context.Types expr ty) :
    Computes reliance routines context.tables (evaluate call expr) (reliance.holds · ty) := by
  cases expr with
  | literal span label value =>
      cases typed
      simp only [evaluate]
      exact .valuing rfl (.pure (reliance.literal value))
  | group span label inner =>
      cases typed with
      | group _ innerTyped =>
          simp only [evaluate]
          exact .valuing rfl (evaluate_computes supports calls inner innerTyped)
  | binary span label operator left right =>
      cases typed with
      | binary leftTyped rightTyped operation permitted =>
          simp only [evaluate]
          refine .valuing rfl ?_
          refine (evaluate_computes supports calls left leftTyped).bind ?_
          intro leftValue leftHolds
          refine .ite (fun logical => ?_) fun _ => ?_
          · refine (Computes.ofCause leftValue.asBoolean_gives _).bind ?_
            rintro truth rfl
            refine .ite (fun _ => .pure ?_) fun _ => ?_
            · rw [Ty.eq_boolean_of_isLogical logical operation]
              exact reliance.fits rfl
            · refine (evaluate_computes supports calls right rightTyped).bind fun _ rightHolds => ?_
              exact .ofCause (apply_gives_holds leftHolds rightHolds operation
                (supports.permits permitted)) _
          · refine (evaluate_computes supports calls right rightTyped).bind fun _ rightHolds => ?_
            exact .ofCause (apply_gives_holds leftHolds rightHolds operation
              (supports.permits permitted)) _
  | access span label name binding =>
      cases typed with
      | access known =>
          simp only [evaluate]
          exact .valuing rfl ((Computes.cellAt known _).bind fun _ stores => .pure stores.1)
  | element span label name binding offset =>
      cases typed with
      | element known offsetTyped _ elements =>
          simp only [evaluate]
          refine .valuing rfl ?_
          refine (evaluate_computes supports calls offset offsetTyped).bind fun index _ => ?_
          refine (Computes.ofCause index.asInteger_gives _).bind fun index _ => ?_
          refine (Computes.cellAt known _).bind fun cell stores => ?_
          exact .ofCause (elementAt_gives_holds stores.1 elements index) _
  | call span label name binding arguments =>
      cases typed with
      | call argumentsTyped known _ =>
          simp only [evaluate]
          refine .valuing rfl (.after_get fun before ready => ?_)
          rw [parameterTypes_eq supports ready known]
          refine (evaluateArguments_computes supports calls _ arguments argumentsTyped).bind ?_
          rintro values ⟨sameLength, _⟩
          rw [← sameLength] at known
          exact calls context.locals name values _ _ known
  | list span label elements =>
      cases typed with
      | list elementsTyped =>
          simp only [evaluate]
          refine .valuing rfl ?_
          refine (evaluateArguments_computes supports calls [] elements elementsTyped).bind ?_
          rintro values ⟨_, each⟩
          exact .pure (reliance.listed each)

theorem evaluateArguments_computes (supports : context.base.Supports reliance routines)
    (calls : call.Sound reliance routines context.base) {types : List Ty} (targets : List Ty)
    (arguments : List Expr) (typed : context.TypesAll arguments types) :
    Computes reliance routines context.tables (evaluateArguments call targets targets arguments)
      fun values => values.length = arguments.length ∧
        ∀ value ∈ values, ∃ ty ∈ types, reliance.holds value ty := by
  cases arguments with
  | nil =>
      simp only [evaluateArguments]
      exact .pure ⟨rfl, by simp⟩
  | cons argument others =>
      cases typed with
      | cons argumentTyped rest =>
          simp only [evaluateArguments]
          refine (evaluate_computes supports calls argument argumentTyped).bind
            fun value holds => ?_
          rw [← bind_assoc]
          refine (Computes.offerArgument targets.head? argument value).bind fun _ _ => ?_
          refine (evaluateArguments_computes supports calls targets.tail others rest).bind ?_
          rintro values ⟨sameLength, each⟩
          refine .pure ⟨congrArg (· + 1) sameLength, ?_⟩
          intro other member
          rcases List.mem_cons.mp member with rfl | later
          · exact ⟨_, List.mem_cons_self, holds⟩
          · rcases each other later with ⟨ty, among, otherHolds⟩
            exact ⟨ty, List.mem_cons_of_mem _ among, otherHolds⟩

end

/-! ## Where nil comes from -/

variable {β : Type}

/-- Whether something comes to a value of which something is known, if it comes to one. -/
def Yields (recorded : Recorded α) (known : α → Prop) : Prop :=
  ∀ before, recorded.Ends before (fun value _ => known value) fun _ _ => True

namespace Yields

variable {recorded : Recorded α} {known : α → Prop}

theorem of_forall (holds : ∀ value, known value) : Yields recorded known := by
  intro before
  unfold Ends
  cases recorded before with
  | ok value after => exact holds value
  | error halt after => trivial

theorem mono {weaker : α → Prop} (yields : Yields recorded known)
    (implies : ∀ value, known value → weaker value) : Yields recorded weaker :=
  fun before => (yields before).mono (fun value _ => implies value) fun _ _ _ => trivial

theorem bind {next : α → Recorded β} {knownNext : β → Prop} (yields : Yields recorded known)
    (rest : ∀ value, known value → Yields (next value) knownNext) :
    Yields (recorded >>= next) knownNext :=
  fun before => (yields before).bind fun value after holds => rest value holds after

theorem ite {condition : Prop} [Decidable condition] {other : Recorded α}
    (whenTrue : Yields recorded known) (whenFalse : Yields other known) :
    Yields (if condition then recorded else other) known := by
  split
  · exact whenTrue
  · exact whenFalse

theorem valuing {recorded : Recorded Value} {known : Value → Prop} (yields : Yields recorded known)
    (expr : Expr) : Yields (Recorded.valuing expr recorded) known :=
  yields.bind fun _ holds _ => holds

theorem ofCause {result : Except Cause α} (gives : Value.Gives result known) (position : Position) :
    Yields (perform (Run.ofCause position result)) known := by
  intro before
  cases result with
  | ok value => exact gives
  | error cause => trivial

end Yields

theorem Computes.and_yields {recorded : Recorded α} {known other : α → Prop}
    (computes : Computes reliance routines tables recorded known)
    (yields : Yields recorded other) :
    Computes reliance routines tables recorded fun value => known value ∧ other value := by
  intro before ready
  refine ((computes before ready).and (yields before)).mono ?_ fun _ _ stops => stops
  rintro value after ⟨⟨keeps, readyAfter, holds⟩, also⟩
  exact ⟨keeps, readyAfter, holds, also⟩

theorem binary_yields (span : Span) (label : Option Ty) (operator : Operator) (left right : Expr) :
    Yields (evaluate call (.binary span label operator left right)) (· ≠ .nil) := by
  have applied (leftValue : Value) : Yields
      (do
        let rightValue ← evaluate call right
        perform (Run.ofCause span.start (Value.apply operator leftValue rightValue)))
      (· ≠ .nil) :=
    (Yields.of_forall fun _ => trivial).bind fun _ _ => .ofCause (Value.apply_gives _ _ _) _
  simp only [evaluate]
  refine .valuing ?_ _
  refine (Yields.of_forall fun _ => trivial).bind fun leftValue _ => ?_
  refine .ite ((Yields.of_forall fun _ => trivial).bind fun truth _ => ?_) (applied leftValue)
  exact .ite (fun _ => Value.noConfusion) (applied (.boolean truth))

/-- Nil is the value of a variable, of an element or of a call, or of an expression that can have no
other value. -/
theorem evaluate_yields {expr : Expr} {ty : Ty} (typed : context.Types expr ty) :
    Yields (evaluate call expr) fun value => value = .nil → expr.looksUp = true ∨ ty = .nil := by
  cases typed with
  | @literal span literal =>
      simp only [evaluate]
      refine Yields.valuing (fun _ => ?_) _
      intro isNil
      cases literal with
      | nil => exact .inr rfl
      | _ => cases isNil
  | @group span inner ty isBinary typed =>
      cases inner with
      | binary span label operator left right =>
          rw [evaluate]
          exact .valuing ((binary_yields _ _ _ _ _).mono fun _ some isNil => absurd isNil some) _
      | _ => cases isBinary
  | binary => exact (binary_yields _ _ _ _ _).mono fun _ some isNil => absurd isNil some
  | access | element | call => exact .of_forall fun _ _ => .inl rfl
  | list =>
      simp only [evaluate]
      refine .valuing ((Yields.of_forall fun _ => trivial).bind fun _ _ _ => ?_) _
      exact Value.noConfusion

end

end Recorded

end GradualScript
