import GradualScript.Proofs.Machine.Frames
import GradualScript.Proofs.Script.Soundness

/-!
# Constants of a script

A machine takes every global for a variable that may be given a new value. That a constant keeps its
value is due to the check: an assignment that the check lets pass never names a constant, unless a
parameter or a local variable of the same name is in the way, and then it is that variable which
changes.
-/

namespace GradualScript

namespace Context

variable {context after : Context} {fixed : String → Prop} {hidden : List String} {result : Ty}

/-- Whether all fixed names are globals that may not be assigned to. -/
def Fixes (context : Context) (fixed : String → Prop) : Prop :=
  ∀ name, fixed name → ∃ found, context.globals.find? name = some found ∧ found.isMutable = false

/-- Whether all local variables are among some names. -/
def LocalsAmong (context : Context) (names : List String) : Prop :=
  ∀ table ∈ context.locals, ∀ name, table.contains name = true → name ∈ names

theorem LocalsAmong.enter (among : context.LocalsAmong hidden) :
    context.enter.LocalsAmong hidden := by
  intro table member name has
  rcases List.mem_cons.mp member with rfl | outer
  · cases has
  · exact among table outer name has

/-- A name that may be assigned to and that is fixed means a local variable. -/
theorem mem_of_lookup (fixes : context.Fixes fixed) (among : context.LocalsAmong hidden)
    {name : String} {found : Variable} (known : context.lookup name = some found)
    (isMutable : found.isMutable = true) (isFixed : fixed name) : name ∈ hidden := by
  rcases fixes name isFixed with ⟨global, isGlobal, constant⟩
  rw [lookup, Table.findIn, tables, List.findSome?_append] at known
  cases inner : context.locals.findSome? (·.find? name) with
  | none =>
      rw [inner, Option.none_or, List.findSome?_singleton, isGlobal] at known
      cases known
      rw [constant] at isMutable
      cases isMutable
  | some other =>
      rcases List.exists_of_findSome?_eq_some inner with ⟨table, member, has⟩
      exact among table member name (Option.isSome_iff_exists.mpr ⟨other, has⟩)

/-- An assignment that passes its check does not name a constant. -/
theorem assigned_mem (fixes : context.Fixes fixed) (among : context.LocalsAmong hidden)
    {receiver : Expr} {ty : Ty} (typed : context.Types receiver ty)
    (isMutable : Checker.expectMutable receiver = .ok ()) {name : String}
    (assigned : receiver.assigned? = some name) (isFixed : fixed name) : name ∈ hidden := by
  cases typed with
  | @access span other found known =>
      cases assigned
      refine mem_of_lookup fixes among known ?_ isFixed
      simp only [Checker.expectMutable] at isMutable
      split at isMutable
      · assumption
      · cases isMutable
  | @element span other found offset offsetType ty known offsetTyped whole element =>
      cases assigned
      refine mem_of_lookup fixes among known ?_ isFixed
      simp only [Checker.expectMutable] at isMutable
      split at isMutable
      · assumption
      · cases isMutable
  | _ => cases assigned

theorem Accepts.globals_eq {statement : Stmt} (accepted : Accepts context result statement after) :
    after.globals = context.globals := by
  cases accepted <;> rfl

/-- A statement adds the name that it declares to the local variables. -/
theorem Accepts.localsAmong {statement : Stmt} (accepted : Accepts context result statement after)
    (among : context.LocalsAmong hidden) : after.LocalsAmong (statement.declares ++ hidden) := by
  cases accepted with
  | @declaration _ _ _ name _ _ binding innermost locals inside _ _ _ =>
      intro table member other has
      rcases List.mem_cons.mp member with rfl | outer
      · rcases Table.contains_insert.mp has with had | rfl
        · exact List.mem_cons_of_mem _ (among innermost (inside ▸ List.mem_cons_self) other had)
        · exact List.mem_cons_self
      · exact List.mem_cons_of_mem _
          (among table (inside ▸ List.mem_cons_of_mem _ outer) other has)
  | _ => exact among

mutual

/-- A statement that passes its check spares constants. -/
theorem Accepts.spares {context after : Context} {hidden : List String} (statement : Stmt)
    (accepted : Accepts context result statement after) (fixes : context.Fixes fixed)
    (among : context.LocalsAmong hidden) : statement.Spares fixed hidden := by
  cases statement with
  | expression span expr => trivial
  | declaration span name typeName initializer binding => trivial
  | assignment span receiver value =>
      cases accepted with
      | assignment _ typed isMutable _ _ =>
          exact fun _ assigned isFixed => assigned_mem fixes among typed isMutable assigned isFixed
  | branch span test thenBody elseBody =>
      cases accepted with
      | branch _ _ thenAccepted elseAccepted =>
          exact ⟨AcceptsAll.spares thenBody thenAccepted fixes among.enter,
            AcceptsAll.spares elseBody elseAccepted fixes among.enter⟩
  | switch span subject cases =>
      cases accepted with
      | switch _ casesAccepted => exact AcceptsCases.spares cases casesAccepted fixes among
  | loop span test body =>
      cases accepted with
      | loop _ _ bodyAccepted => exact AcceptsAll.spares body bodyAccepted fixes among.enter
  | result span value => trivial

theorem AcceptsCases.spares {context : Context} {hidden : List String} {subject : Ty}
    (cases : Cases) (accepted : AcceptsCases context result subject cases)
    (fixes : context.Fixes fixed) (among : context.LocalsAmong hidden) :
    cases.Spares fixed hidden := by
  cases cases with
  | default span body =>
      cases accepted with
      | default bodyAccepted => exact AcceptsAll.spares body bodyAccepted fixes among.enter
  | case span value body others =>
      cases accepted with
      | case _ _ bodyAccepted rest =>
          exact ⟨AcceptsAll.spares body bodyAccepted fixes among.enter,
            AcceptsCases.spares others rest fixes among⟩

theorem AcceptsAll.spares {context after : Context} {hidden : List String}
    (statements : List Stmt) (accepted : AcceptsAll context result statements after)
    (fixes : context.Fixes fixed) (among : context.LocalsAmong hidden) :
    Stmt.AllSpare fixed hidden statements := by
  cases statements with
  | nil => trivial
  | cons statement others =>
      cases accepted with
      | cons first rest =>
          refine ⟨Accepts.spares statement first fixes among, ?_⟩
          refine AcceptsAll.spares others rest ?_ (first.localsAmong among)
          rw [Fixes, first.globals_eq]
          exact fixes

end

theorem contains_parameters {parameters : List Parameter} {table : Table String Variable}
    {name : String}
    (has : (parameters.foldl (fun table parameter =>
      table.insert parameter.name ⟨parameter.name, .any, true⟩) table).contains name = true) :
    table.contains name = true ∨ name ∈ parameters.map Parameter.name := by
  induction parameters generalizing table with
  | nil => exact .inl has
  | cons parameter parameters ih =>
      rcases ih has with early | late
      · rcases Table.contains_insert.mp early with had | rfl
        · exact .inl had
        · exact .inr List.mem_cons_self
      · exact .inr (List.mem_cons_of_mem _ late)

/-- A function that passes its check spares constants. -/
theorem AcceptsBody.spares {function : Function} {signature : Signature}
    (accepted : context.AcceptsBody function signature) (fixes : context.Fixes fixed) :
    (Routine.written function Arena.root).Spares fixed function.arity := by
  rcases accepted.body with ⟨after, bodyAccepted⟩
  refine AcceptsAll.spares function.body bodyAccepted fixes ?_
  intro table member name has
  rw [List.mem_singleton.mp member] at has
  rw [Function.arity, List.take_length]
  exact (contains_parameters has).resolve_left Bool.false_ne_true

/-- A global stays what it was declared as. -/
theorem DeclaresGlobals.kept {globals : List Global}
    (declares : DeclaresGlobals context globals after) {name : String} {found : Variable}
    (known : context.globals.find? name = some found) :
    after.globals.find? name = some found := by
  induction declares with
  | nil => exact known
  | @cons context after global others declared ty _ _ fresh _ _ ih =>
      apply ih
      have different : global.name ≠ name := by
        rintro rfl
        rw [fresh] at known
        cases known
      rw [Table.find?_insert, if_neg different]
      exact known

/-- A global has a name of its own, and stays what it was declared as. -/
theorem DeclaresGlobals.declared {earlier later : List Global} {global : Global}
    (declares : DeclaresGlobals context (earlier ++ global :: later) after) :
    context.globals.find? global.name = none ∧ global.name ∉ earlier.map Global.name ∧
      ∃ ty, after.globals.find? global.name = some ⟨global.name, ty, global.isMutable⟩ := by
  induction earlier generalizing context with
  | nil =>
      cases declares with
      | @cons _ _ _ _ declared ty _ _ fresh _ rest =>
          refine ⟨fresh, by simp, ty, rest.kept ?_⟩
          rw [Table.find?_insert, if_pos rfl]
  | cons first earlier ih =>
      cases declares with
      | @cons _ _ _ _ declared ty _ _ fresh _ rest =>
          rcases ih rest with ⟨stillFresh, notEarlier, found⟩
          rw [Table.find?_insert] at stillFresh
          split at stillFresh
          · cases stillFresh
          · rename_i different
            refine ⟨stillFresh, ?_, found⟩
            rw [List.map_cons, List.mem_cons, not_or]
            exact ⟨Ne.symm different, notEarlier⟩

theorem DeclaresFunctions.exists_signature {before after : Table (String × Nat) Signature}
    {functions : List Function} (declares : DeclaresFunctions before functions after) :
    ∀ function ∈ functions, ∃ signature, function.binding = some signature := by
  induction declares with
  | nil => simp
  | cons _ _ bound _ ih => exact List.forall_mem_cons.mpr ⟨⟨_, bound⟩, ih⟩

end Context

theorem Program.WellTyped.spares {program : Program} {context : Context} {fixed : String → Prop}
    (wellTyped : program.WellTyped context) (fixes : context.Fixes fixed) :
    ∀ function ∈ program.functions,
      (Routine.written function Arena.root).Spares fixed function.arity := by
  intro function member
  rcases wellTyped.functions.exists_signature function member with ⟨signature, bound⟩
  exact (wellTyped.bodies function member signature bound).spares fixes

theorem Machine.initial_poised (limit : Option Nat) :
    (Machine.initial limit).Poised .empty [] := by
  refine ⟨Machine.initial_wellFormed limit, .ofFunctions (.ofList ?_ Native.all), ?_, by simp⟩
  · exact fun _ => trivial
  · intro _ _ impossible
    cases impossible

namespace Recorded

variable {constants : Table String Cell} {last : List String}

theorem Disciplined.offerGlobal {added : String → Prop} {hidden : List String} (name : String)
    (target : Option Ty) (initializer : Expr) (value : Value) :
    Disciplined constants added hidden hidden
      (Recorded.offerGlobal name target initializer value) := by
  have elements (index : Nat) (elements : List Expr) (values : List Value) :
      Disciplined constants added hidden hidden
        (offerElements name target index elements values) := by
    induction elements generalizing index values with
    | nil => exact .pure ()
    | cons element elements ih =>
        cases values with
        | nil => exact .pure ()
        | cons value values => exact (Disciplined.note _).bind fun _ => ih _ _
  unfold Recorded.offerGlobal
  split
  · exact elements 0 _ _
  · exact .note _

/-- Globals are added to the root and to no other scope. -/
theorem setUpGlobals_settles (budget : Nat) (globals : List Global) (before : Recording)
    (poised : before.machine.Poised constants []) (atRoot : before.machine.current = Arena.root) :
    Settles constants (· ∈ globals.map Global.name) [] before (setUpGlobals budget globals) := by
  induction globals generalizing before with
  | nil => exact Disciplined.pure () before poised
  | cons global others ih =>
      simp only [setUpGlobals]
      have initial := initialValue_disciplined (call_disciplined constants budget) []
        (fun expr value => .offerGlobal global.name (Ty.ofName? global.typeName) expr value)
        global.binding global.initializer before poised
      refine (initial.mono fun _ impossible => impossible.elim).bind ?_
      intro value middle advances poisedMiddle
      have atRootMiddle := advances.current.trans atRoot
      have defined := define_settles poisedMiddle global.name global.binding value
        global.span.start
      rw [atRootMiddle] at defined
      refine (defined.mono ?_).bind ?_
      · rintro _ rfl
        exact List.mem_cons_self
      · intro _ after later poisedAfter
        have rest := ih after (poisedAfter.weaken (by simp)) (later.current.trans atRootMiddle)
        exact rest.mono fun _ => List.mem_cons_of_mem _

theorem setUpGlobals_append (budget : Nat) (earlier later : List Global) :
    setUpGlobals budget (earlier ++ later) =
      setUpGlobals budget earlier >>= fun _ => setUpGlobals budget later := by
  induction earlier with
  | nil => rfl
  | cons global earlier ih => simp only [List.cons_append, setUpGlobals, ih, bind_assoc]

/-- The functions of a program are added to the root, where they change no variable. -/
theorem setUpFunctions_ends (functions : List Function) (before : Recording)
    (poised : before.machine.Poised constants [])
    (spares : ∀ function ∈ functions, (Routine.written function Arena.root).Spares
      (fun name => constants.contains name = true) function.arity) :
    (perform (Run.setUpFunctions functions)).Ends before
      (fun _ after => after.machine.Poised constants [] ∧ after.moments = before.moments)
      (fun _ after => after.machine.arena.Holds constants ∧ after.moments = before.moments) := by
  induction functions generalizing before with
  | nil => exact ⟨poised, rfl⟩
  | cons function others ih =>
      let routine := Routine.written function Arena.root
      cases added : before.machine.arena.addFunction Arena.root function.name function.arity
          routine function.span.start with
      | error halt =>
          have failed : Run.setUpFunctions (function :: others) before.machine =
              .error halt before.machine := by
            rw [Run.setUpFunctions, Run.bind_get, added]
            rfl
          rw [Ends, perform, failed]
          exact ⟨poised.holds, rfl⟩
      | ok arena =>
          have stepped : Run.setUpFunctions (function :: others) before.machine =
              Run.setUpFunctions others { before.machine with arena } := by
            rw [Run.setUpFunctions, Run.bind_get, Run.bind_ofExcept added]
            rfl
          rcases Arena.addFunction_eq_ok_iff.mp added with ⟨_, _, _, rfl⟩
          have poisedNext : Machine.Poised constants [] { before.machine with
              arena := before.machine.arena.putFunction Arena.root
                (function.name, function.arity) routine } := by
            have wellFormed := poised.wellFormed
            refine ⟨⟨wellFormed.ordered.putFunction _ _ _, ?_,
              wellFormed.closures.putFunction _ rfl⟩,
              poised.spares.putFunction _ (spares function List.mem_cons_self), ?_, by simp⟩
            · exact Nat.lt_of_lt_of_eq wellFormed.inside Array.size_modify.symm
            · intro name cell constant
              rw [Arena.global?_putFunction]
              exact poised.holds name cell constant
          rw [Ends, perform, stepped]
          exact ih { before with machine := _ } poisedNext (List.forall_mem_cons.mp spares).2

/-- What comes after a global is set up leaves the constants alone that the functions spare. -/
theorem rest_ends (budget : Nat) (globals : List Global) (functions : List Function)
    {before : Recording} (poised : before.machine.Poised constants [])
    (atRoot : before.machine.current = Arena.root)
    (spares : ∀ function ∈ functions, (Routine.written function Arena.root).Spares
      (fun name => constants.contains name = true) function.arity) :
    Ends
      (do
        setUpGlobals budget globals
        perform (Run.setUpFunctions functions)
        call budget Checker.mainName [] none)
      before (fun _ => before.Preserves constants) (fun _ => before.Preserves constants) := by
  have globalsEnd := setUpGlobals_settles budget globals before poised atRoot
  refine (Ends.mono globalsEnd (fun _ _ done => done) fun _ _ stopped =>
    stopped.1.preserves).bind ?_
  rintro _ middle ⟨advances, poisedMiddle⟩
  have same {after : Recording} (holds : after.machine.arena.Holds constants)
      (moments : after.moments = middle.moments) : before.Preserves constants after :=
    advances.preserves.trans ⟨holds, [], moments, by simp⟩
  have functionsEnd := setUpFunctions_ends functions middle poisedMiddle spares
  refine (functionsEnd.mono (fun _ _ done => done) fun _ _ stopped =>
    same stopped.1 stopped.2).bind ?_
  rintro _ inner ⟨poisedInner, moments⟩
  have preserves := same poisedInner.holds moments
  have main := call_disciplined constants budget [] Checker.mainName [] none inner poisedInner
  refine Ends.mono main ?_ ?_
  · exact fun _ _ done => preserves.trans done.1.preserves
  · exact fun _ _ stopped => preserves.trans stopped.1.preserves

/-- Whether a machine is in the root, where there is no variable of a name, and has only functions
that are built in. -/
structure Awaits (name : String) (machine : Machine) : Prop where
  poised : machine.Poised .empty []
  atRoot : machine.current = Arena.root
  builtIn : machine.arena.AllFunctions fun _ routine => ∃ function, routine = .builtIn function
  fresh : machine.arena.global? name = none

/-- So it is when a global has got its value and has not been added yet. -/
theorem awaits_of_initial {budget : Nat} {limit : Option Nat} {earlier : List Global}
    {global : Global} {start before : Recording} {value : Value}
    (reached : setUpGlobals budget earlier (.initial limit) = .ok () start)
    (initial : initialValue (call budget)
      (offerGlobal global.name (Ty.ofName? global.typeName)) global.binding
      global.initializer start = .ok value before)
    (notEarlier : global.name ∉ earlier.map Global.name) :
    Awaits global.name before.machine := by
  have settled := setUpGlobals_settles budget earlier (.initial limit)
    (Machine.initial_poised limit) rfl
  simp only [Settles, Ends, reached] at settled
  have valued := initialValue_disciplined (call_disciplined .empty budget) []
    (fun expr value => .offerGlobal global.name (Ty.ofName? global.typeName) expr value)
    global.binding global.initializer start settled.2
  simp only [Settles, Ends, initial] at valued
  have advances := settled.1.trans (valued.1.mono fun _ impossible => impossible.elim)
  refine ⟨valued.2, advances.current, ?_, advances.arena.global?_eq_none rfl notEarlier⟩
  refine advances.arena.allFunctions (.ofFunctions (.ofList ?_ Native.all))
  exact fun function => ⟨function, rfl⟩

/-- A global that is added may be a constant from then on, since functions that are built in change
no variable. -/
theorem define_constant {name : String} {before : Recording} (awaits : Awaits name before.machine)
    (binding : Option Variable) (value : Value) (position : Position) :
    ∃ after, define Arena.root name binding value position before = .ok () after ∧
      after.machine.current = before.machine.current ∧
      after.machine.Poised (Table.empty.insert name ⟨value, true⟩) [] ∧
      after.moments = ⟨.changed, after.machine, after.declared⟩ :: before.moments := by
  rcases awaits with ⟨poised, _, builtIn, fresh⟩
  rcases Arena.exists_scope poised.depth_pos with ⟨scope, found⟩
  have present : before.machine.arena.scopes[Arena.root]? = some scope := found
  rw [Arena.global?, present, Option.bind_some] at fresh
  have defined := Run.define_of_fresh present fresh ⟨value, true⟩ position
  have evolves := Arena.Evolves.put before.machine.arena Arena.root name (⟨value, true⟩ : Cell)
  have poisedAfter : Machine.Poised (Table.empty.insert name ⟨value, true⟩) [] { before.machine with
      arena := before.machine.arena.put Arena.root name ⟨value, true⟩ } := by
    refine ⟨⟨evolves.ordered poised.wellFormed.ordered, ?_,
      evolves.allFunctions poised.wellFormed.closures⟩, evolves.allFunctions ?_, ?_, by simp⟩
    · rw [evolves.depth]
      exact poised.wellFormed.inside
    · intro id other isThere key routine has
      rcases builtIn id other isThere key routine has with ⟨function, rfl⟩
      trivial
    · intro other cell constant
      rw [Table.find?_insert] at constant
      split at constant
      · rename_i same
        cases constant
        rw [← same]
        exact Arena.global?_put_self poised.depth_pos _ _
      · cases constant
  simp only [define, bind, EStateM.bind, perform, defined]
  cases binding with
  | none => exact ⟨_, rfl, rfl, poisedAfter, rfl⟩
  | some binding => exact ⟨_, rfl, rfl, poisedAfter, rfl⟩

end Recorded

namespace Script

variable {source file : String} {program : Program}

/-- A constant has the value that it was set up with, from then on up to the end of the run, whether
the script comes to a value or stops. -/
theorem constants_kept (compiled : compile source file = .ok program)
    {earlier later : List Global} {global : Global}
    (declared : program.globals = earlier ++ global :: later)
    (isConstant : global.isMutable = false) {budget : Nat} {limit : Option Nat}
    {start before : Recording} {value : Value}
    (reached : Recorded.setUpGlobals budget earlier (.initial limit) = .ok () start)
    (initial : Recorded.initialValue (Recorded.call budget)
      (Recorded.offerGlobal global.name (Ty.ofName? global.typeName)) global.binding
      global.initializer start = .ok value before) :
    let recorded := Recorded.program budget program (.initial limit)
    let after := Recorded.last recorded
    Recorded.forget recorded = Run.program budget program (.initial limit) ∧
      after.machine.arena.global? global.name = some ⟨value, true⟩ ∧
      ∃ newer defined, after.moments = newer ++ defined :: before.moments ∧
        defined.event = .changed ∧ ∀ moment ∈ newer ++ [defined],
          moment.machine.arena.global? global.name = some ⟨value, true⟩ := by
  intro recorded after
  refine ⟨Recorded.program_erases budget program (.initial limit), ?_⟩
  rcases compile_ok compiled with ⟨_, unchecked, accepted⟩
  rcases Program.wellTyped_of_check unchecked accepted with ⟨context, wellTyped, _⟩
  have declares := wellTyped.globals
  rw [declared] at declares
  rcases declares.declared with ⟨_, notEarlier, ty, known⟩
  have awaits := Recorded.awaits_of_initial reached initial notEarlier
  rcases Recorded.define_constant awaits global.binding value global.span.start with
    ⟨defined, made, current, poised, moments⟩
  let constants := Table.empty.insert global.name (⟨value, true⟩ : Cell)
  have fixes : context.Fixes (fun name => constants.contains name = true) := by
    intro name isFixed
    rcases Table.contains_insert.mp isFixed with impossible | rfl
    · cases impossible
    · exact ⟨_, known, isConstant⟩
  -- From here on the global is a constant that nothing in the program assigns to.
  have rest := Recorded.rest_ends budget later program.functions poised
    (current.trans awaits.atRoot) (wellTyped.spares fixes)
  have whole : recorded = (do
      Recorded.setUpGlobals budget later
      Recorded.perform (Run.setUpFunctions program.functions)
      Recorded.call budget Checker.mainName [] none : Recorded Value) defined := by
    simp only [recorded, Recorded.program, declared, Recorded.setUpGlobals_append,
      Recorded.setUpGlobals, bind, EStateM.bind, reached, initial, made]
  have preserves := rest.last (defined.Preserves constants) (fun _ _ done => done)
    fun _ _ stopped => stopped
  rw [← whole] at preserves
  have constant : constants.find? global.name = some ⟨value, true⟩ := by
    rw [Table.find?_insert, if_pos rfl]
  rcases preserves.moments with ⟨newer, split, each⟩
  rw [moments] at split
  refine ⟨preserves.holds _ _ constant, newer, _, split, rfl, ?_⟩
  intro moment member
  rcases List.mem_append.mp member with isNew | isFirst
  · exact each moment isNew _ _ constant
  · rw [List.mem_singleton.mp isFirst]
    exact poised.holds _ _ constant

/-- What a recorded run came to, if it came to a value. -/
def reached? {α : Type} : EStateM.Result Halt Recording α → Option (α × Recording)
  | .ok value recording => some (value, recording)
  | .error _ _ => none

theorem eq_ok_of_reached? {α : Type} {outcome : EStateM.Result Halt Recording α}
    {result : α × Recording} (found : reached? outcome = some result) :
    outcome = .ok result.1 result.2 := by
  cases outcome with
  | ok value recording =>
      cases found
      rfl
  | error halt recording => cases found

/-- A script with a parameter and a local variable that have the name of a constant and are assigned
to. -/
theorem constants_kept_shadowed : ∃ program global later start before value,
    compile ("VAR n: Integer = 1; VAL x: Integer = n + 1; FUN f(x: Integer): Integer DO " ++
      "x = x + n; n = x; RETURN x; END FUN main(): Integer DO LET x = 7; x = x * 2; " ++
      "RETURN f(x); END") "main.plc" = .ok program ∧
    program.globals = program.globals.take 1 ++ global :: later ∧ global.isMutable = false ∧
    Recorded.setUpGlobals 9 (program.globals.take 1) (.initial none) = .ok () start ∧
    Recorded.initialValue (Recorded.call 9)
      (Recorded.offerGlobal global.name (Ty.ofName? global.typeName)) global.binding
      global.initializer start = .ok value before ∧
    (Recorded.last (Recorded.program 9 program (.initial none))).machine.arena.global?
      global.name = some ⟨value, true⟩ := by
  let initialOf (global : Global) (start : Recording) :=
    Recorded.initialValue (Recorded.call 9)
      (Recorded.offerGlobal global.name (Ty.ofName? global.typeName)) global.binding
      global.initializer start
  have evaluated : ((compile
      ("VAR n: Integer = 1; VAL x: Integer = n + 1; FUN f(x: Integer): Integer DO " ++
        "x = x + n; n = x; RETURN x; END FUN main(): Integer DO LET x = 7; x = x * 2; " ++
        "RETURN f(x); END") "main.plc").toOption.any fun program =>
      program.globals[1]?.any fun global => !global.isMutable &&
        (reached? (Recorded.setUpGlobals 9 (program.globals.take 1) (.initial none))).any
          fun start => (reached? (initialOf global start.2)).isSome) = true := by
    decide +kernel
  rcases exists_ok_of_any evaluated with ⟨program, compiled, passes⟩
  rcases (Option.any_eq_true _ _).mp passes with ⟨global, second, passes⟩
  rcases Bool.and_eq_true_iff.mp passes with ⟨isConstant, passes⟩
  rcases (Option.any_eq_true _ _).mp passes with ⟨start, isStart, passes⟩
  rcases Option.isSome_iff_exists.mp passes with ⟨result, isResult⟩
  rcases List.getElem?_eq_some_iff.mp second with ⟨inside, rfl⟩
  have declared : program.globals =
      program.globals.take 1 ++ program.globals[1] :: program.globals.drop 2 := by
    rw [List.getElem_cons_drop, List.take_append_drop]
  have reached := eq_ok_of_reached? isStart
  have initial := eq_ok_of_reached? isResult
  have immutable : program.globals[1].isMutable = false := by simpa using isConstant
  have kept := constants_kept compiled declared immutable reached initial
  exact ⟨program, _, _, _, _, _, compiled, declared, immutable, reached, initial, kept.2.1⟩

end Script

end GradualScript
