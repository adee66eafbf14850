import GradualScript.Proofs.Machine.Calling
import GradualScript.Proofs.Typing.Accepted

/-!
# Runs of well-typed programs

A well-typed program sets up its globals and functions without a clash of names, and its `main`
function then runs as its type says. `Recorded.program_ends` puts together what is known of all
moments of a run and of its end.
-/

namespace GradualScript

namespace Native

/-- The routines that a machine has before it has seen a program. -/
def routines : Table (String × Nat) Routine :=
  .ofList (all.map fun function =>
    ((function.signature.name, function.signature.arity), .builtIn function))

/-- The native functions are what their signatures promise. -/
theorem routines_mirror (context : Context) :
    Checker.nativeSignatures.Mirrors context.Implements routines :=
  .ofList (fun _ => .builtIn rfl) all

theorem arities :
    Checker.nativeSignatures.All fun key signature => signature.arity = key.2 := by
  refine .ofList ?_ all
  exact fun _ => rfl

theorem routines_support {reliance : Reliance} {context : Context}
    (functions : context.functions = Checker.nativeSignatures)
    (permits : ∀ {operator ty}, context.permits operator ty → reliance.permits operator ty) :
    context.Supports reliance routines := by
  refine ⟨functions ▸ routines_mirror context, ?_, permits⟩
  intro name arity signature known
  rw [functions] at known
  exact arities _ _ known

end Native

namespace Recording

theorem initial_ready (reliance : Reliance) (limit : Option Nat) :
    (initial limit).Ready reliance Native.routines [.empty] := by
  refine ⟨⟨.ofFunctions _ _, .ofFunctions _, ?_⟩, .nil, .ofFunctions _⟩
  intro _ member
  cases member

end Recording

namespace Context

/-- The functions of a program are added to a machine that has none of them. -/
theorem DeclaresFunctions.setUp {reliance : Reliance} {context : Context}
    {signatures after : Table (String × Nat) Signature} {functions : List Function}
    (declares : DeclaresFunctions signatures functions after)
    (accepted : ∀ function ∈ functions, ∀ signature, function.binding = some signature →
      context.AcceptsBody function signature)
    {machine : Machine} {routines : Table (String × Nat) Routine}
    {tables : List (Table String Cell)}
    (mirrors : signatures.Mirrors context.Implements routines)
    (known : machine.arena.Declares routines) (shows : machine.arena.Shows Arena.root tables)
    {declared : Arena Variable Unit}
    (cells : declared.Mirrors reliance.Stores machine.arena) :
    ∃ arena routinesAfter,
      Run.setUpFunctions functions machine = .ok () { machine with arena } ∧
        after.Mirrors context.Implements routinesAfter ∧ arena.Declares routinesAfter ∧
        declared.Mirrors reliance.Stores arena := by
  induction declares generalizing machine routines with
  | nil => exact ⟨machine.arena, routines, rfl, mirrors, known, cells⟩
  | @cons signatures after function others signature stated fresh bound rest ih =>
      rcases Checker.signatureOf_ok stated with ⟨signature_eq, arity_eq⟩
      have implements : context.Implements signature (.written function Arena.root) :=
        .written bound (signature_eq ▸ rfl) (signature_eq ▸ rfl) arity_eq.symm
          (accepted function List.mem_cons_self signature bound)
      have present := Array.getElem?_eq_getElem shows.lt_depth
      have freshThere := mirrors.find?_none fresh
      rw [← show _ = routines from known _ _ present] at freshThere
      have added : machine.arena.addFunction Arena.root function.name function.arity
          (.written function Arena.root) function.span.start =
          .ok (machine.arena.putFunction Arena.root (function.name, function.arity)
            (.written function Arena.root)) :=
        Arena.addFunction_eq_ok_iff.mpr ⟨_, present, freshThere, rfl⟩
      let next : Machine := { machine with
        arena := machine.arena.putFunction Arena.root (function.name, function.arity)
          (.written function Arena.root) }
      have knownNext : next.arena.Declares (routines.insert (function.name, function.arity)
          (.written function Arena.root)) := known.putFunction _ _
      have mirrorsNext := mirrors.insert implements (function.name, function.arity)
      rcases ih (List.forall_mem_cons.mp accepted).2 mirrorsNext knownNext
        (shows.putFunction _ _ _) (cells.putFunction _ _ _) with
        ⟨arena, routinesAfter, setUp, mirrorsAfter, knownAfter, cellsAfter⟩
      refine ⟨arena, routinesAfter, ?_, mirrorsAfter, knownAfter, cellsAfter⟩
      rw [Run.setUpFunctions, Run.bind_get, Run.bind_ofExcept added]
      exact setUp

theorem DeclaresFunctions.arities {signatures after : Table (String × Nat) Signature}
    {functions : List Function} (declares : DeclaresFunctions signatures functions after)
    (arities : signatures.All fun key signature => signature.arity = key.2) :
    after.All fun key signature => signature.arity = key.2 := by
  induction declares with
  | nil => exact arities
  | cons stated _ _ _ ih => exact ih (arities.insert (Checker.signatureOf_ok stated).2)

end Context

/-- Whether the elements of a list global may be relied on to be of the type declared for them. -/
def Global.Reliable (reliance : Reliance) (global : Global) : Prop :=
  ∀ {span label elements declared},
    global.initializer = some (.list span label elements) →
      Ty.ofName? global.typeName = some declared → ∀ element ∈ elements, ∀ {ty value},
        element.ty = some ty → declared.allows ty = true → reliance.holds value ty →
          reliance.holds value declared

theorem Context.TypesAll.exists_expr {context : Context} {exprs : List Expr} {types : List Ty}
    (typed : context.TypesAll exprs types) : ∀ ty ∈ types, ∃ expr ∈ exprs, expr.ty = some ty := by
  induction exprs generalizing types with
  | nil =>
      cases typed
      simp
  | cons expr others ih =>
      cases typed with
      | cons first rest =>
          intro ty member
          rcases List.mem_cons.mp member with rfl | later
          · exact ⟨expr, List.mem_cons_self, first.ty_eq⟩
          · rcases ih rest ty later with ⟨other, among, other_ty⟩
            exact ⟨other, List.mem_cons_of_mem _ among, other_ty⟩

namespace Moment

/-- Whether a moment offers an element of a list global, where the first has the given index. -/
structure OffersElement (before : Recording) (name : String) (target : Option Ty) (index : Nat)
    (values : List Value) (moment : Moment) : Prop where
  machine : moment.machine = before.machine
  declared : moment.declared = before.declared
  event : ∃ offset expr value,
    moment.event = .offered (.listElement name (index + offset)) target expr value ∧
      values[offset]? = some value

variable {before : Recording} {name : String} {index : Nat} {values : List Value} {moment : Moment}

theorem OffersElement.sound {reliance : Reliance} {target : Option Ty}
    (offers : moment.OffersElement before name target index values)
    (cells : before.declared.Mirrors reliance.Stores before.machine.arena) :
    moment.Sound reliance := by
  rcases offers.event with ⟨offset, expr, value, event, _⟩
  constructor
  · intro _ _ _ other
    rw [event] at other
    cases other
  · rw [offers.machine, offers.declared]
    exact cells

/-- Elements are not among the values that have to fit. -/
theorem OffersElement.fitting {ty : Ty}
    (offers : moment.OffersElement before name (some ty) index values) : moment.Fitting := by
  rcases offers.event with ⟨offset, expr, value, event, _⟩
  constructor
  · intro _ _ _ _ other _
    rw [event] at other
    cases other
    rfl
  · intro _ _ _ _ other notElement
    rw [event] at other
    cases other
    cases notElement

end Moment

namespace Orderly

/-- The elements of a list global are offered one after the other, and then stored at once. -/
theorem stored_list {latest : Moment} {noted moments : List Moment} (orderly : Orderly moments)
    (latestSilent : ∀ slot target expr value, latest.event ≠ .offered slot target expr value)
    (notedFitting : ∀ moment ∈ noted, moment.Fitting)
    (has : ∀ moment ∈ noted, ∀ {name index target expr value},
      moment.event = .offered (.listElement name index) target expr value →
        latest.HasElement name index value) :
    Orderly (latest :: (noted ++ moments)) := by
  refine ⟨?_, ?_⟩
  · intro moment member
    rcases List.mem_cons.mp member with rfl | earlier
    · exact Moment.fitting_of_not_offered latestSilent
    · rcases List.mem_append.mp earlier with recent | old
      · exact notedFitting moment recent
      · exact orderly.fitting moment old
  · intro later moment earlier split name index target expr value event
    cases later with
    | nil =>
        cases split
        exact absurd event (latestSilent _ _ _ _)
    | cons first later =>
        rcases List.cons.inj split with ⟨rfl, tails⟩
        rcases List.append_eq_append_iff.mp tails with ⟨between, rfl, old⟩ | ⟨between, recent, old⟩
        · rcases orderly.stored old event with ⟨after, member, hasAfter⟩
          exact ⟨after, List.mem_cons_of_mem _ (List.mem_append_right _ member), hasAfter⟩
        · cases between with
          | nil =>
              have first : moments = [] ++ moment :: earlier := old.symm
              rcases orderly.stored first event with ⟨_, impossible, _⟩
              cases impossible
          | cons other between =>
              rcases List.cons.inj old with ⟨rfl, _⟩
              have among : moment ∈ noted := by simp [recent]
              exact ⟨latest, List.mem_cons_self, has moment among event⟩

end Orderly

namespace Recorded

variable {reliance : Reliance} {routines : Table (String × Nat) Routine}

theorem offerElements_eq (name : String) (target : Option Ty) (index : Nat) (elements : List Expr)
    (values : List Value) (before : Recording) :
    ∃ noted, offerElements name target index elements values before =
        .ok () { before with moments := noted ++ before.moments } ∧
      ∀ moment ∈ noted, moment.OffersElement before name target index values := by
  induction elements generalizing index values before with
  | nil => exact ⟨[], rfl, by simp⟩
  | cons element elements ih =>
      cases values with
      | nil => exact ⟨[], rfl, by simp⟩
      | cons value values =>
          let first : Moment :=
            ⟨.offered (.listElement name index) target element value, before.machine,
              before.declared⟩
          rcases ih (index + 1) values { before with moments := first :: before.moments } with
            ⟨noted, made, each⟩
          refine ⟨noted ++ [first], ?_, ?_⟩
          · change offerElements name target (index + 1) elements values
              { before with moments := first :: before.moments } = _
            rw [made]
            simp
          · intro moment member
            rcases List.mem_append.mp member with later | last
            · rcases each moment later with
                ⟨machine_eq, declared_eq, offset, expr, found, event, at_offset⟩
              refine ⟨machine_eq, declared_eq, offset + 1, expr, found, ?_, at_offset⟩
              rw [event, Nat.add_assoc, Nat.add_comm 1]
            · cases List.mem_singleton.mp last
              exact ⟨rfl, rfl, 0, element, value, rfl, rfl⟩

/-- A list global holds its elements as soon as it is there. -/
theorem hasElement_withVariable {tables : List (Table String Variable)} {before : Recording}
    (sound : before.Sound reliance routines)
    (shows : before.declared.Shows before.machine.current tables)
    (atRoot : before.machine.current = Arena.root) (name : String) (found : Variable)
    (values : List Value) {index : Nat} {value : Value} (present : values[index]? = some value) :
    Moment.HasElement
      ⟨.changed, (before.withVariable name found (.list values)).machine,
        (before.withVariable name found (.list values)).declared⟩
      name index value := by
  refine ⟨values, true, ?_, present⟩
  rcases sound.cells.shows shows with ⟨table, others, shown⟩
  have after := (shown.put name (⟨.list values, true⟩ : Cell)).findVariable name
  rw [Table.findIn, List.findSome?_cons, Table.find?_insert, if_pos rfl] at after
  rw [← atRoot]
  exact after

/-- The elements of a list global are noted, and then stored as they are. -/
theorem storeElements_ends {table : Table String Variable} {before : Recording} {name : String}
    {declared : Ty} {values : List Value} (ready : before.Ready reliance routines [table])
    (atRoot : before.machine.current = Arena.root) (fresh : table.find? name = none)
    (each : ∀ value ∈ values, reliance.holds value declared) (isMutable : Bool)
    (elements : List Expr) (position : Position) :
    Ends
      (do
        offerElements name (some declared) 0 elements values
        define Arena.root name (some ⟨name, .list declared, isMutable⟩) (.list values) position)
      before
      (fun _ after => before.Continues after ∧
        after.Ready reliance routines [table.insert name ⟨name, .list declared, isMutable⟩])
      (before.Stops reliance routines) := by
  rcases offerElements_eq name (some declared) 0 elements values before with ⟨noted, made, about⟩
  let offered : Recording := { before with moments := noted ++ before.moments }
  have sound : offered.Sound reliance routines := by
    refine ⟨ready.sound.cells, ready.sound.functions, ?_⟩
    intro moment member
    rcases List.mem_append.mp member with recent | old
    · exact (about moment recent).sound ready.sound.cells
    · exact ready.sound.moments moment old
  let found : Variable := ⟨name, .list declared, isMutable⟩
  have offers : (offerElements name (some declared) 0 elements values).Ends before
      (fun _ after => after = offered) (before.Stops reliance routines) := by
    rw [Ends, made]
  have defined : define Arena.root name (some found) (.list values) position offered =
      .ok () (offered.withVariable name found (.list values)) := by
    rw [← atRoot]
    exact Recording.define_eq sound ready.shows fresh found (.list values) position
  have orderly : Orderly (offered.withVariable name found (.list values)).moments := by
    refine ready.orderly.stored_list ?_ (fun moment member => (about moment member).fitting) ?_
    · intro _ _ _ _ event
      cases event
    · intro moment member _ _ _ _ _ event
      rcases (about moment member).event with ⟨offset, _, _, other, present⟩
      rw [event] at other
      cases other
      rw [Nat.zero_add]
      exact hasElement_withVariable sound ready.shows atRoot name found values present
  refine offers.bind ?_
  rintro _ _ rfl
  rw [Ends, defined]
  exact ⟨⟨rfl, rfl, rfl, .put _ _ _ _⟩, sound.withVariable (reliance.list each), orderly,
    ready.shows.put name found⟩

section

variable {context : Context} {call : Caller} {declared : Ty} {global : Global}

/-- A global starts with a value of its type. A list in brackets is left to the next lemma. -/
theorem initialGlobal_computes (supports : context.base.Supports reliance routines)
    (calls : call.Sound reliance routines context.base)
    (named : Ty.ofName? global.typeName = some declared) {ty : Ty}
    (initial : context.InitializesGlobal declared global.initializer ty)
    (notList : ∀ span label elements,
      global.initializer ≠ some (.list span label elements))
    (bound : global.binding = some ⟨global.name, ty, global.isMutable⟩) :
    Computes reliance routines context.tables
      (initialValue call (offerGlobal global.name (Ty.ofName? global.typeName)) global.binding
        global.initializer)
      (reliance.holds · ty) := by
  rw [bound, named]
  generalize global.initializer = initializer at initial notList
  cases initial with
  | missing => exact .pure (reliance.nil _)
  | list _ _ => exact absurd rfl (notList _ _ _)
  | @given initializer ty isNoList typed allowed =>
      simp only [initialValue]
      refine (evaluate_computes supports calls initializer typed).bind fun value holds => ?_
      have offered : offerGlobal global.name (some declared) initializer value =
          note (.offered .global (some declared) initializer value) := by
        unfold offerGlobal
        split
        · exact absurd rfl (isNoList _ _ _)
        · rfl
      rw [offered, ← bind_assoc]
      exact (offer_computes rfl typed.ty_eq holds allowed).bind fun _ stored => .pure stored

/-- A list global starts with elements as they are, and that is where they are stored. -/
theorem listGlobal_ends (supports : context.base.Supports reliance routines)
    (calls : call.Sound reliance routines context.base) (alone : context.locals = [])
    (reliable : global.Reliable reliance)
    (named : Ty.ofName? global.typeName = some declared) {span : Span} {elements : List Expr}
    {types : List Ty}
    (isList : global.initializer = some (.list span (some (.list declared)) elements))
    (typed : context.TypesAll elements types) (allowed : ∀ ty ∈ types, declared.allows ty = true)
    (fresh : context.globals.find? global.name = none) {before : Recording}
    (ready : before.Ready reliance routines context.tables)
    (atRoot : before.machine.current = Arena.root) (position : Position) :
    Ends
      (do
        let found : Variable := ⟨global.name, .list declared, global.isMutable⟩
        let offer := offerGlobal global.name (some declared)
        let value ← initialValue call offer (some found) global.initializer
        define Arena.root global.name (some found) value position)
      before
      (fun _ after => before.Continues after ∧ after.Ready reliance routines
        [context.globals.insert global.name ⟨global.name, .list declared, global.isMutable⟩])
      (before.Stops reliance routines) := by
  have evaluated : Computes reliance routines context.tables
      (evaluate call (.list span (some (.list declared)) elements))
      fun value => ∃ values, value = .list values ∧
        ∀ element ∈ values, reliance.holds element declared := by
    simp only [evaluate]
    refine .valuing_known rfl ?_ ?_
    · rintro _ ⟨values, rfl, each⟩
      exact reliance.list each
    · refine (evaluateArguments_computes supports calls [] elements typed).bind ?_
      rintro values ⟨_, each⟩
      refine .pure ⟨values, rfl, fun value member => ?_⟩
      rcases each value member with ⟨ty, among, holds⟩
      rcases typed.exists_expr ty among with ⟨element, present, element_ty⟩
      exact reliable isList named element present element_ty (allowed ty among) holds
  rw [isList]
  simp only [initialValue, bind_assoc]
  refine (evaluated before ready).bind ?_
  rintro _ middle ⟨keeps, readyMiddle, values, rfl, each⟩
  have atRootMiddle := keeps.current.trans atRoot
  rw [Context.tables, alone, List.nil_append] at readyMiddle
  -- The annotation of the list is not `Any`, so nothing is tested between offering and storing.
  have untested : Run.enforce (.list span (some (.list declared)) elements)
      (some (.list declared)) (.list values) = pure () := by
    apply Run.enforce_eq_pure
    intro _ _ isAny
    cases isAny
  rw [Option.map_some, untested]
  exact (storeElements_ends readyMiddle atRootMiddle fresh each global.isMutable elements
    position).continuing keeps.continues

/-- A global gets a value of its type. -/
theorem setUpGlobal_ends (supports : context.base.Supports reliance routines)
    (calls : call.Sound reliance routines context.base) (alone : context.locals = [])
    (reliable : global.Reliable reliance) (named : Ty.ofName? global.typeName = some declared)
    {ty : Ty} (initial : context.InitializesGlobal declared global.initializer ty)
    (fresh : context.globals.find? global.name = none)
    (bound : global.binding = some ⟨global.name, ty, global.isMutable⟩) {before : Recording}
    (ready : before.Ready reliance routines [context.globals])
    (atRoot : before.machine.current = Arena.root) (position : Position) :
    Ends
      (do
        let offer := offerGlobal global.name (Ty.ofName? global.typeName)
        let value ← initialValue call offer global.binding global.initializer
        define Arena.root global.name global.binding value position)
      before
      (fun _ after => before.Continues after ∧ after.Ready reliance routines
        [context.globals.insert global.name ⟨global.name, ty, global.isMutable⟩])
      (before.Stops reliance routines) := by
  have tables_eq : context.tables = [context.globals] := by
    rw [Context.tables, alone, List.nil_append]
  by_cases isList : ∃ span label elements,
      global.initializer = some (.list span label elements)
  · rcases isList with ⟨span, label, elements, isList⟩
    rw [isList] at initial
    cases initial with
    | list typed allowed =>
        rw [bound, named]
        exact listGlobal_ends supports calls alone reliable named isList typed allowed fresh
          (tables_eq ▸ ready) atRoot position
    | given notList _ _ => exact absurd rfl (notList span label elements)
  · have notList : ∀ span label elements,
        global.initializer ≠ some (.list span label elements) :=
      fun span label elements found => isList ⟨span, label, elements, found⟩
    have computes := initialGlobal_computes supports calls named initial notList bound
    rw [tables_eq] at computes
    refine (computes before ready).bind ?_
    rintro value middle ⟨keeps, readyMiddle, holds⟩
    rw [bound, ← atRoot, ← keeps.current]
    exact (define_ends readyMiddle fresh holds position).continuing keeps.continues

/-- The globals of a program get their values one after the other. -/
theorem setUpGlobals_ends {after : Context} {globals : List Global}
    (declares : Context.DeclaresGlobals context globals after) (alone : context.locals = [])
    (functions : context.functions = Checker.nativeSignatures)
    (permits : ∀ {operator ty}, context.permits operator ty → reliance.permits operator ty)
    (reliable : ∀ global ∈ globals, global.Reliable reliance) (budget : Nat) {before : Recording}
    (ready : before.Ready reliance Native.routines [context.globals])
    (atRoot : before.machine.current = Arena.root) :
    (setUpGlobals budget globals).Ends before
      (fun _ later => before.Continues later ∧
        later.Ready reliance Native.routines [after.globals])
      (before.Stops reliance Native.routines) := by
  induction declares generalizing before with
  | nil => exact ⟨(Recording.Keeps.refl before).continues, ready⟩
  | @cons context after global others declared ty named initial fresh bound rest ih =>
      have supports : context.base.Supports reliance Native.routines :=
        Native.routines_support functions permits
      have first := setUpGlobal_ends supports (call_sound supports budget) alone
        (reliable global List.mem_cons_self) named initial fresh bound ready atRoot
        global.span.start
      simp only [setUpGlobals]
      rw [← bind_assoc]
      refine first.bind ?_
      rintro _ middle ⟨continues, readyMiddle⟩
      have othersReliable := (List.forall_mem_cons.mp reliable).2
      exact (ih alone functions permits othersReliable readyMiddle
        (continues.current.trans atRoot)).continuing continues

/-- A well-typed program sets up its globals and functions, as its context says. -/
theorem setUp_ends {program : Program} (wellTyped : program.WellTyped context)
    (permits : ∀ {operator ty}, context.permits operator ty → reliance.permits operator ty)
    (reliable : ∀ global ∈ program.globals, global.Reliable reliance) (budget : Nat)
    (limit : Option Nat) :
    Ends
      (do
        setUpGlobals budget program.globals
        perform (Run.setUpFunctions program.functions))
      (.initial limit)
      (fun _ after => ∃ routines, context.base.Supports reliance routines ∧
        after.Ready reliance routines [context.globals])
      (fun halt after => (∃ routines, after.Sound reliance routines) ∧
        Stopped halt after.moments ∧ halt.isNaming = false) := by
  have globals := setUpGlobals_ends wellTyped.globals rfl rfl permits reliable budget
    (Recording.initial_ready reliance limit) rfl
  refine (globals.mono (fun _ _ done => done) ?_).bind ?_
  · intro halt after stops
    exact ⟨⟨_, stops.sound⟩, stops.stopped, stops.notNaming⟩
  rintro _ middle ⟨continues, ready⟩
  have atRoot : middle.machine.current = Arena.root := continues.current
  rcases ready.sound.cells.shows ready.shows with ⟨_, _, shown⟩
  rcases wellTyped.functions.setUp wellTyped.bodies (Native.routines_mirror context)
    ready.sound.functions (atRoot ▸ shown) ready.sound.cells with
    ⟨arena, routines, setUp, mirrors, known, cells⟩
  have base_eq : context.base = context := by
    rw [Context.base, ← wellTyped.locals]
  have supports : context.base.Supports reliance routines := by
    rw [base_eq]
    exact ⟨mirrors, fun found => wellTyped.functions.arities Native.arities _ _ found, permits⟩
  simp only [Ends, perform, setUp]
  exact ⟨routines, supports, ⟨cells, known, ready.sound.moments⟩, ready.orderly, ready.shows⟩

/-- What is known of a recorded run of a well-typed program: at no moment is a value other than its
type lets rely on, and where a value that was left to be tested does not fit, the run stops. -/
theorem program_ends {program : Program} (wellTyped : program.WellTyped context)
    (permits : ∀ {operator ty}, context.permits operator ty → reliance.permits operator ty)
    (reliable : ∀ global ∈ program.globals, global.Reliable reliance) (budget : Nat)
    (limit : Option Nat) :
    (Recorded.program budget program).Ends (.initial limit)
      (fun value after => (∃ routines, after.Sound reliance routines) ∧ Orderly after.moments ∧
        reliance.holds value .integer)
      (fun halt after => (∃ routines, after.Sound reliance routines) ∧
        Stopped halt after.moments ∧ halt.isNaming = false) := by
  have ready := setUp_ends wellTyped permits reliable budget limit
  rw [Recorded.program, ← bind_assoc]
  refine ready.bind ?_
  rintro _ middle ⟨routines, supports, ready⟩
  rcases wellTyped.main with ⟨signature, found, isInteger⟩
  have main := call_sound supports budget [] Checker.mainName [] none signature found middle ready
  refine main.mono ?_ ?_
  · rintro value after ⟨_, readyAfter, holds⟩
    rw [isInteger] at holds
    exact ⟨⟨_, readyAfter.sound⟩, readyAfter.orderly, holds⟩
  · intro halt after stops
    exact ⟨⟨_, stops.sound⟩, stops.stopped, stops.notNaming⟩

end

end Recorded

end GradualScript
