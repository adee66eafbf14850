import GradualScript.Proofs.Machine.Evaluation

/-!
# Running well-typed statements

A statement leads from a recording that is ready for it to one that is ready for the statement after
it, and a function ends with a value of the type that it states. Blocks leave the scopes that they
enter, whichever way they end, so after a block the declared variables are as they were before it.
A value that ends a function is the last thing that is noted there.
-/

namespace GradualScript

/-- Whether a recording is inside a function with the given result. -/
structure Recording.Inside (result : Ty) (recording : Recording) : Prop where
  returnType : recording.machine.returnType = some result
  resultType : recording.resultType = result

theorem Recording.Inside.continues {result : Ty} {before after : Recording}
    (inside : before.Inside result) (continues : before.Continues after) : after.Inside result :=
  ⟨continues.returnType.trans inside.returnType, continues.resultType.trans inside.resultType⟩

/-- Whether the latest thing noted is that a value was offered as the result of a function. If the
value is nil then it was looked up, unless nil may be written out for the result. -/
def Recording.Returned (result : Ty) (value : Value) (recording : Recording) : Prop :=
  ∃ moment earlier expr, recording.moments = moment :: earlier ∧
    moment.event = .offered .result (some result) expr value ∧
    (value = .nil → expr.looksUp = true ∨ result.allows .nil = true)

/-- Whether statements may have led from one recording to another, where what comes after them sees
the given variables. -/
structure Recording.Reaches (reliance : Reliance) (routines : Table (String × Nat) Routine)
    (tables : List (Table String Variable)) (result : Ty) (before : Recording) (signal : Signal)
    (after : Recording) : Prop where
  continues : before.Continues after
  sound : after.Sound reliance routines
  orderly : Orderly after.moments
  goOn : signal = .goOn → after.declared.Shows after.machine.current tables
  finish : ∀ value, signal = .finish value →
    reliance.holds value result ∧ after.Returned result value

namespace Recording

variable {reliance : Reliance} {routines : Table (String × Nat) Routine}
  {tables : List (Table String Variable)} {recording after : Recording}

theorem Ready.depth_pos (ready : recording.Ready reliance routines tables) :
    0 < recording.declared.depth :=
  Nat.lt_of_le_of_lt (Nat.zero_le _) ready.shows.lt_depth

theorem Ready.enter (ready : recording.Ready reliance routines tables) :
    recording.enter.1.Ready reliance routines (.empty :: tables) := by
  have depth_eq := ready.sound.cells.depth
  refine ⟨⟨ready.sound.cells.push _, ready.sound.functions.push ?_ _, ready.sound.moments⟩,
    ready.orderly, ?_⟩
  · rw [← depth_eq]
    exact ready.depth_pos
  · have shown := ready.shows.push
    rw [depth_eq] at shown
    exact shown

theorem Ready.sameBut_push (ready : recording.Ready reliance routines tables)
    (continues : recording.enter.1.Continues after) :
    (recording.declared.push recording.machine.current).1.SameBut recording.declared.depth
      after.declared := by
  rw [ready.sound.cells.depth]
  exact continues.declared

/-- What was done in an inner scope is undone by releasing it, apart from new values. -/
theorem Ready.release (ready : recording.Ready reliance routines tables)
    (continues : recording.enter.1.Continues after) (sound : after.Sound reliance routines) :
    after.declared.dropFrom recording.enter.2 = recording.declared ∧
      recording.declared.Mirrors reliance.Stores
        (after.machine.arena.dropFrom recording.enter.2) ∧
      (after.machine.arena.dropFrom recording.enter.2).Declares routines := by
  have same := ready.sameBut_push continues
  have number : recording.enter.2 = recording.declared.depth := ready.sound.cells.depth.symm
  have notRoot : recording.enter.2 ≠ Arena.root := by
    rw [number]
    exact Nat.ne_of_gt ready.depth_pos
  have released : after.declared.dropFrom recording.enter.2 = recording.declared := by
    rw [number]
    exact same.dropFrom_push ready.depth_pos
  refine ⟨released, ?_, sound.functions.dropFrom notRoot⟩
  rw [← released]
  exact sound.cells.dropFrom notRoot

/-- An inner scope can be left for the scope in which it was entered. -/
theorem Ready.leave (ready : recording.Ready reliance routines tables)
    (continues : recording.enter.1.Continues after) (sound : after.Sound reliance routines) :
    ∃ outer, after.leave recording.enter.2 = .ok outer ∧ recording.Keeps outer ∧
      outer.Sound reliance routines ∧ outer.moments = after.moments := by
  rcases (ready.sameBut_push continues).parent_push with ⟨scope, found, parent_eq⟩
  rcases sound.cells.scope found with ⟨other, otherFound, parents, _⟩
  have parent : after.machine.arena.parent recording.enter.2 =
      .ok (some recording.machine.current) := by
    rw [ready.sound.cells.depth] at otherFound
    simp only [Arena.parent, Recording.enter, Machine.enter, Arena.push,
      Arena.scope_eq_ok otherFound]
    exact congrArg Except.ok (parents.symm.trans parent_eq)
  rcases ready.release continues sound with ⟨declared, cells, functions⟩
  refine ⟨{ after with
    machine := { after.machine with
      arena := after.machine.arena.dropFrom recording.enter.2
      current := recording.machine.current }
    declared := after.declared.dropFrom recording.enter.2 }, ?_, ?_, ?_, rfl⟩
  · simp only [Recording.leave, Machine.leave, parent]
    rfl
  · exact ⟨rfl, continues.returnType, continues.resultType, declared⟩
  · refine ⟨?_, functions, sound.moments⟩
    rw [declared]
    exact cells

/-- The recording after a variable was added to the current scope. -/
def withVariable (recording : Recording) (name : String) (found : Variable) (value : Value) :
    Recording :=
  let current := recording.machine.current
  let machine :=
    { recording.machine with arena := recording.machine.arena.put current name ⟨value, true⟩ }
  let declared := recording.declared.put current name found
  { recording with
    machine
    declared
    moments := ⟨.changed, machine, declared⟩ :: recording.moments }

variable {table : Table String Variable} {name : String} {found : Variable} {value : Value}

/-- A variable can be added to a scope that has none of its name. -/
theorem define_eq (sound : recording.Sound reliance routines)
    (shows : recording.declared.Shows recording.machine.current (table :: tables))
    (fresh : table.find? name = none) (found : Variable) (value : Value) (position : Position) :
    Recorded.define recording.machine.current name (some found) value position recording =
      .ok () (recording.withVariable name found value) := by
  rcases shows.table with ⟨scope, present, rfl⟩
  rcases sound.cells.scope present with ⟨other, otherPresent, _, mirrored⟩
  have added : recording.machine.arena.addVariable recording.machine.current name ⟨value, true⟩
      position = .ok (recording.machine.arena.put recording.machine.current name ⟨value, true⟩) :=
    Arena.addVariable_eq_ok_iff.mpr ⟨other, otherPresent, mirrored.find?_none fresh, rfl⟩
  have defined : Run.define recording.machine.current name ⟨value, true⟩ position
      recording.machine = .ok () { recording.machine with
        arena := recording.machine.arena.put recording.machine.current name ⟨value, true⟩ } := by
    rw [Run.define, Run.bind_get, Run.bind_ofExcept added]
    rfl
  simp only [Recorded.define, bind, EStateM.bind, Recorded.perform, defined]
  rfl

theorem Sound.withVariable (sound : recording.Sound reliance routines)
    (holds : reliance.holds value found.ty) :
    (recording.withVariable name found value).Sound reliance routines := by
  have stores : reliance.Stores found ⟨value, true⟩ := ⟨holds, rfl⟩
  have cells := sound.cells.put stores recording.machine.current name
  refine ⟨cells, sound.functions.put _ _ _, ?_⟩
  intro moment member
  rcases List.mem_cons.mp member with rfl | earlier
  · refine ⟨?_, cells⟩
    intro _ _ _ event
    cases event
  · exact sound.moments moment earlier

theorem continues_withVariable (recording : Recording) (name : String) (found : Variable)
    (value : Value) : recording.Continues (recording.withVariable name found value) :=
  ⟨rfl, rfl, rfl, .put _ _ _ _⟩

theorem Ready.withVariable (ready : recording.Ready reliance routines (table :: tables))
    (holds : reliance.holds value found.ty) :
    (recording.withVariable name found value).Ready reliance routines
      (table.insert name found :: tables) := by
  refine ⟨ready.sound.withVariable holds, ?_, ready.shows.put name found⟩
  apply ready.orderly.cons_of_not_offered
  intro _ _ _ _ event
  cases event

end Recording

namespace Recorded

variable {α : Type} {reliance : Reliance} {routines : Table (String × Nat) Routine}
  {tables tablesAfter : List (Table String Variable)} {result : Ty}

/-- Whether something runs as statements of a function with the given result do, from a scope that
shows some variables to the same scope with others. -/
def Runs (reliance : Reliance) (routines : Table (String × Nat) Routine)
    (tables tablesAfter : List (Table String Variable)) (result : Ty) (recorded : Recorded Signal) :
    Prop :=
  ∀ before : Recording, before.Ready reliance routines tables → before.Inside result →
    recorded.Ends before (before.Reaches reliance routines tablesAfter result)
      (before.Stops reliance routines)

theorem perform_bind {β : Type} (run : Run α) (next : α → Run β) :
    perform (run >>= next) = perform run >>= fun value => perform (next value) := by
  funext recording
  simp only [perform, bind, EStateM.bind]
  cases run recording.machine with
  | ok value machine => rfl
  | error halt machine => rfl

namespace Computes

theorem changed : Computes reliance routines tables (note .changed) fun _ => True := by
  intro before ready
  refine ⟨⟨rfl, rfl, rfl, rfl⟩, ready.noted ⟨?_, ready.sound.cells⟩ ?_, trivial⟩
  · intro _ _ _ event
    cases event
  · apply ready.orderly.cons_of_not_offered
    intro _ _ _ _ event
    cases event

variable {name : String} {found : Variable} {value : Value}

/-- A variable that the program sees can be given a value of its type. -/
theorem reassign (known : Table.findIn tables name = some found)
    (holds : reliance.holds value found.ty) (position : Position) :
    Computes reliance routines tables
      (perform do
        let machine ← get
        match ← Run.ofExcept (machine.arena.assign machine.current name ⟨value, true⟩) with
        | some arena => set { machine with arena }
        | none => Run.report (.variableUndefined name) position)
      fun _ => True := by
  intro before ready
  have stores : reliance.Stores found ⟨value, true⟩ := ⟨holds, rfl⟩
  rcases ready.sound.cells.assign ready.shows known stores with ⟨arena, assigned, cells, functions⟩
  rw [Ends, perform, Run.bind_get, Run.bind_ofExcept assigned]
  exact ⟨⟨rfl, rfl, rfl, rfl⟩,
    ⟨⟨cells, functions _ ready.sound.functions, ready.sound.moments⟩, ready.orderly,
      ready.shows⟩, trivial⟩

/-- A list can be given an element of the type of its elements. -/
theorem setElement_gives_holds {old : Value} {ty element : Ty} (known : reliance.holds old ty)
    (elements : ty.element? = some element) (holds : reliance.holds value element)
    (index : Int64) : Value.Gives (old.setElement index value) (reliance.holds · ty) := by
  refine (Value.setElement_gives old index value).mono ?_
  rintro _ ⟨values, place, rfl, rfl⟩
  cases ty with
  | list inner =>
      cases elements
      refine reliance.list fun other member => ?_
      rcases List.mem_or_eq_of_mem_set member with among | rfl
      · exact reliance.element known other among
      · exact holds
  | any => exact reliance.any _
  | _ => cases elements

/-- A variable, or its element at an index, can be given a value of its type. -/
theorem store {index : Option Int64} (known : Table.findIn tables name = some found)
    (holds : match index with
      | none => reliance.holds value found.ty
      | some _ => ∃ element, found.ty.element? = some element ∧ reliance.holds value element)
    (position : Position) :
    Computes reliance routines tables (Recorded.store name index value position)
      fun _ => True := by
  have stored : Computes reliance routines tables (perform (Run.store name index value position))
      fun _ => True := by
    unfold Run.store
    rw [perform_bind]
    refine (Computes.cellAt known position).bind fun cell stores => ?_
    rcases cell with ⟨old, isMutable⟩
    rcases stores with ⟨oldHolds, rfl⟩
    simp only [Bool.not_true, Bool.false_eq_true, if_false]
    cases index with
    | none => exact reassign known holds position
    | some index =>
        rcases holds with ⟨element, elements, elementHolds⟩
        have gives := setElement_gives_holds oldHolds elements elementHolds index
        rw [perform_bind]
        exact (Computes.ofCause gives position).bind fun _ newHolds =>
          reassign known newHolds position
  exact stored.bind fun _ _ => changed

end Computes

/-- A variable of a known type is added to the current scope. -/
theorem define_ends {table : Table String Variable} {name : String} {found : Variable}
    {value : Value} {before : Recording}
    (ready : before.Ready reliance routines (table :: tables)) (fresh : table.find? name = none)
    (holds : reliance.holds value found.ty) (position : Position) :
    (define before.machine.current name (some found) value position).Ends before
      (fun _ after => before.Continues after ∧
        after.Ready reliance routines (table.insert name found :: tables))
      (before.Stops reliance routines) := by
  simp only [Ends, Recording.define_eq ready.sound ready.shows fresh]
  exact ⟨before.continues_withVariable name found value, ready.withVariable holds⟩

/-- What is stored in a slot is tested first if only the run can tell its type. -/
theorem offer_computes {slot : Slot} {expr : Expr} {value : Value} {ty declared : Ty}
    (notElement : slot.isElement = false) (annotated : expr.ty = some ty)
    (holds : reliance.holds value ty) (allowed : declared.allows ty = true) :
    Computes reliance routines tables
      (do
        note (.offered slot (some declared) expr value)
        perform (Run.enforce expr (some declared) value))
      fun _ => reliance.holds value declared := by
  refine (Computes.offer notElement (fun _ => rfl) (fun _ same => same) ?_).mono ?_
  · exact fun _ same => .inl same
  · intro _ passes
    apply reliance.stored holds allowed
    intro isAny
    exact passes declared rfl (isAny ▸ annotated)

theorem note_perform_ends (event : Event) (run : Run α) (before : Recording) :
    Ends
      (do
        note event
        perform run)
      before
      (fun _ after => after.moments = ⟨event, before.machine, before.declared⟩ :: before.moments)
      fun _ _ => True := by
  change (perform run).Ends { before with moments := _ } _ _
  simp only [Ends, perform]
  cases run before.machine with
  | ok value machine => rfl
  | error halt machine => trivial

namespace Runs

theorem of_computes {recorded : Recorded Signal}
    (computes : Computes reliance routines tables recorded (· = .goOn)) :
    Runs reliance routines tables tables result recorded := by
  intro before ready _
  refine (computes before ready).mono ?_ fun _ _ stops => stops
  rintro _ after ⟨keeps, readyAfter, rfl⟩
  refine ⟨keeps.continues, readyAfter.sound, readyAfter.orderly, fun _ => readyAfter.shows, ?_⟩
  intro value finished
  cases finished

theorem goOn : Runs reliance routines tables tables result (pure .goOn) :=
  of_computes (.pure rfl)

theorem continuing {before middle : Recording} {recorded : Recorded Signal}
    (runs : Runs reliance routines tables tablesAfter result recorded)
    (continues : before.Continues middle) (ready : middle.Ready reliance routines tables)
    (inside : before.Inside result) :
    recorded.Ends middle (before.Reaches reliance routines tablesAfter result)
      (before.Stops reliance routines) := by
  apply (runs middle ready (inside.continues continues)).mono
  · intro signal after reaches
    exact { reaches with continues := continues.trans reaches.continues }
  · intro halt after stops
    exact .trans continues stops

/-- A value is computed before statements run. -/
theorem after_computes {recorded : Recorded α} {known : α → Prop} {next : α → Recorded Signal}
    (computes : Computes reliance routines tables recorded known)
    (rest : ∀ value, known value →
      Runs reliance routines tables tablesAfter result (next value)) :
    Runs reliance routines tables tablesAfter result (recorded >>= next) := by
  intro before ready inside
  refine (computes before ready).bind ?_
  rintro value middle ⟨keeps, readyMiddle, holds⟩
  exact (rest value holds).continuing keeps.continues readyMiddle inside

/-- Statements run one after the other until one of them ends the function. -/
theorem andThen {last : List (Table String Variable)} {first second : Recorded Signal}
    (runs : Runs reliance routines tables tablesAfter result first)
    (rest : Runs reliance routines tablesAfter last result second) :
    Runs reliance routines tables last result
      (do
        match ← first with
        | .finish value => return .finish value
        | .goOn => second) := by
  intro before ready inside
  refine (runs before ready inside).bind ?_
  intro signal middle reaches
  cases signal with
  | finish value =>
      refine ⟨reaches.continues, reaches.sound, reaches.orderly, ?_, reaches.finish⟩
      intro goesOn
      cases goesOn
  | goOn =>
      have readyMiddle : middle.Ready reliance routines tablesAfter :=
        ⟨reaches.sound, reaches.orderly, reaches.goOn rfl⟩
      exact rest.continuing reaches.continues readyMiddle inside

theorem repeatWhile {test : Recorded Bool} {body : Recorded Signal}
    (tests : Computes reliance routines tables test fun _ => True)
    (bodies : Runs reliance routines tables tables result body) (budget : Nat) :
    Runs reliance routines tables tables result (Recorded.repeatWhile test body budget) := by
  induction budget with
  | zero => exact .of_computes (.throw rfl)
  | succ budget ih =>
      simp only [Recorded.repeatWhile]
      refine .after_computes tests fun holds _ => ?_
      split
      · exact bodies.andThen ih
      · exact .goOn

/-- A block leaves its scope whichever way it ends. -/
theorem inScope {inner : List (Table String Variable)} {body : Recorded Signal}
    (runs : Runs reliance routines (.empty :: tables) inner result body) :
    Runs reliance routines tables tables result (Recorded.inScope body) := by
  intro before ready inside
  have ends := runs before.enter.1 ready.enter ⟨inside.returnType, inside.resultType⟩
  unfold Ends at ends ⊢
  simp only [Recorded.inScope]
  cases outcome : body before.enter.1 with
  | ok signal after =>
      rw [outcome] at ends
      rcases ready.leave ends.continues ends.sound with ⟨outer, left, keeps, sound, moments⟩
      simp only [left]
      refine ⟨keeps.continues, sound, moments ▸ ends.orderly, fun _ => ?_, ?_⟩
      · rw [keeps.declared, keeps.current]
        exact ready.shows
      · intro value finished
        rcases ends.finish value finished with ⟨holds, moment, earlier, expr, latest, source⟩
        exact ⟨holds, moment, earlier, expr, moments.trans latest, source⟩
  | error halt after =>
      rw [outcome] at ends
      rcases ready.leave ends.continues ends.sound with ⟨outer, left, keeps, sound, moments⟩
      simp only [left]
      exact ⟨keeps.continues, sound, moments ▸ ends.stopped, ends.notNaming⟩

theorem declare {table : Table String Variable} {name : String} {found : Variable} {value : Value}
    (fresh : table.find? name = none) (holds : reliance.holds value found.ty)
    (position : Position) :
    Runs reliance routines (table :: tables) (table.insert name found :: tables) result
      (do
        let recording ← get
        define recording.machine.current name (some found) value position
        return .goOn) := by
  intro before ready _
  refine .after_get ((define_ends ready fresh holds position).bind ?_)
  rintro _ after ⟨continues, readyAfter⟩
  refine ⟨continues, readyAfter.sound, readyAfter.orderly, fun _ => readyAfter.shows, ?_⟩
  intro value finished
  cases finished

/-- The result of a function is tested against the type that the function states. -/
theorem returning {expr : Expr} {value : Value} {ty : Ty} (annotated : expr.ty = some ty)
    (holds : reliance.holds value ty) (allowed : result.allows ty = true)
    (source : value = .nil → expr.looksUp = true ∨ ty = .nil) :
    Runs reliance routines tables tables result
      (do
        let recording ← get
        note (.offered .result (some recording.resultType) expr value)
        perform (Run.enforce expr recording.machine.returnType value)
        return .finish value) := by
  intro before ready inside
  have tested := (offer_computes rfl annotated holds allowed before ready).and
    (note_perform_ends (.offered .result (some result) expr value) _ before)
  refine .after_get ?_
  rw [inside.returnType, inside.resultType, ← bind_assoc]
  refine tested.bind ?_
  rintro _ after ⟨⟨keeps, readyAfter, stored⟩, latest⟩
  refine ⟨keeps.continues, readyAfter.sound, readyAfter.orderly, fun _ => readyAfter.shows, ?_⟩
  rintro _ ⟨⟩
  refine ⟨stored, _, _, expr, latest, rfl, fun isNil => (source isNil).imp_right ?_⟩
  rintro rfl
  exact allowed

end Runs

section

variable {context : Context} {call : Caller}

theorem condition_computes (supports : context.base.Supports reliance routines)
    (calls : call.Sound reliance routines context.base) {expr : Expr} {ty : Ty}
    (typed : context.Types expr ty) :
    Computes reliance routines context.tables (condition call expr) fun _ => True :=
  (evaluate_computes supports calls expr typed).bind fun value _ =>
    .ofCause (value.asBoolean_gives.mono fun _ _ => trivial) _

theorem index_computes (supports : context.base.Supports reliance routines)
    (calls : call.Sound reliance routines context.base) {expr : Expr} {ty : Ty}
    (typed : context.Types expr ty) :
    Computes reliance routines context.tables (index call expr) fun _ => True :=
  (evaluate_computes supports calls expr typed).bind fun value _ =>
    .ofCause value.asInteger_gives _

theorem assign_computes (supports : context.base.Supports reliance routines)
    (calls : call.Sound reliance routines context.base) {receiver value : Expr} {target ty : Ty}
    (isAccess : receiver.isAccess = true) (receiverTyped : context.Types receiver target)
    (valueTyped : context.Types value ty) (allowed : target.allows ty = true) :
    Computes reliance routines context.tables (assign call receiver value) fun _ => True := by
  have value_computes := evaluate_computes supports calls value valueTyped
  cases receiverTyped with
  | access known =>
      refine value_computes.bind fun assigned holds => .after_get fun before ready => ?_
      rw [ready.variableType known, ← bind_assoc]
      exact (offer_computes rfl valueTyped.ty_eq holds allowed).bind fun _ stored =>
        .store known stored _
  | element known offsetTyped _ elements =>
      refine (index_computes supports calls offsetTyped).bind fun place _ => ?_
      refine value_computes.bind fun assigned holds => .after_get fun before ready => ?_
      rw [ready.variableType known, Option.bind_some, elements, ← bind_assoc]
      refine (offer_computes rfl valueTyped.ty_eq holds allowed).bind fun _ stored => ?_
      have elementHolds : ∃ element, _ = some element ∧ reliance.holds assigned element :=
        ⟨target, elements, stored⟩
      exact .store known elementHolds _
  | _ => cases isAccess

theorem initialValue_computes (supports : context.base.Supports reliance routines)
    (calls : call.Sound reliance routines context.base) {declared : Option Ty}
    {initializer : Option Expr} {found : Variable}
    (initial : context.Initializes declared initializer found.ty) :
    Computes reliance routines context.tables
      (initialValue call
        (fun initializer value => note (.offered .declaration declared initializer value))
        (some found) initializer)
      (reliance.holds · found.ty) := by
  cases initial with
  | missing => exact .pure (reliance.nil _)
  | given typed allowed =>
      simp only [initialValue]
      refine (evaluate_computes supports calls _ typed).bind fun value holds => ?_
      rw [← bind_assoc]
      exact (offer_computes rfl typed.ty_eq holds allowed).bind fun _ stored => .pure stored
  | inferred typed =>
      simp only [initialValue]
      refine (evaluate_computes supports calls _ typed).bind fun value holds => ?_
      rw [← bind_assoc]
      -- Without a stated type the slot is of the type of the value, which the test lets pass.
      refine (Computes.offer rfl ?_ ?_ ?_).bind fun _ _ => .pure holds
      · exact fun notDeclaration => absurd rfl notDeclaration
      · intro _ impossible
        cases impossible
      · exact fun _ isTested => .inr (typed.ty_eq.trans isTested)

mutual

/-- A well-typed statement runs, and leads to where the next one is well typed. -/
theorem execute_runs {context after : Context} (statement : Stmt)
    (accepted : Context.Accepts context result statement after)
    (supports : context.base.Supports reliance routines)
    (calls : call.Sound reliance routines context.base) (budget : Nat) :
    Runs reliance routines context.tables after.tables result (execute call budget statement) := by
  cases statement with
  | expression span expr =>
      cases accepted with
      | expression typed =>
          simp only [execute]
          exact .after_computes (evaluate_computes supports calls expr typed) fun _ _ => .goOn
  | declaration span name typeName initializer binding =>
      cases accepted with
      | declaration inside fresh known initial =>
          simp only [execute, Context.tables, inside, List.cons_append]
          refine .after_computes ?_ fun value holds => .declare fresh holds span.start
          have computes := initialValue_computes supports calls initial
          rw [Context.tables, inside, List.cons_append] at computes
          exact computes
  | assignment span receiver value =>
      cases accepted with
      | assignment isAccess receiverTyped _ valueTyped allowed =>
          simp only [execute]
          have assigned := assign_computes supports calls isAccess receiverTyped valueTyped allowed
          exact .after_computes assigned fun _ _ => .goOn
  | branch span test thenBody elseBody =>
      cases accepted with
      | branch typed _ thenAccepted elseAccepted =>
          simp only [execute]
          refine .after_computes (condition_computes supports calls typed) fun holds _ => ?_
          split
          · exact (executeAll_runs thenBody thenAccepted supports calls budget).inScope
          · exact (executeAll_runs elseBody elseAccepted supports calls budget).inScope
  | switch span subject cases =>
      cases accepted with
      | switch typed casesAccepted =>
          simp only [execute]
          exact .after_computes (evaluate_computes supports calls subject typed) fun value _ =>
            executeCases_runs cases casesAccepted supports calls budget value
  | loop span test body =>
      cases accepted with
      | loop typed _ bodyAccepted =>
          simp only [execute]
          exact .repeatWhile (condition_computes supports calls typed)
            (executeAll_runs body bodyAccepted supports calls budget).inScope budget
  | result span expr =>
      cases accepted with
      | result typed allowed =>
          simp only [execute]
          have computes := (evaluate_computes supports calls expr typed).and_yields
            (evaluate_yields typed)
          refine .after_computes computes ?_
          rintro value ⟨holds, source⟩
          exact .returning typed.ty_eq holds allowed source

theorem executeCases_runs {context : Context} {subjectType : Ty} (cases : Cases)
    (accepted : Context.AcceptsCases context result subjectType cases)
    (supports : context.base.Supports reliance routines)
    (calls : call.Sound reliance routines context.base) (budget : Nat) (subject : Value) :
    Runs reliance routines context.tables context.tables result
      (executeCases call budget subject cases) := by
  cases cases with
  | default span body =>
      cases accepted with
      | default bodyAccepted =>
          simp only [executeCases]
          exact (executeAll_runs body bodyAccepted supports calls budget).inScope
  | case span value body others =>
      cases accepted with
      | case typed _ bodyAccepted rest =>
          simp only [executeCases]
          refine .after_computes (evaluate_computes supports calls value typed) fun value _ => ?_
          split
          · exact (executeAll_runs body bodyAccepted supports calls budget).inScope
          · exact executeCases_runs others rest supports calls budget subject

theorem executeAll_runs {context after : Context} (statements : List Stmt)
    (accepted : Context.AcceptsAll context result statements after)
    (supports : context.base.Supports reliance routines)
    (calls : call.Sound reliance routines context.base) (budget : Nat) :
    Runs reliance routines context.tables after.tables result
      (executeAll call budget statements) := by
  cases statements with
  | nil =>
      cases accepted
      simp only [executeAll]
      exact .goOn
  | cons statement others =>
      cases accepted with
      | cons first rest =>
          simp only [executeAll]
          have same := first.base_eq
          refine (execute_runs statement first supports calls budget).andThen ?_
          exact executeAll_runs others rest (same ▸ supports) (same ▸ calls) budget

end

end

end Recorded

end GradualScript
