import GradualScript.Proofs.Machine.Recording
import GradualScript.Proofs.Scope.Mirror
import GradualScript.Proofs.Value.Conformance

/-!
# What recorded runs keep

The invariant of a recorded run of a checked program. The declared variables and those of the
machine stand side by side, and each value is as its type lets rely on; what a name means to the
running piece of program is what the checker saw; and of all moments so far, values that were left
to be tested fit the types declared for them, except for the elements of a list global, which are
stored as they are.

`Recorded.Computes` is the form of what is proved about expressions: it takes a recording that is
ready for the expression to one that is ready for what comes after it, or stops for a reason that
has nothing to do with names. A value that does not fit is the last moment of a run.
-/

namespace GradualScript

/-- Whether a run ended because of a name, or because a scope was missing. -/
def Halt.isNaming : Halt → Bool
  | .reported diagnostic => diagnostic.cause.isNaming
  | .dangling => true
  | .severed | .exhausted => false

/-- The reason for which a run stops at a value that does not fit. -/
def Halt.unfit (expr : Expr) (ty : Ty) (value : Value) : Halt :=
  .reported (.located (value.mismatch ty.name) expr.start)

/-- Whether a variable of the machine is as it was declared. At run time every variable may be given
a new value. -/
def Reliance.Stores (reliance : Reliance) (found : Variable) (cell : Cell) : Prop :=
  reliance.holds cell.value found.ty ∧ cell.isMutable = true

/-- A value that passed its test may be relied on to be of the type declared for it. -/
theorem Reliance.stored (reliance : Reliance) {value : Value} {target ty : Ty}
    (known : reliance.holds value ty) (allowed : target.allows ty = true)
    (tested : ty = .any → value.fits target = true) : reliance.holds value target := by
  simp only [Ty.allows, Bool.or_eq_true, decide_eq_true_eq] at allowed
  rcases allowed with isAny | admits
  · exact reliance.fits (tested isAny)
  · exact reliance.admitted known admits

theorem Reliance.listed (reliance : Reliance) {values : List Value} {types : List Ty}
    (each : ∀ value ∈ values, ∃ ty ∈ types, reliance.holds value ty) :
    reliance.holds (.list values) (Ty.ofElements types) := by
  cases types with
  | nil => exact reliance.list fun value _ => reliance.any value
  | cons first others =>
      simp only [Ty.ofElements]
      split
      · rename_i alike
        simp only [List.all_eq_true, decide_eq_true_eq] at alike
        refine reliance.list fun value member => ?_
        rcases each value member with ⟨ty, among, holds⟩
        rcases List.mem_cons.mp among with rfl | later
        · exact holds
        · rw [← alike ty later]
          exact holds
      · exact reliance.list fun value _ => reliance.any value

/-- Whether a slot is an element of a list global. -/
def Slot.isElement : Slot → Bool
  | listElement _ _ => true
  | _ => false

namespace Moment

/-- Whether a noted value and all variables are as their types let rely on. -/
structure Sound (reliance : Reliance) (moment : Moment) : Prop where
  valued : ∀ {expr value ty}, moment.event = .valued expr value → expr.ty = some ty →
    reliance.holds value ty
  cells : moment.declared.Mirrors reliance.Stores moment.machine.arena

/-- Whether a value that was left to be tested fits the type declared for its slot. All slots but
those of variables without a stated type have one. -/
structure Fitting (moment : Moment) : Prop where
  typed : ∀ {slot target expr value}, moment.event = .offered slot target expr value →
    slot ≠ .declaration → target.isSome = true
  fits : ∀ {slot ty expr value}, moment.event = .offered slot (some ty) expr value →
    slot.isElement = false → expr.ty = some .any → value.fits ty = true

/-- Whether a list global has a value at an index. -/
def HasElement (moment : Moment) (name : String) (index : Nat) (value : Value) : Prop :=
  ∃ values isMutable,
    moment.machine.arena.findVariable Arena.root name = .ok (some ⟨.list values, isMutable⟩) ∧
      values[index]? = some value

/-- A moment that offers no value is fitting. -/
theorem fitting_of_not_offered {moment : Moment}
    (silent : ∀ slot target expr value, moment.event ≠ .offered slot target expr value) :
    moment.Fitting :=
  ⟨fun event _ => absurd event (silent _ _ _ _), fun event _ _ => absurd event (silent _ _ _ _)⟩

end Moment

/-- Moments, the latest first, at which all values fit that had to, and at which elements of list
globals were stored as they were. -/
structure Orderly (moments : List Moment) : Prop where
  fitting : ∀ moment ∈ moments, moment.Fitting
  stored : ∀ {later moment earlier}, moments = later ++ moment :: earlier →
    ∀ {name index target expr value},
      moment.event = .offered (.listElement name index) target expr value →
        ∃ after ∈ later, after.HasElement name index value

namespace Orderly

theorem nil : Orderly [] := ⟨by simp, by simp⟩

theorem cons {moment : Moment} {moments : List Moment} (orderly : Orderly moments)
    (fitting : moment.Fitting) (notElement : ∀ name index target expr value,
      moment.event ≠ .offered (.listElement name index) target expr value) :
    Orderly (moment :: moments) := by
  refine ⟨?_, ?_⟩
  · intro other member
    rcases List.mem_cons.mp member with rfl | earlier
    · exact fitting
    · exact orderly.fitting other earlier
  · intro later other earlier split name index target expr value event
    cases later with
    | nil =>
        cases split
        exact absurd event (notElement _ _ _ _ _)
    | cons latest later =>
        rcases orderly.stored (List.cons.inj split).2 event with ⟨after, member, has⟩
        exact ⟨after, List.mem_cons_of_mem _ member, has⟩

theorem cons_of_not_offered {moment : Moment} {moments : List Moment} (orderly : Orderly moments)
    (silent : ∀ slot target expr value, moment.event ≠ .offered slot target expr value) :
    Orderly (moment :: moments) := by
  refine orderly.cons (Moment.fitting_of_not_offered silent) ?_
  intro name index
  exact silent (.listElement name index)

end Orderly

/-- How the moments of a run that stopped end: a value that does not fit is offered at the last
moment, if at any, and is why the run stopped. -/
inductive Stopped : Halt → List Moment → Prop
  | orderly {halt : Halt} {moments : List Moment} (orderly : Orderly moments) :
      Stopped halt moments
  | misfit {moment : Moment} {moments : List Moment} {slot : Slot} {ty : Ty} {expr : Expr}
      {value : Value} (orderly : Orderly moments)
      (event : moment.event = .offered slot (some ty) expr value)
      (notElement : slot.isElement = false) (deferred : expr.ty = some .any)
      (unfit : value.fits ty = false) :
      Stopped (.reported (.located (value.mismatch ty.name) expr.start)) (moment :: moments)

namespace Recording

section

variable (reliance : Reliance) (routines : Table (String × Nat) Routine)

/-- Whether the values of variables, now and at all moments, are as their types let rely on, and the
machine has the given functions. -/
structure Sound (recording : Recording) : Prop where
  cells : recording.declared.Mirrors reliance.Stores recording.machine.arena
  functions : recording.machine.arena.Declares routines
  moments : ∀ moment ∈ recording.moments, moment.Sound reliance

/-- Whether a piece of program that sees the given variables can go on from here. -/
structure Ready (tables : List (Table String Variable)) (recording : Recording) : Prop where
  sound : recording.Sound reliance routines
  orderly : Orderly recording.moments
  shows : recording.declared.Shows recording.machine.current tables

/-- Whether a later recording is in the same scope of the same call, where at most the variables of
the scope itself were declared in between. -/
structure Continues (before after : Recording) : Prop where
  current : after.machine.current = before.machine.current
  returnType : after.machine.returnType = before.machine.returnType
  resultType : after.resultType = before.resultType
  declared : before.declared.SameBut before.machine.current after.declared

/-- Whether a later recording is in the same scope, where nothing was declared in between. -/
structure Keeps (before after : Recording) : Prop where
  current : after.machine.current = before.machine.current
  returnType : after.machine.returnType = before.machine.returnType
  resultType : after.resultType = before.resultType
  declared : after.declared = before.declared

/-- Whether a run that started from one recording may have stopped at another. -/
structure Stops (before : Recording) (halt : Halt) (after : Recording) : Prop where
  continues : before.Continues after
  sound : after.Sound reliance routines
  stopped : Stopped halt after.moments
  notNaming : halt.isNaming = false

end

variable {reliance : Reliance} {routines : Table (String × Nat) Routine}
  {tables : List (Table String Variable)} {before middle after : Recording} {halt : Halt}

theorem Keeps.refl (recording : Recording) : recording.Keeps recording := ⟨rfl, rfl, rfl, rfl⟩

theorem Keeps.trans (earlier : before.Keeps middle) (later : middle.Keeps after) :
    before.Keeps after :=
  ⟨later.current.trans earlier.current, later.returnType.trans earlier.returnType,
    later.resultType.trans earlier.resultType, later.declared.trans earlier.declared⟩

theorem Keeps.continues (keeps : before.Keeps after) : before.Continues after :=
  ⟨keeps.current, keeps.returnType, keeps.resultType, keeps.declared ▸ .refl _ _⟩

theorem Continues.trans (earlier : before.Continues middle) (later : middle.Continues after) :
    before.Continues after := by
  refine ⟨later.current.trans earlier.current, later.returnType.trans earlier.returnType,
    later.resultType.trans earlier.resultType, earlier.declared.trans ?_⟩
  rw [← earlier.current]
  exact later.declared

theorem Stops.trans (earlier : before.Continues middle)
    (later : middle.Stops reliance routines halt after) :
    before.Stops reliance routines halt after :=
  { later with continues := earlier.trans later.continues }

/-- A moment that is as it should be may be noted. -/
theorem Sound.noted (sound : before.Sound reliance routines) {moment : Moment}
    (soundThen : moment.Sound reliance) :
    Sound reliance routines { before with moments := moment :: before.moments } := by
  refine ⟨sound.cells, sound.functions, ?_⟩
  intro other member
  rcases List.mem_cons.mp member with rfl | earlier
  · exact soundThen
  · exact sound.moments other earlier

/-- What a piece of program sees stays as it is as long as nothing is declared. -/
theorem Keeps.ready (keeps : before.Keeps after) (sound : after.Sound reliance routines)
    (orderly : Orderly after.moments) (ready : before.Ready reliance routines tables) :
    after.Ready reliance routines tables := by
  refine ⟨sound, orderly, ?_⟩
  rw [keeps.declared, keeps.current]
  exact ready.shows

/-- A run may stop where it is, for a reason that has nothing to do with names. -/
theorem Ready.stops (ready : before.Ready reliance routines tables)
    (notNaming : halt.isNaming = false) : before.Stops reliance routines halt before :=
  ⟨(Keeps.refl before).continues, ready.sound, .orderly ready.orderly, notNaming⟩

end Recording

namespace Recorded

variable {α β : Type}

/-- Whether a recorded run comes to an end as stated, with a value or without. -/
def Ends (recorded : Recorded α) (before : Recording) (done : α → Recording → Prop)
    (stopped : Halt → Recording → Prop) : Prop :=
  match recorded before with
  | .ok value after => done value after
  | .error halt after => stopped halt after

section

variable {recorded : Recorded α} {next : α → Recorded β} {before : Recording}
  {done weaker : α → Recording → Prop} {doneNext : β → Recording → Prop}
  {stopped stoppedWeaker : Halt → Recording → Prop}

theorem Ends.bind (first : recorded.Ends before done stopped)
    (rest : ∀ value after, done value after → (next value).Ends after doneNext stopped) :
    Ends (recorded >>= next) before doneNext stopped := by
  unfold Ends at first ⊢
  simp only [Bind.bind, EStateM.bind]
  cases result : recorded before with
  | ok value after =>
      rw [result] at first
      exact rest value after first
  | error halt after =>
      rw [result] at first
      exact first

theorem Ends.after_get {next : Recording → Recorded α}
    (ends : (next before).Ends before done stopped) :
    Ends (get >>= next) before done stopped :=
  ends

theorem Ends.mono (ends : recorded.Ends before done stopped)
    (whenDone : ∀ value after, done value after → weaker value after)
    (whenStopped : ∀ halt after, stopped halt after → stoppedWeaker halt after) :
    recorded.Ends before weaker stoppedWeaker := by
  unfold Ends at ends ⊢
  cases result : recorded before with
  | ok value after =>
      rw [result] at ends
      exact whenDone value after ends
  | error halt after =>
      rw [result] at ends
      exact whenStopped halt after ends

theorem Ends.and {other : α → Recording → Prop} (ends : recorded.Ends before done stopped)
    (also : recorded.Ends before other fun _ _ => True) :
    recorded.Ends before (fun value after => done value after ∧ other value after) stopped := by
  unfold Ends at ends also ⊢
  cases result : recorded before with
  | ok value after =>
      rw [result] at ends also
      exact ⟨ends, also⟩
  | error halt after =>
      rw [result] at ends
      exact ends

/-- What continues a later recording continues an earlier one. -/
theorem Ends.continuing {reliance : Reliance} {routines : Table (String × Nat) Routine}
    {tables : List (Table String Variable)} {middle : Recording}
    (ends : recorded.Ends middle
      (fun _ after => middle.Continues after ∧ after.Ready reliance routines tables)
      (middle.Stops reliance routines))
    (continues : before.Continues middle) :
    recorded.Ends middle
      (fun _ after => before.Continues after ∧ after.Ready reliance routines tables)
      (before.Stops reliance routines) := by
  apply ends.mono
  · rintro _ after ⟨later, ready⟩
    exact ⟨continues.trans later, ready⟩
  · intro _ after stops
    exact .trans continues stops

theorem Ends.last (ends : recorded.Ends before done stopped) (holds : Recording → Prop)
    (whenDone : ∀ value after, done value after → holds after)
    (whenStopped : ∀ halt after, stopped halt after → holds after) :
    holds (Recorded.last (recorded before)) := by
  unfold Ends at ends
  cases result : recorded before with
  | ok value after =>
      rw [result] at ends
      exact whenDone value after ends
  | error halt after =>
      rw [result] at ends
      exact whenStopped halt after ends

end

/-- Whether something computes a value of which something is known, for a piece of program that sees
the given variables. -/
def Computes (reliance : Reliance) (routines : Table (String × Nat) Routine)
    (tables : List (Table String Variable)) (recorded : Recorded α) (known : α → Prop) : Prop :=
  ∀ before : Recording, before.Ready reliance routines tables →
    recorded.Ends before
      (fun value after =>
        before.Keeps after ∧ after.Ready reliance routines tables ∧ known value)
      (before.Stops reliance routines)

namespace Computes

variable {reliance : Reliance} {routines : Table (String × Nat) Routine}
  {tables : List (Table String Variable)} {recorded : Recorded α} {known weaker : α → Prop}

protected theorem pure {value : α} (holds : known value) :
    Computes reliance routines tables (pure value) known :=
  fun before ready => ⟨.refl before, ready, holds⟩

protected theorem throw {halt : Halt} (notNaming : halt.isNaming = false) :
    Computes reliance routines tables (throw halt) known :=
  fun _ ready => ready.stops notNaming

theorem mono (computes : Computes reliance routines tables recorded known)
    (implies : ∀ value, known value → weaker value) :
    Computes reliance routines tables recorded weaker := by
  intro before ready
  refine (computes before ready).mono ?_ fun _ _ stops => stops
  rintro value after ⟨keeps, readyAfter, holds⟩
  exact ⟨keeps, readyAfter, implies value holds⟩

protected theorem bind {next : α → Recorded β} {knownNext : β → Prop}
    (computes : Computes reliance routines tables recorded known)
    (rest : ∀ value, known value → Computes reliance routines tables (next value) knownNext) :
    Computes reliance routines tables (recorded >>= next) knownNext := by
  intro before ready
  refine (computes before ready).bind ?_
  rintro value middle ⟨keeps, readyMiddle, holds⟩
  refine (rest value holds middle readyMiddle).mono ?_ fun _ _ stops => .trans keeps.continues stops
  rintro result after ⟨keepsAfter, readyAfter, holdsAfter⟩
  exact ⟨keeps.trans keepsAfter, readyAfter, holdsAfter⟩

theorem after_get {next : Recording → Recorded α}
    (rest : ∀ before : Recording, before.Ready reliance routines tables →
      Computes reliance routines tables (next before) known) :
    Computes reliance routines tables (get >>= next) known :=
  fun before ready => rest before ready before ready

theorem ite {condition : Prop} [Decidable condition] {other : Recorded α}
    (whenTrue : condition → Computes reliance routines tables recorded known)
    (whenFalse : ¬condition → Computes reliance routines tables other known) :
    Computes reliance routines tables (if condition then recorded else other) known := by
  split
  · rename_i holds
    exact whenTrue holds
  · rename_i fails
    exact whenFalse fails

end Computes

end Recorded

end GradualScript
