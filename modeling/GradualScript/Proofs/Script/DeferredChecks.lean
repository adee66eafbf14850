import GradualScript.Proofs.Script.Soundness

/-!
# Tests that are left to the run

The checker lets a value of type `Any` into a slot of another type, and leaves it to the run to test
the value. The run does so for globals, declared variables, receivers of assignments, parameters and
results: a value that does not fit ends the run, and is not stored. It does not do so for the
elements of a list in brackets that a global starts with. The checker annotates such a list with the
type declared for it, so nothing about it looks like `Any` when it is stored.
-/

namespace GradualScript

variable {moments later earlier : List Moment} {moment : Moment} {slot : Slot} {target : Option Ty}
  {expr : Expr} {value : Value}

/-- What became of an offered value, given the moments after it and why the run stopped, if it did.
-/
structure Treated (stops : Halt → Prop) (later : List Moment) (slot : Slot) (target : Option Ty)
    (expr : Expr) (value : Value) : Prop where
  typed : slot ≠ .declaration → target.isSome = true
  stored : ∀ {name index}, slot = .listElement name index →
    ∃ after ∈ later, after.HasElement name index value
  tested : ∀ {ty}, target = some ty → expr.ty = some .any → slot.isElement = false →
    value.fits ty = true ∨ later = [] ∧ stops (.unfit expr ty value)

theorem Orderly.treated (orderly : Orderly moments) (split : moments = later ++ moment :: earlier)
    (event : moment.event = .offered slot target expr value) (newer : List Moment)
    (stops : Halt → Prop) : Treated stops (newer ++ later) slot target expr value := by
  have fitting := orderly.fitting moment (by simp [split])
  refine ⟨fitting.typed event, ?_, ?_⟩
  · rintro name index rfl
    rcases orderly.stored split event with ⟨after, member, has⟩
    exact ⟨after, List.mem_append_right _ member, has⟩
  · rintro ty rfl deferred notElement
    exact .inl (fitting.fits event notElement deferred)

/-- A value that does not fit is offered at the last moment only. -/
theorem Stopped.treated {halt : Halt} (stopped : Stopped halt moments) {stops : Halt → Prop}
    (reason : stops halt) (split : moments = later ++ moment :: earlier)
    (event : moment.event = .offered slot target expr value) :
    Treated stops later slot target expr value := by
  cases stopped with
  | orderly orderly => exact orderly.treated split event [] stops
  | misfit orderly misfitEvent notElement _ _ =>
      cases later with
      | nil =>
          cases split
          rw [misfitEvent] at event
          cases event
          refine ⟨fun _ => rfl, ?_, ?_⟩
          · rintro _ _ rfl
            cases notElement
          · rintro _ ⟨⟩ _ _
            exact .inr ⟨rfl, reason⟩
      | cons last between =>
          rcases List.cons.inj split with ⟨rfl, rest⟩
          exact orderly.treated rest event [_] stops

/-- A value is tested exactly where it is not the element of a list global. -/
theorem Treated.tested_iff {stops : Halt → Prop}
    (treated : Treated stops later slot target expr value) {ty : Ty} (typed : target = some ty)
    (deferred : expr.ty = some .any) :
    (value.fits ty = true ∨ later = [] ∧ stops (.unfit expr ty value)) ↔
      (slot.isElement = false ∨ value.fits ty = true) := by
  constructor
  · rintro (fits | ⟨isLast, _⟩)
    · exact .inr fits
    · cases slot with
      | listElement name index =>
          rcases treated.stored rfl with ⟨_, member, _⟩
          rw [isLast] at member
          cases member
      | _ => exact .inl rfl
  · rintro (notElement | fits)
    · exact treated.tested typed deferred notElement
    · exact .inl fits

namespace Script

variable {source file : String} {program : Program}

/-- Where the value of an expression of type `Any` is offered to a slot of a declared type, it fits
the type or the run stops there before anything else happens, exactly if the slot is not the element
of a list global or the value fits anyway. Elements of list globals are stored whatever they are. -/
theorem deferred_checks (compiled : compile source file = .ok program) (budget : Nat)
    (limit : Option Nat) :
    let recorded := Recorded.program budget program (.initial limit)
    Recorded.forget recorded = Run.program budget program (.initial limit) ∧
      ∀ {later moment earlier slot target expr value},
        (Recorded.last recorded).moments = later ++ moment :: earlier →
        moment.event = .offered slot target expr value →
          (slot ≠ .declaration → target.isSome = true) ∧
          (∀ {name index}, slot = .listElement name index →
            ∃ after ∈ later, after.HasElement name index value) ∧
          ∀ {ty}, target = some ty → expr.ty = some .any →
            ((value.fits ty = true ∨ later = [] ∧ ∃ machine,
                Run.program budget program (.initial limit) =
                  .error (.unfit expr ty value) machine) ↔
              (slot.isElement = false ∨ value.fits ty = true)) := by
  intro recorded
  have erases := Recorded.program_erases budget program (.initial limit)
  refine ⟨erases, ?_⟩
  intro later moment earlier slot target expr value split event
  let stops (halt : Halt) : Prop :=
    ∃ machine, Run.program budget program (.initial limit) = .error halt machine
  have ends := recorded_ends compiled (fun _ => trivial)
    (fun global _ => global.reliable_nothing) budget limit
  have treated : Treated stops later slot target expr value := by
    unfold Recorded.Ends at ends
    cases result : Recorded.program budget program (.initial limit) with
    | ok _ after =>
        rw [result] at ends
        simp only [recorded, result, Recorded.last] at split
        exact ends.2.1.treated split event [] stops
    | error halt after =>
        rw [result] at ends erases
        simp only [recorded, result, Recorded.last] at split
        exact ends.2.1.treated ⟨after.machine, erases.symm⟩ split event
  exact ⟨treated.typed, treated.stored, treated.tested_iff⟩

/-- A text is not stored in a global of type `Integer`. -/
theorem deferred_checks_global : ∃ program moment earlier expr text,
    compile "VAR a: Any = \"x\"; VAR b: Integer = a; FUN main(): Integer DO RETURN 0; END"
      "main.plc" = .ok program ∧
    (Recorded.last (Recorded.program 9 program (.initial none))).moments = moment :: earlier ∧
    moment.event = .offered .global (some .integer) expr (.string text) ∧
    expr.ty = some .any ∧
    ∃ machine, Run.program 9 program (.initial none) =
      .error (.unfit expr .integer (.string text)) machine := by
  have evaluated : ((compile
      "VAR a: Any = \"x\"; VAR b: Integer = a; FUN main(): Integer DO RETURN 0; END"
      "main.plc").toOption.any fun program =>
        (Recorded.last (Recorded.program 9 program (.initial none))).moments.head?.any fun moment =>
          moment.event.offers .global .integer fun expr value =>
            expr.ty = some .any && value.same (.string "x")) = true := by decide +kernel
  rcases exists_ok_of_any evaluated with ⟨program, compiled, passes⟩
  rcases (Option.any_eq_true _ _).mp passes with ⟨moment, latest, offers⟩
  rcases Event.exists_of_offers offers with ⟨expr, value, event, isText⟩
  simp only [Bool.and_eq_true, decide_eq_true_eq] at isText
  rcases isText with ⟨deferred, same⟩
  cases Value.eq_string_of_same same
  rcases List.head?_eq_some_iff.mp latest with ⟨earlier, moments⟩
  have split : _ = [] ++ moment :: earlier := moments
  rcases (deferred_checks compiled 9 none).2 split event with ⟨_, _, tested⟩
  rcases (tested rfl deferred).mpr (.inl rfl) with fits | ⟨_, stops⟩
  · cases fits
  · exact ⟨program, moment, earlier, expr, "x", compiled, moments, event, deferred, stops⟩

/-- A text is stored in a list of whole numbers, and the script goes on to give it as its result. -/
theorem list_element_untested : ∃ program text machine moment expr,
    compile "VAR a: Any = \"x\"; LIST l: Integer = [a]; FUN main(): Integer DO RETURN l[0]; END"
      "main.plc" = .ok program ∧
    Run.program 9 program (.initial none) = .ok (.string text) machine ∧
    moment ∈ (Recorded.last (Recorded.program 9 program (.initial none))).moments ∧
    moment.event = .offered (.listElement "l" 0) (some .integer) expr (.string text) ∧
    expr.ty = some .any ∧ (Value.string text).fits .integer = false := by
  have evaluated : ((compile
      "VAR a: Any = \"x\"; LIST l: Integer = [a]; FUN main(): Integer DO RETURN l[0]; END"
      "main.plc").toOption.any fun program =>
        (Run.value? (Run.program 9 program (.initial none))).any (·.same (.string "x")) &&
        (Recorded.last (Recorded.program 9 program (.initial none))).moments.any fun moment =>
          moment.event.offers (.listElement "l" 0) .integer fun expr value =>
            expr.ty = some .any && value.same (.string "x")) = true := by decide +kernel
  rcases exists_ok_of_any evaluated with ⟨program, compiled, passes⟩
  rcases Bool.and_eq_true_iff.mp passes with ⟨some_text, stored⟩
  rcases (Option.any_eq_true _ _).mp some_text with ⟨result, found, resultSame⟩
  cases Value.eq_string_of_same resultSame
  rcases Run.exists_of_value? found with ⟨machine, finished⟩
  rcases List.any_eq_true.mp stored with ⟨moment, member, offers⟩
  rcases Event.exists_of_offers offers with ⟨expr, value, event, isText⟩
  simp only [Bool.and_eq_true, decide_eq_true_eq] at isText
  rcases isText with ⟨deferred, same⟩
  cases Value.eq_string_of_same same
  exact ⟨program, "x", machine, moment, expr, compiled, finished, member, event, deferred, rfl⟩

end Script

end GradualScript
