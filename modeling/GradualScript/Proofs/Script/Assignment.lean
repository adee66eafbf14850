import GradualScript.Proofs.Scope.Environment
import GradualScript.Proofs.Machine.Reordering
import GradualScript.Proofs.Script.ScopeDiscipline
import GradualScript.Proofs.Script.Soundness

/-!
# What an assignment changes

An assignment first evaluates its operands, which may call functions that change variables, among
them the one that is assigned to. `Run.operands` is that part, and `Run.assign_eq` says that it
comes before everything else. From there on one variable changes or none: the nearest one of the
name that the receiver has, as it is by then, gets the value, or its list a new element, unless
there is a reason to refuse. The reasons and the change are spelled out by `Run.Refuses` and
`Run.Stores`.
-/

namespace GradualScript

/-! ## Elements of lists -/

/-- What a variable holds after an assignment, given what it held: the value, or at an index the
same list with another element. -/
inductive Value.Replaced (old assigned : Value) : Option Int64 → Value → Prop
  | whole : Replaced old assigned none assigned
  | element {index : Int64} {slot : Nat} {before after : List Value} (isList : old = .list before)
      (isSlot : index.toInt = slot) (inside : slot < before.length)
      (length : after.length = before.length) (here : after[slot]? = some assigned)
      (elsewhere : ∀ other, other ≠ slot → after[other]? = before[other]?) :
      Replaced old assigned (some index) (.list after)

namespace Value

variable {old assigned : Value} {index : Int64}

theorem setElement_of_not_list (noList : ∀ values, old ≠ .list values) :
    old.setElement index assigned = .error (old.mismatch "List") := by
  cases old with
  | list values => exact absurd rfl (noList values)
  | _ => rfl

theorem setElement_of_outside {values : List Value}
    (outside : ¬(0 ≤ index.toInt ∧ index.toInt < values.length)) :
    setElement (.list values) index assigned =
      .error (.indexOutOfBounds index.toInt values.length) := by
  simp [setElement, asList, slot, outside, bind, Except.bind]

theorem exists_setElement {values : List Value} (notNegative : 0 ≤ index.toInt)
    (below : index.toInt < values.length) :
    ∃ new, setElement (.list values) index assigned = .ok new ∧
      Replaced (.list values) assigned (some index) new := by
  obtain ⟨place, isSlot⟩ := Int.eq_ofNat_of_zero_le notNegative
  have inside : place < values.length := by omega
  refine ⟨.list (values.set place assigned), ?_, ?_⟩
  · simp [setElement, asList, slot, isSlot, inside, bind, Except.bind, pure, Except.pure]
  · apply Replaced.element rfl isSlot inside (List.length_set ..)
    · simp [inside]
    · intro other apart
      simp [Ne.symm apart]

end Value

namespace Run

variable {call : Caller} {receiver value : Expr} {name : String} {index : Option Int64}
  {assigned : Value} {machine : Machine}

/-! ## Operands -/

/-- The index in the brackets of a receiver, if it has brackets. -/
def receiverIndex (call : Caller) : Expr → Run (Option Int64)
  | .element _ _ _ _ offset => do return some (← Run.index call offset)
  | _ => return none

/-- What an assignment evaluates before anything else: the index, and then the value. -/
def operands (call : Caller) (receiver value : Expr) : Run (Option Int64 × Value) := do
  let index ← receiverIndex call receiver
  let assigned ← evaluate call value
  return (index, assigned)

theorem assign_eq (names : receiver.assigned? = some name) :
    assign call receiver value = operands call receiver value >>= fun made =>
      enforce value receiver.ty made.2 >>= fun _ => store name made.1 made.2 receiver.start := by
  cases receiver with
  | access span ty other binding =>
      cases names
      simp only [assign, operands, receiverIndex, pure_bind, bind_assoc]
      rfl
  | element span ty other binding offset =>
      cases names
      simp only [assign, operands, receiverIndex, pure_bind, bind_assoc]
      rfl
  | _ => cases names

theorem assign_of_no_target (noTarget : receiver.assigned? = none) :
    assign call receiver value = report .invalidTarget receiver.start := by
  cases receiver with
  | access span ty other binding => cases noTarget
  | element span ty other binding offset => cases noTarget
  | _ => rfl

theorem receiverIndex_wellFormed (budget : Nat) (wellFormed : machine.WellFormed)
    {after : Machine} (made : receiverIndex (Run.call budget) receiver machine = .ok index after) :
    after.WellFormed := by
  cases receiver with
  | element span ty other binding offset =>
      have comesBack := comesBack_of_disciplined
        (Recorded.index_erases (Recorded.call_erases budget) offset)
        (Recorded.index_disciplined (Recorded.call_disciplined .empty budget) [] offset) wellFormed
      cases found : Run.index (Run.call budget) offset machine with
      | ok slot middle =>
          rw [receiverIndex, bind_of_ok found] at made
          cases made
          rw [found] at comesBack
          cases comesBack with
          | ok restored => exact restored.wellFormed
      | error halt middle =>
          rw [receiverIndex, bind_of_error found] at made
          cases made
  | _ =>
      cases made
      exact wellFormed

theorem operands_wellFormed (budget : Nat) (wellFormed : machine.WellFormed) {after : Machine}
    (made : operands (Run.call budget) receiver value machine = .ok (index, assigned) after) :
    after.WellFormed := by
  cases first : receiverIndex (Run.call budget) receiver machine with
  | error halt middle =>
      rw [operands, bind_of_error first] at made
      cases made
  | ok slot middle =>
      have formed := receiverIndex_wellFormed budget wellFormed first
      have comesBack := comesBack_of_disciplined
        (Recorded.evaluate_erases (Recorded.call_erases budget) value)
        (Recorded.evaluate_disciplined (Recorded.call_disciplined .empty budget) [] value) formed
      rw [operands, bind_of_ok first] at made
      cases second : evaluate (Run.call budget) value middle with
      | error halt last =>
          rw [bind_of_error second] at made
          cases made
      | ok result last =>
          rw [bind_of_ok second] at made
          cases made
          rw [second] at comesBack
          cases comesBack with
          | ok restored => exact restored.wellFormed

/-! ## Storing -/

/-- Why an assignment is refused once its operands are known, and at which place. -/
inductive Refuses (machine : Machine) (receiver value : Expr) (name : String)
    (index : Option Int64) (assigned : Value) : Cause → Position → Prop
  /-- The checker left the test of the value to the run, and it does not fit. -/
  | unfit {ty : Ty} (expected : receiver.ty = some ty) (deferred : value.ty = some .any)
      (fails : assigned.fits ty = false) :
      Refuses machine receiver value name index assigned (.valueMismatch ty.name assigned.kindName)
        value.start
  | unknown (nowhere : ∀ owner cell,
      ¬machine.arena.Nearest (.ofVariable name) machine.current owner (.inl cell)) :
      Refuses machine receiver value name index assigned (.variableUndefined name) receiver.start
  | constant {owner : ScopeId} {cell : Cell}
      (nearest : machine.arena.Nearest (.ofVariable name) machine.current owner (.inl cell))
      (fixed : cell.isMutable = false) :
      Refuses machine receiver value name index assigned (.variableConstant name) receiver.start
  | noList {owner : ScopeId} {cell : Cell} {slot : Int64} (indexed : index = some slot)
      (nearest : machine.arena.Nearest (.ofVariable name) machine.current owner (.inl cell))
      (noList : ∀ values, cell.value ≠ .list values) :
      Refuses machine receiver value name index assigned
        (.valueMismatch "List" cell.value.kindName) receiver.start
  | outside {owner : ScopeId} {cell : Cell} {slot : Int64} {values : List Value}
      (indexed : index = some slot)
      (nearest : machine.arena.Nearest (.ofVariable name) machine.current owner (.inl cell))
      (isList : cell.value = .list values)
      (outside : ¬(0 ≤ slot.toInt ∧ slot.toInt < values.length)) :
      Refuses machine receiver value name index assigned
        (.indexOutOfBounds slot.toInt values.length) receiver.start

/-- What comes of an assignment once its operands are known: it is refused and changes nothing, or
it changes what the nearest variable of the name holds and nothing else. -/
inductive Stores {α : Type} (machine : Machine) (receiver value : Expr) (name : String)
    (index : Option Int64) (assigned : Value) : EStateM.Result Halt Machine α → Prop
  | refused {cause : Cause} {position : Position}
      (reason : Refuses machine receiver value name index assigned cause position) :
      Stores machine receiver value name index assigned
        (.error (.reported (.located cause position)) machine)
  | changed {outcome : α} {owner : ScopeId} {old new : Value} {arena : Arena Cell Routine}
      (passes : ∀ ty, receiver.ty = some ty → value.ty = some .any → assigned.fits ty = true)
      (nearest :
        machine.arena.Nearest (.ofVariable name) machine.current owner (.inl ⟨old, true⟩))
      (replaced : old.Replaced assigned index new)
      (sets : machine.arena.Sets owner (.ofVariable name) (.inl ⟨new, true⟩) arena) :
      Stores machine receiver value name index assigned (.ok outcome { machine with arena })

theorem store_stores (wellFormed : machine.WellFormed)
    (passes : ∀ ty, receiver.ty = some ty → value.ty = some .any → assigned.fits ty = true) :
    Stores machine receiver value name index assigned
      (store name index assigned receiver.start machine) := by
  have found_iff (owner : ScopeId) (cell : Cell) :
      machine.arena.search (·.variableTable.find? name) machine.current = .ok (some (owner, cell)) ↔
        machine.arena.Nearest (.ofVariable name) machine.current owner (.inl cell) :=
    wellFormed.ordered.search_eq_some_iff wellFormed.inside
  rcases wellFormed.ordered.search (·.variableTable.find? name) wellFormed.inside with
    ⟨place, searched⟩
  rcases place with _ | ⟨owner, ⟨old, isMutable⟩⟩
  · rw [store, bind_of_error (cellAt_of_nowhere searched _)]
    apply Stores.refused
    apply Refuses.unknown
    intro owner cell nearest
    rw [(found_iff owner cell).mpr nearest] at searched
    cases searched
  · have nearest := (found_iff owner _).mp searched
    rcases Arena.exists_of_searchWithin searched with ⟨scope, found, has⟩
    rw [store, bind_of_ok (cellAt_of_search searched _)]
    cases isMutable with
    | false => exact .refused (.constant nearest rfl)
    | true =>
        have gives (new : Value) (replaced : old.Replaced assigned index new) :
            Stores machine receiver value name index assigned
              (reassign name ⟨new, true⟩ receiver.start machine) := by
          rw [reassign_of_search searched]
          exact .changed passes nearest replaced (Arena.sets_give found has _)
        cases index with
        | none => exact gives assigned .whole
        | some slot =>
            simp only
            cases old with
            | list values =>
                by_cases inside : 0 ≤ slot.toInt ∧ slot.toInt < values.length
                · rcases Value.exists_setElement inside.1 inside.2 with ⟨new, made, replaced⟩
                  rw [made]
                  exact gives new replaced
                · rw [Value.setElement_of_outside inside]
                  exact .refused (.outside rfl nearest rfl inside)
            | _ =>
                rw [Value.setElement_of_not_list (by simp)]
                exact .refused (.noList rfl nearest (by simp))

theorem assign_stores (budget : Nat) (wellFormed : machine.WellFormed) {after : Machine}
    (names : receiver.assigned? = some name)
    (made : operands (Run.call budget) receiver value machine = .ok (index, assigned) after) :
    Stores after receiver value name index assigned
      (assign (Run.call budget) receiver value machine) := by
  have formed := operands_wellFormed budget wellFormed made
  rw [assign_eq names, bind_of_ok made]
  by_cases passes : ∀ ty, receiver.ty = some ty → value.ty = some .any → assigned.fits ty = true
  · rw [enforce_eq_pure passes, pure_bind]
    exact store_stores formed passes
  · simp only [Classical.not_forall, Bool.not_eq_true] at passes
    rcases passes with ⟨ty, expected, deferred, fails⟩
    rw [expected, enforce_eq_report deferred fails]
    exact .refused (.unfit expected deferred fails)

/-- The outcome of an assignment statement is that of the assignment. -/
theorem Stores.goOn {run : Run Unit} {start : Machine}
    (stores : Stores machine receiver value name index assigned (run start)) :
    Stores machine receiver value name index assigned
      ((run >>= fun _ => pure Signal.goOn) start) := by
  cases ran : run start with
  | ok outcome after =>
      rw [bind_of_ok ran]
      rw [ran] at stores
      cases stores with
      | changed passes nearest replaced sets => exact .changed passes nearest replaced sets
  | error halt after =>
      rw [bind_of_error ran]
      rw [ran] at stores
      cases stores with
      | refused reason => exact .refused reason

/-- Once its operands are evaluated, an assignment statement is refused and changes nothing, or the
nearest variable of the name gets the value, or its list a new element, and nothing else changes.
Where an operand stops the run, or the receiver is no variable, it ends as they leave it. -/
theorem assignment_changes_one_cell (budget rounds : Nat) {machine : Machine}
    (wellFormed : machine.WellFormed) (span : Span) (receiver value : Expr) :
    (receiver.assigned? = none →
      execute (Run.call budget) rounds (.assignment span receiver value) machine =
        .error (.reported (.located .invalidTarget receiver.start)) machine) ∧
    ∀ name, receiver.assigned? = some name →
      (∀ halt after, operands (Run.call budget) receiver value machine = .error halt after →
        execute (Run.call budget) rounds (.assignment span receiver value) machine =
          .error halt after) ∧
      ∀ index assigned after,
        operands (Run.call budget) receiver value machine = .ok (index, assigned) after →
          after.WellFormed ∧ Stores after receiver value name index assigned
            (execute (Run.call budget) rounds (.assignment span receiver value) machine) := by
  refine ⟨?_, fun name names => ⟨?_, ?_⟩⟩
  · intro noTarget
    rw [execute, assign_of_no_target noTarget]
    rfl
  · intro halt after stopped
    rw [execute, assign_eq names, bind_of_error (bind_of_error stopped _)]
  · intro index assigned after made
    rw [execute]
    exact ⟨operands_wellFormed budget wellFormed made,
      (assign_stores budget wellFormed names made).goOn⟩

/-- An assignment to the third element of a list of two. Its index calls a function that gives the
variable a list of three before, and it is made in a scope inside that of the variable. -/
theorem assignment_changes_one_cell_of_called :
    let span : Span := ⟨.null, .null⟩
    let number (count : Int64) : Expr := .literal span none (.integer count)
    let grow : Function :=
      ⟨span, "grow", [], none,
        [.assignment span (.access span none "xs" none)
          (.list span none [number 5, number 6, number 7]), .result span (number 2)], none⟩
    let start := Machine.initial none
    let short : Value := .list [.integer 1, .integer 2]
    let known : Machine :=
      { start with
        arena := start.arena.putFunction Arena.root ("grow", 0) (.written grow Arena.root) }
    let outer : Machine :=
      { known with
        arena := (known.arena.put Arena.root "xs" ⟨short, true⟩).put Arena.root "ys"
          ⟨short, true⟩ }
    let machine := outer.enter.1
    let receiver : Expr := .element span none "xs" none (.call span none "grow" none [])
    let run := execute (Run.call 3) 3 (.assignment span receiver (number 9)) machine
    machine.WellFormed ∧ (value? run).isSome = true ∧
      ∃ index assigned after,
        operands (Run.call 3) receiver (number 9) machine = .ok (index, assigned) after ∧
          index = some 2 ∧ assigned.same (.integer 9) = true ∧ after.WellFormed ∧
          Stores after receiver (number 9) "xs" index assigned run := by
  intro span number grow start short known outer machine receiver run
  have formed : start.WellFormed := Machine.initial_wellFormed none
  have knows : known.WellFormed :=
    ⟨formed.ordered.putFunction _ _ _, formed.inside, formed.closures.putFunction _ rfl⟩
  have put {machine : Machine} (formed : machine.WellFormed) (name : String) (cell : Cell) :
      ({ machine with arena := machine.arena.put Arena.root name cell } : Machine).WellFormed := by
    have evolves := Arena.Evolves.put machine.arena Arena.root name cell
    exact ⟨evolves.ordered formed.ordered, evolves.depth ▸ formed.inside,
      evolves.allFunctions formed.closures⟩
  have wellFormed : machine.WellFormed := (put (put knows _ _) _ _).enter
  have evaluated : (value? (operands (Run.call 3) receiver (number 9) machine)).any
      (fun made => decide (made.1 = some 2) && made.2.same (.integer 9)) = true := by
    decide +kernel
  have succeeds : (value? run).isSome = true := by decide +kernel
  rcases (Option.any_eq_true _ _).mp evaluated with ⟨⟨index, assigned⟩, found, passes⟩
  rcases Bool.and_eq_true_iff.mp passes with ⟨third, nine⟩
  rcases exists_of_value? found with ⟨after, made⟩
  rcases ((assignment_changes_one_cell 3 3 wellFormed span receiver (number 9)).2 "xs" rfl).2
    index assigned after made with ⟨kept, stores⟩
  exact ⟨wellFormed, succeeds, index, assigned, after, made, of_decide_eq_true third, nine, kept,
    stores⟩

end Run

end GradualScript
