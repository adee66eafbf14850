import GradualScript.Proofs.Typing.Judgement
import GradualScript.Script

/-!
# Programs as they are read

A program that has just been read has nothing declared yet, and its assignments all name a variable
or an element of one: the grammar writes no binding down, and an equals sign after anything else is
an error. `Parse.Gives` says what is known of the value of a parsing step that succeeds.
-/

namespace GradualScript

namespace Parse

variable {α β : Type}

/-- Whether every value that a step can give has a property. -/
def Gives (step : Parse α) (property : α → Prop) : Prop :=
  ∀ cursor value after, step cursor = .ok value after → property value

namespace Gives

variable {property : α → Prop} {other : β → Prop}

theorem bind {step : Parse α} {next : α → Parse β} (first : step.Gives property)
    (rest : ∀ value, property value → (next value).Gives other) : (step >>= next).Gives other := by
  intro cursor result after ran
  have opened : EStateM.bind step next cursor = .ok result after := ran
  unfold EStateM.bind at opened
  split at opened
  · rename_i value middle stepped
    exact rest value (first cursor value middle stepped) middle result after opened
  · cases opened

/-- What comes after a step counts, whatever the step gives. -/
theorem andThen {step : Parse α} {next : α → Parse β}
    (rest : ∀ value, (next value).Gives other) : (step >>= next).Gives other := by
  have anything : step.Gives fun _ => True := fun _ _ _ _ => trivial
  exact anything.bind fun value _ => rest value

theorem pure {value : α} (holds : property value) : Gives (Pure.pure value : Parse α) property := by
  intro cursor result after ran
  cases ran
  exact holds

theorem throw {halt : Halt} : Gives (throw halt : Parse α) property := by
  intro cursor result after ran
  cases ran

theorem fail {message : String} : Gives (Parse.fail message : Parse α) property :=
  andThen fun _ => throw

theorem bounded {step : Nat → Parse α} (each : ∀ budget, (step budget).Gives property) :
    (Parse.bounded step).Gives property :=
  fun cursor => each (cursor.ahead.length + 1) cursor

theorem ite {condition : Prop} [Decidable condition] {left right : Parse α}
    (leftGives : left.Gives property) (rightGives : right.Gives property) :
    Gives (if condition then left else right) property := by
  split
  · exact leftGives
  · exact rightGives

end Gives

/-! ## Statements -/

theorem plainStatement_targeted (grammar : Grammar) :
    (plainStatement grammar).Gives Stmt.Targeted := by
  refine .andThen fun start => .andThen fun expr => .andThen fun assigns => .ite ?_ ?_
  · split
    · rename_i isAccess
      exact .andThen fun _ => .andThen fun _ => .andThen fun _ => .pure isAccess
    · exact .throw
  · exact .andThen fun _ => .andThen fun _ => .pure trivial

theorem blockWithin_targeted {statement : Parse Stmt} (gives : statement.Gives Stmt.Targeted)
    (terminators : List String) (budget : Nat) :
    (blockWithin statement terminators budget).Gives Stmt.AllTargeted := by
  induction budget with
  | zero => exact .throw
  | succ budget ih =>
      refine .andThen fun cursor => .ite (.pure trivial) (.ite .fail ?_)
      refine gives.bind fun first firstTargeted => ih.bind fun rest restTargeted => ?_
      exact .pure ⟨firstTargeted, restTargeted⟩

theorem blockWith_targeted {statement : Parse Stmt} (gives : statement.Gives Stmt.Targeted)
    (terminators : List String) : (blockWith statement terminators).Gives Stmt.AllTargeted :=
  .bounded (blockWithin_targeted gives terminators)

theorem casesWithin_targeted (grammar : Grammar) {statement : Parse Stmt}
    (gives : statement.Gives Stmt.Targeted) (budget : Nat) :
    (casesWithin grammar statement budget).Gives Cases.Targeted := by
  induction budget with
  | zero => exact .throw
  | succ budget ih =>
      refine .andThen fun cursor => .ite ?_ ?_
      · refine .andThen fun _ => .andThen fun _ => .andThen fun _ => ?_
        refine (blockWith_targeted gives _).bind fun body bodyTargeted => .andThen fun _ => ?_
        exact ih.bind fun others othersTargeted => .pure ⟨bodyTargeted, othersTargeted⟩
      · refine .andThen fun _ => (blockWith_targeted gives _).bind fun body bodyTargeted => ?_
        exact .andThen fun _ => .pure bodyTargeted

theorem branchWith_targeted (grammar : Grammar) {statement : Parse Stmt}
    (gives : statement.Gives Stmt.Targeted) :
    (branchWith grammar statement).Gives Stmt.Targeted := by
  refine .andThen fun _ => .andThen fun _ => .andThen fun _ => ?_
  refine (blockWith_targeted gives _).bind fun thenBody thenTargeted => .andThen fun continues => ?_
  refine .ite ?_ ?_
  · refine (blockWith_targeted gives _).bind fun elseBody elseTargeted => ?_
    exact .andThen fun _ => .andThen fun _ => .pure ⟨thenTargeted, elseTargeted⟩
  · have noStatements : Gives (Pure.pure [] : Parse (List Stmt)) Stmt.AllTargeted := .pure trivial
    refine noStatements.bind fun elseBody elseTargeted => ?_
    exact .andThen fun _ => .andThen fun _ => .pure ⟨thenTargeted, elseTargeted⟩

theorem statementWith_targeted (grammar : Grammar) {statement : Parse Stmt}
    (gives : statement.Gives Stmt.Targeted) :
    (statementWith grammar statement).Gives Stmt.Targeted := by
  refine .andThen fun cursor => ?_
  split
  · exact .andThen fun _ => .andThen fun _ => .andThen fun _ => .andThen fun _ => .andThen fun _ =>
      .andThen fun _ => .pure trivial
  · exact branchWith_targeted grammar gives
  · refine .andThen fun _ => .andThen fun _ => ?_
    refine Gives.bind (.bounded (casesWithin_targeted grammar gives)) fun cases targeted => ?_
    exact .andThen fun _ => .andThen fun _ => .pure targeted
  · refine .andThen fun _ => .andThen fun _ => .andThen fun _ => ?_
    refine (blockWith_targeted gives _).bind fun body targeted => ?_
    exact .andThen fun _ => .andThen fun _ => .pure targeted
  · exact .andThen fun _ => .andThen fun _ => .andThen fun _ => .andThen fun _ => .pure trivial
  · exact plainStatement_targeted grammar

theorem statement_targeted (grammar : Grammar) :
    (statement grammar).Gives Stmt.Targeted := by
  refine .bounded fun budget => ?_
  induction budget with
  | zero => exact .throw
  | succ budget ih => exact statementWith_targeted grammar ih

/-! ## Programs -/

theorem global_unbound (grammar : Grammar) :
    (global grammar).Gives fun global => global.binding = none := by
  refine .andThen fun _ => .andThen fun _ => .andThen fun _ => .andThen fun _ => ?_
  refine .ite ?_ (.ite ?_ ?_)
  · exact .andThen fun _ => .andThen fun _ => .andThen fun _ => .andThen fun _ => .pure rfl
  · exact .andThen fun _ => .andThen fun _ => .andThen fun _ => .pure rfl
  · exact .andThen fun _ => .andThen fun _ => .andThen fun _ => .andThen fun _ => .pure rfl

theorem function_unbound (grammar : Grammar) : (function grammar).Gives fun function =>
    function.binding = none ∧ Stmt.AllTargeted function.body := by
  refine .andThen fun _ => .andThen fun _ => .andThen fun _ => .andThen fun _ => ?_
  refine .andThen fun _ => .andThen fun _ => ?_
  refine Gives.bind (blockWith_targeted (statement_targeted grammar) _) fun body targeted => ?_
  exact .andThen fun _ => .andThen fun _ => .pure ⟨rfl, targeted⟩

theorem whileAtWithin_all {item : Parse α} {property : α → Prop} (gives : item.Gives property)
    (starts : List String) (budget : Nat) :
    (whileAtWithin starts item budget).Gives fun items => ∀ value ∈ items, property value := by
  induction budget with
  | zero => exact .throw
  | succ budget ih =>
      refine .andThen fun cursor => .ite ?_ (.pure (by simp))
      refine gives.bind fun first firstHolds => ih.bind fun rest restHold => .pure ?_
      intro value member
      rcases List.mem_cons.mp member with rfl | later
      · exact firstHolds
      · exact restHold value later

theorem program_unchecked (grammar : Grammar) : (program grammar).Gives Program.Unchecked := by
  refine Gives.bind (.bounded (whileAtWithin_all (global_unbound grammar) _))
    fun globals unbound => ?_
  refine Gives.bind (.bounded (whileAtWithin_all (function_unbound grammar) _))
    fun functions read => ?_
  refine .andThen fun cursor => .ite (.pure ?_) .fail
  exact ⟨unbound, fun function member => (read function member).1,
    fun function member => (read function member).2⟩

end Parse

theorem exists_ok_of_any {α : Type} {result : Except Halt α} {test : α → Bool}
    (passes : result.toOption.any test = true) :
    ∃ value, result = .ok value ∧ test value = true := by
  cases result with
  | ok value => exact ⟨value, rfl, passes⟩
  | error halt => cases passes

theorem Program.unchecked_of_parse {tokens : List Token} {file : String} {program : Program}
    (parsed : Program.parse tokens file = .ok program) : program.Unchecked := by
  unfold Program.parse at parsed
  split at parsed
  · rename_i ran
    cases parsed
    exact Parse.program_unchecked _ _ _ _ ran
  · cases parsed

/-- A script is compiled by reading it and checking what was read. -/
theorem Script.compile_ok {source file : String} {checked : Program}
    (compiled : Script.compile source file = .ok checked) :
    ∃ program : Program, program.Unchecked ∧ program.check = (checked, .ok ()) := by
  unfold Script.compile at compiled
  cases readResult : Script.read source file with
  | error halt => rw [readResult] at compiled; cases compiled
  | ok program =>
      rw [readResult] at compiled
      have unchecked : program.Unchecked := by
        unfold Script.read at readResult
        cases tokensResult : Script.tokens source file with
        | error halt => rw [tokensResult] at readResult; cases readResult
        | ok tokens =>
            rw [tokensResult] at readResult
            exact Program.unchecked_of_parse readResult
      refine ⟨program, unchecked, ?_⟩
      have passed : Script.checked program = .ok checked := compiled
      unfold Script.checked at passed
      split at passed
      · rename_i result outcome
        cases passed
        exact outcome
      · cases passed

end GradualScript
