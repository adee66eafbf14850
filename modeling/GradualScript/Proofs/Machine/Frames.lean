import GradualScript.Proofs.Machine.Discipline

/-!
# Every run comes back

All pieces of program are disciplined: expressions, statements and calls, whether they come to a
value or stop. The only thing that is left behind in a scope is the variable of a declaration.
Statements have to spare the constants; expressions change variables by calls only, so they spare
them if all functions do.
-/

namespace GradualScript

namespace Recorded

variable {constants : Table String Cell} {added : String → Prop} {hidden last : List String}

/-- A variable that is added to the current scope hides a constant of its name. -/
theorem define_settles {before : Recording} (poised : before.machine.Poised constants hidden)
    (name : String) (binding : Option Variable) (value : Value) (position : Position) :
    Settles constants (· = name) (name :: hidden) before
      (define before.machine.current name binding value position) := by
  rcases Run.define_cases poised.wellFormed.inside name ⟨value, true⟩ position with
    ⟨scope, found, fresh, defined⟩ | ⟨diagnostic, failed⟩
  · let arena := before.machine.arena.put before.machine.current name ⟨value, true⟩
    let machine : Machine := { before.machine with arena }
    have holds : arena.Holds constants := poised.holds.put found fresh _
    have advances (declared : Arena Variable Unit) : before.Advances constants (· = name)
        ⟨machine, declared, before.resultType,
          ⟨.changed, machine, declared⟩ :: before.moments⟩ :=
      ⟨rfl, rfl, .put _ _ _ _, .noted holds rfl⟩
    have poisedAfter : machine.Poised constants (name :: hidden) := by
      have still := (advances before.declared).poised poised
      refine { still with hides := ?_ }
      intro other member constant
      rcases List.mem_cons.mp member with rfl | earlier
      · exact .put poised.wellFormed.inside (poised.holds.ne_root found fresh constant) _ _
      · exact still.hides other earlier constant
    simp only [Settles, Ends, define, bind, EStateM.bind, perform, defined]
    cases binding with
    | none => exact ⟨advances _, poisedAfter⟩
    | some binding => exact ⟨advances _, poisedAfter⟩
  · simp only [Settles, Ends, define, bind, EStateM.bind, perform, failed]
    exact ⟨.refl poised.holds _, Halt.reported_ne_dangling _⟩

theorem declare_disciplined (name : String) (binding : Option Variable) (value : Value)
    (position : Position) :
    Disciplined constants (· = name) hidden (name :: hidden)
      (do
        let recording ← get
        define recording.machine.current name binding value position) :=
  fun _ poised => define_settles poised name binding value position

/-- A new value does not go to a constant if the name is not one or is hidden. -/
theorem store_disciplined {name : String}
    (spared : constants.contains name = true → name ∈ hidden) (index : Option Int64)
    (value : Value) (position : Position) :
    Disciplined constants added hidden hidden (store name index value position) := by
  intro before poised
  rcases Run.store_cases poised.wellFormed name index value position with
    ⟨owner, old, cell, searched, stored⟩ | ⟨diagnostic, failed⟩
  · have holds : (before.machine.arena.give owner name cell).Holds constants := by
      apply poised.holds.give
      intro constant
      have hides := poised.hides name (spared constant) constant
      exact hides.owner_ne_root poised.wellFormed.ordered searched
    let machine : Machine :=
      { before.machine with arena := before.machine.arena.give owner name cell }
    have advances : before.Advances constants added
        { before with
          machine, moments := ⟨.changed, machine, before.declared⟩ :: before.moments } :=
      ⟨rfl, rfl, .give _ _ _ _ _ _, .noted holds rfl⟩
    simp only [Settles, Ends, store, bind, EStateM.bind, perform, stored]
    exact ⟨advances, advances.poised poised⟩
  · simp only [Settles, Ends, store, bind, EStateM.bind, perform, failed]
    exact ⟨.refl poised.holds _, Halt.reported_ne_dangling _⟩

/-- Whether calls come back and leave constants alone, wherever they are made. -/
def Caller.Disciplined (constants : Table String Cell) (call : Caller) : Prop :=
  ∀ (hidden : List String) (name : String) (arguments : List Value) (position : Option Position),
    Recorded.Disciplined constants (fun _ => False) hidden hidden (call name arguments position)

section

variable {call : Caller}

mutual

theorem evaluate_disciplined (calls : call.Disciplined constants) (hidden : List String)
    (expr : Expr) :
    Disciplined constants (fun _ => False) hidden hidden (evaluate call expr) := by
  cases expr with
  | literal span ty value =>
      simp only [evaluate]
      exact .valuing _ (.pure _)
  | group span ty inner =>
      simp only [evaluate]
      exact .valuing _ (evaluate_disciplined calls hidden inner)
  | binary span ty operator left right =>
      simp only [evaluate]
      refine .valuing _ ((evaluate_disciplined calls hidden left).bind fun leftValue => .ite ?_ ?_)
      · refine (Disciplined.perform (.ofCause _ _)).bind fun truth => .ite (.pure _) ?_
        exact (evaluate_disciplined calls hidden right).bind fun _ => .perform (.ofCause _ _)
      · exact (evaluate_disciplined calls hidden right).bind fun _ => .perform (.ofCause _ _)
  | access span ty name binding =>
      simp only [evaluate]
      exact .valuing _ ((Disciplined.perform (.cellAt _ _)).bind fun _ => .pure _)
  | element span ty name binding offset =>
      simp only [evaluate]
      refine .valuing _ ((evaluate_disciplined calls hidden offset).bind fun index => ?_)
      refine (Disciplined.perform (.ofCause _ _)).bind fun index => ?_
      exact (Disciplined.perform (.cellAt _ _)).bind fun _ => .perform (.ofCause _ _)
  | call span ty name binding arguments =>
      simp only [evaluate]
      refine .valuing _ (.after_get fun before => ?_)
      exact (evaluateArguments_disciplined calls hidden _ _ arguments).bind fun values =>
        calls hidden name values _
  | list span ty elements =>
      simp only [evaluate]
      exact .valuing _
        ((evaluateArguments_disciplined calls hidden [] [] elements).bind fun _ => .pure _)

theorem evaluateArguments_disciplined (calls : call.Disciplined constants) (hidden : List String)
    (declared targets : List Ty) (arguments : List Expr) :
    Disciplined constants (fun _ => False) hidden hidden
      (evaluateArguments call declared targets arguments) := by
  cases arguments with
  | nil =>
      simp only [evaluateArguments]
      exact .pure _
  | cons argument others =>
      simp only [evaluateArguments]
      refine (evaluate_disciplined calls hidden argument).bind fun value => ?_
      refine (Disciplined.offerArgument _ argument value).bind fun _ => ?_
      refine (Disciplined.perform (.enforce _ _ _)).bind fun _ => ?_
      exact (evaluateArguments_disciplined calls hidden _ _ others).bind fun _ => .pure _

end

theorem condition_disciplined (calls : call.Disciplined constants) (hidden : List String)
    (expr : Expr) : Disciplined constants (fun _ => False) hidden hidden (condition call expr) :=
  (evaluate_disciplined calls hidden expr).bind fun _ => .perform (.ofCause _ _)

theorem index_disciplined (calls : call.Disciplined constants) (hidden : List String)
    (expr : Expr) : Disciplined constants (fun _ => False) hidden hidden (index call expr) :=
  (evaluate_disciplined calls hidden expr).bind fun _ => .perform (.ofCause _ _)

theorem initialValue_disciplined (calls : call.Disciplined constants) (hidden : List String)
    {offer : Expr → Value → Recorded Unit}
    (offers : ∀ expr value,
      Disciplined constants (fun _ => False) hidden hidden (offer expr value))
    (binding : Option Variable) (initializer : Option Expr) :
    Disciplined constants (fun _ => False) hidden hidden
      (initialValue call offer binding initializer) := by
  cases initializer with
  | none => exact .pure _
  | some initializer =>
      refine (evaluate_disciplined calls hidden initializer).bind fun value => ?_
      refine (offers initializer value).bind fun _ => ?_
      exact (Disciplined.perform (.enforce _ _ _)).bind fun _ => .pure _

theorem assign_disciplined (calls : call.Disciplined constants) {receiver : Expr}
    (spared : ∀ name, receiver.assigned? = some name → constants.contains name = true →
      name ∈ hidden) (value : Expr) :
    Disciplined constants (fun _ => False) hidden hidden (assign call receiver value) := by
  have value_disciplined := evaluate_disciplined calls hidden value
  cases receiver with
  | access span ty name binding =>
      refine value_disciplined.bind fun assigned => .after_get fun before => ?_
      refine (Disciplined.note _).bind fun _ => ?_
      refine (Disciplined.perform (.enforce _ _ _)).bind fun _ => ?_
      exact store_disciplined (spared name rfl) _ _ _
  | element span ty name binding offset =>
      refine (index_disciplined calls hidden offset).bind fun slot => ?_
      refine value_disciplined.bind fun assigned => .after_get fun before => ?_
      refine (Disciplined.note _).bind fun _ => ?_
      refine (Disciplined.perform (.enforce _ _ _)).bind fun _ => ?_
      exact store_disciplined (spared name rfl) _ _ _
  | _ => exact .perform (.throw (Halt.reported_ne_dangling _))

theorem repeatWhile_disciplined {test : Recorded Bool} {body : Recorded Signal}
    (tests : Disciplined constants added hidden hidden test)
    (bodies : Disciplined constants added hidden hidden body) (budget : Nat) :
    Disciplined constants added hidden hidden (repeatWhile test body budget) := by
  induction budget with
  | zero => exact .throw Halt.exhausted_ne_dangling
  | succ budget ih =>
      simp only [repeatWhile]
      refine tests.bind fun holds => .ite (bodies.bind fun signal => ?_) (.pure _)
      cases signal with
      | finish value => exact .pure _
      | goOn => exact ih

mutual

/-- A statement leaves at most the variable behind that it declares. -/
theorem execute_disciplined (calls : call.Disciplined constants) (budget : Nat)
    {hidden : List String} (statement : Stmt)
    (spares : statement.Spares (fun name => constants.contains name = true) hidden) :
    Disciplined constants (· ∈ statement.declares) hidden (statement.declares ++ hidden)
      (execute call budget statement) := by
  -- All statements but declarations add nothing to what they found.
  have still {recorded : Recorded Signal}
      (disciplined : Disciplined constants (fun _ => False) hidden hidden recorded) :
      Disciplined constants (· ∈ ([] : List String)) hidden ([] ++ hidden) recorded :=
    disciplined.mono fun _ impossible => impossible.elim
  cases statement with
  | expression span expr =>
      simp only [execute, Stmt.declares]
      exact still ((evaluate_disciplined calls hidden expr).bind fun _ => .pure _)
  | declaration span name typeName initializer binding =>
      simp only [execute, Stmt.declares]
      have initial := initialValue_disciplined calls hidden
        (fun expr value => .note (.offered .declaration (typeName.bind Ty.ofName?) expr value))
        binding initializer
      refine .mono ?_ fun _ => List.mem_singleton.mpr
      refine (initial.mono fun _ impossible => impossible.elim).bind fun value => ?_
      exact (declare_disciplined name binding value span.start).bind fun _ => .pure _
  | assignment span receiver value =>
      simp only [execute, Stmt.declares]
      exact still ((assign_disciplined calls spares value).bind fun _ => .pure _)
  | branch span test thenBody elseBody =>
      simp only [execute, Stmt.declares]
      refine still ((condition_disciplined calls hidden test).bind fun holds => .ite ?_ ?_)
      · exact (executeAll_disciplined calls budget thenBody spares.1).inScope
      · exact (executeAll_disciplined calls budget elseBody spares.2).inScope
  | switch span subject cases =>
      simp only [execute, Stmt.declares]
      exact still ((evaluate_disciplined calls hidden subject).bind fun value =>
        executeCases_disciplined calls budget value cases spares)
  | loop span test body =>
      simp only [execute, Stmt.declares]
      exact still (repeatWhile_disciplined (condition_disciplined calls hidden test)
        (executeAll_disciplined calls budget body spares).inScope budget)
  | result span expr =>
      simp only [execute, Stmt.declares]
      refine still ((evaluate_disciplined calls hidden expr).bind fun value => ?_)
      refine .after_get fun before => (Disciplined.note _).bind fun _ => ?_
      exact (Disciplined.perform (.enforce _ _ _)).bind fun _ => .pure _

theorem executeCases_disciplined (calls : call.Disciplined constants) (budget : Nat)
    {hidden : List String} (subject : Value) (cases : Cases)
    (spares : cases.Spares (fun name => constants.contains name = true) hidden) :
    Disciplined constants (fun _ => False) hidden hidden
      (executeCases call budget subject cases) := by
  cases cases with
  | default span body =>
      simp only [executeCases]
      exact (executeAll_disciplined calls budget body spares).inScope
  | case span value body others =>
      simp only [executeCases]
      refine (evaluate_disciplined calls hidden value).bind fun value => .ite ?_ ?_
      · exact (executeAll_disciplined calls budget body spares.1).inScope
      · exact executeCases_disciplined calls budget subject others spares.2

theorem executeAll_disciplined (calls : call.Disciplined constants) (budget : Nat)
    {hidden : List String} (statements : List Stmt)
    (spares : Stmt.AllSpare (fun name => constants.contains name = true) hidden statements) :
    Disciplined constants (fun _ => True) hidden hidden (executeAll call budget statements) := by
  cases statements with
  | nil =>
      simp only [executeAll]
      exact .pure _
  | cons statement others =>
      simp only [executeAll]
      have first := execute_disciplined calls budget statement spares.1
      have rest := executeAll_disciplined calls budget others spares.2
      refine (first.mono fun _ _ => trivial).bind fun signal => ?_
      cases signal with
      | finish value => exact (Disciplined.pure _).weaken fun _ => List.mem_append_right _
      | goOn => exact rest.weaken fun _ => List.mem_append_right _

end

end

/-- The parameters that get an argument hide constants of their names. -/
theorem bindArguments_settles {before : Recording}
    (poised : before.machine.Poised constants hidden) (position : Position)
    (parameters : List Parameter) (values : List Value) :
    Settles constants (fun _ => True)
      ((parameters.take values.length).map Parameter.name ++ hidden) before
      (bindArguments before.machine.current position parameters values) := by
  -- Parameters beyond the arguments get no value and hide nothing.
  induction parameters generalizing values before hidden with
  | nil =>
      rw [List.take_nil]
      exact ⟨.refl poised.holds _, poised⟩
  | cons parameter parameters ih =>
      cases values with
      | nil => exact ⟨.refl poised.holds _, poised⟩
      | cons value values =>
          have defined := define_settles poised parameter.name
            (some ⟨parameter.name, .any, true⟩) value position
          refine (defined.mono fun _ _ => trivial).bind fun _ middle advances poisedMiddle => ?_
          rw [← advances.current]
          refine (ih poisedMiddle values).weaken fun name member => ?_
          simpa [or_left_comm] using member

/-- A function comes back to its caller whichever way its body ends. -/
theorem enterFunction_disciplined {function : Function} {arguments : List Value}
    {body : Recorded Signal}
    (bodies : Disciplined constants (fun _ => True)
      ((function.parameters.take arguments.length).map Parameter.name) last body) :
    Disciplined constants (fun _ => False) hidden hidden
      (enterFunction function Arena.root arguments body) := by
  intro caller poised
  let entering := caller.calling function Arena.root
  have whole : Settles constants (fun _ => True) last entering.enter.1
      (bindArguments entering.enter.2 function.span.start function.parameters arguments >>=
        fun _ => body) := by
    refine (bindArguments_settles (poised.calling _).enter function.span.start
      function.parameters arguments).bind fun _ inner _ poisedInner => bodies inner ?_
    rwa [List.append_nil] at poisedInner
  unfold Settles Ends at whole ⊢
  simp only [enterFunction]
  cases outcome : (bindArguments entering.enter.2 function.span.start function.parameters
      arguments >>= fun _ => body) entering.enter.1 with
  | ok signal callee =>
      rw [outcome] at whole
      have advances := whole.1.resume poised
      exact ⟨advances, advances.poised poised⟩
  | error halt callee =>
      rw [outcome] at whole
      exact ⟨whole.1.resume poised, whole.2⟩

/-- Calls come back and leave constants alone, however deep they nest. -/
theorem call_disciplined (constants : Table String Cell) (budget : Nat) :
    Caller.Disciplined constants (call budget) := by
  induction budget with
  | zero => exact fun _ _ _ _ => .throw Halt.exhausted_ne_dangling
  | succ budget ih =>
      intro hidden name arguments position before poised
      simp only [call]
      rcases Run.routineAt_cases poised.wellFormed name arguments.length position with
        ⟨owner, routine, searched, found⟩ | ⟨diagnostic, failed⟩
      · have spares := poised.spares.found searched
        have seesRoot := poised.wellFormed.closures.found searched
        have performed : perform (Run.routineAt name arguments.length position) before =
            .ok routine before := by
          simp only [perform, found]
        simp only [Settles, Ends, bind, EStateM.bind, performed]
        cases routine with
        | builtIn function => exact Disciplined.perform (.callNative _ _ _) before poised
        | written function closure =>
            cases seesRoot
            have bodies := executeAll_disciplined ih budget function.body spares
            exact enterFunction_disciplined bodies before poised
      · simp only [Settles, Ends, bind, EStateM.bind, perform, failed]
        exact ⟨.refl poised.holds _, Halt.reported_ne_dangling _⟩

end Recorded

end GradualScript
