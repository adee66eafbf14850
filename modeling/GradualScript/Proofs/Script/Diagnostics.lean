import GradualScript.Proofs.Grammar.Literal
import GradualScript.Proofs.Grammar.Safety
import GradualScript.Proofs.Machine.Conduct
import GradualScript.Proofs.Script.Soundness
import GradualScript.Proofs.Source.Lookup
import GradualScript.Proofs.Token.Origin
import GradualScript.Proofs.Typing.Verdict

/-!
# Diagnostics point into the text

Whatever phase finds something wrong with a script reports it under its own name and at a place of
the text that has a line to be shown. Tokens have their places from the text, trees from the tokens,
and diagnostics from the trees, so each phase hands on that its places are inside the text. The one
diagnostic without a place is that `main` is missing.

Reports that belong to another phase, or to no place, could only come from names that are not
resolved, and a checked program has none.
-/

namespace GradualScript

variable {places : Position → Prop}

/-- Whether a place is on a line of the source text called `file`. -/
structure Position.OnLine (source file : String) (position : Position) : Prop
    extends position.Inside source file where
  line : ∃ place, Source.lineAt source.toList position.offset = some place

/-- Whether a halt reports something of a phase, at a line of the source text called `file`. Nothing
but a missing `main` is reported without a place. -/
def Halt.Faithful (source file : String) (phase : Phase) (halt : Halt) : Prop :=
  ∃ diagnostic, halt = .reported diagnostic ∧ diagnostic.cause.phase = phase ∧
    (diagnostic = .unlocated .missingMain ∨
      ∃ position, diagnostic.position = some position ∧ position.OnLine source file)

/-- The conduct of runs that can print what they like: they find fault with what stands at certain
places, unless they miss a name or run out of budget. -/
def Run.blaming (places : Position → Prop) : Conduct places where
  holds := fun arena sink =>
    sink.limit = none ∧ arena.AllFunctions fun _ (routine : Routine) => routine.Placed places
  stops := fun halt => halt.isNaming = true ∨ halt = .exhausted ∨ halt.Blames .running places
  push := fun parent holds => ⟨holds.1, holds.2.push parent⟩
  dropFrom := fun id holds => ⟨holds.1, holds.2.dropFrom id⟩
  put := fun id name cell holds =>
    ⟨holds.1, (Arena.Evolves.put _ id name cell).allFunctions holds.2⟩
  give := fun owner name cell holds =>
    ⟨holds.1, (Arena.Evolves.give _ owner name cell owner fun _ => False).allFunctions holds.2⟩
  putFunction := fun id _ _ placed holds => ⟨holds.1, holds.2.putFunction id placed⟩
  routines := fun holds => holds.2
  write := fun _ holds => holds
  refused := by
    intro _ sink text holds refused
    simp [Sink.write, Sink.room, holds.1] at refused
  naming := .inl
  exhausted := .inr (.inl rfl)
  blames := fun blames => .inr (.inr blames)

theorem Run.initial_blaming :
    (Run.blaming places).holds (Machine.initial none).arena (Machine.initial none).sink := by
  refine ⟨rfl, .ofFunctions (.ofList ?_ Native.all)⟩
  exact fun _ => trivial

namespace Script

variable {source file : String} {given : List Token} {program : Program} {halt : Halt}

theorem onLine_of_inside (notEmpty : source ≠ "") {position : Position}
    (inside : position.Inside source file) : position.OnLine source file :=
  ⟨inside, Source.exists_lineAt (mt String.toList_eq_nil_iff.mp notEmpty) inside.offset_le⟩

theorem faithful_of_blames (notEmpty : source ≠ "") {phase : Phase}
    (blames : halt.Blames phase (Position.Inside source file)) :
    halt.Faithful source file phase := by
  rcases blames with ⟨cause, position, rfl, phase_eq, inside⟩
  exact ⟨_, rfl, phase_eq, .inr ⟨position, rfl, onLine_of_inside notEmpty inside⟩⟩

/-- A run of a script that compiles finds fault with what it runs, or is not over within its
budget. -/
theorem execute_blames (compiled : compile source file = .ok program)
    (placed : program.Placed places) {budget : Nat}
    (failed : (execute budget program).result = .error halt) :
    halt = .exhausted ∨ halt.Blames .running places := by
  have abides := Run.program_abides (Run.blaming places) budget placed _ Run.initial_blaming
  unfold execute at failed
  generalize ran : Run.program budget program (.initial none) = result at abides failed
  cases abides with
  | ok => cases failed
  | error _ stops =>
      cases failed
      have ends := recorded_ends compiled (fun _ => trivial)
        (fun global _ => global.reliable_nothing) budget none
      rcases (run_ends ends).2 _ _ ran with ⟨_, _, _, notNaming⟩
      rcases stops with naming | rest
      · rw [notNaming] at naming
        cases naming
      · exact rest

/-! ## The empty text

It has no line that a diagnostic could point at, and nothing is wrong with it but that `main` is
missing. -/

theorem tokens_empty (file : String) : tokens "" file = .ok [] := by
  simp [tokens, tokenize, Draft.tokens, Draft.text, Draft.ofText, Draft.keep, Lexeme.split,
    Draft.place]

theorem parse_empty (tokenized : tokens "" file = .ok given) :
    Program.parse given file = .ok ⟨[], []⟩ := by
  rw [tokens_empty] at tokenized
  cases tokenized
  rfl

theorem check_empty (tokenized : tokens "" file = .ok given)
    (parsed : Program.parse given file = .ok program) :
    program.check.2 = .error (.reported (.unlocated .missingMain)) := by
  rw [parse_empty tokenized] at parsed
  cases parsed
  rfl

/-! ## Each phase -/

theorem start_inside : Position.Inside source file ⟨0, file⟩ :=
  ⟨rfl, Nat.zero_le _⟩

theorem tokens_within (tokenized : tokens source file = .ok given) :
    ∀ token ∈ given, token.Within (Position.Inside source file) := by
  unfold tokens at tokenized
  split at tokenized
  · cases tokenized
    rename_i scanned
    exact tokenize_within scanned
  · cases tokenized

theorem tokens_not_splits (tokenized : tokens source file = .ok given) :
    ∀ token ∈ given, ¬token.Splits := by
  unfold tokens at tokenized
  split at tokenized
  · cases tokenized
    rename_i scanned
    exact fun token member => Token.not_splits_of_form (form_of_tokenize scanned member)
  · cases tokenized

theorem tokens_faithful (failed : tokens source file = .error halt) :
    halt.Faithful source file .lexing := by
  by_cases empty : source = ""
  · subst empty
    rw [tokens_empty] at failed
    cases failed
  · apply faithful_of_blames empty
    unfold tokens at failed
    split at failed
    · cases failed
    · cases failed
      rename_i unread
      exact tokenize_blames unread

theorem parse_faithful (tokenized : tokens source file = .ok given)
    (failed : Program.parse given file = .error halt) : halt.Faithful source file .parsing := by
  by_cases empty : source = ""
  · subst empty
    rw [parse_empty tokenized] at failed
    cases failed
  · apply faithful_of_blames empty
    rcases Program.parse_blames (tokens_within tokenized) start_inside failed with
      blames | ⟨_, token, member, splits⟩
    · exact blames
    · exact absurd splits (tokens_not_splits tokenized token member)

/-- The check of a program keeps to places in its text. -/
theorem check_inside (tokenized : tokens source file = .ok given)
    (parsed : Program.parse given file = .ok program) :
    program.check.1.Placed (Position.Inside source file) ∧
      ∀ halt, program.check.2 = .error halt →
        halt = .reported (.unlocated .missingMain) ∨
          halt.Blames .checking (Position.Inside source file) := by
  have placed := Program.parse_placed (tokens_within tokenized) start_inside parsed
  exact Program.check_points (Program.unchecked_of_parse parsed) placed

theorem check_faithful (tokenized : tokens source file = .ok given)
    (parsed : Program.parse given file = .ok program) (failed : program.check.2 = .error halt) :
    halt.Faithful source file .checking := by
  have missing : Halt.Faithful source file .checking (.reported (.unlocated .missingMain)) :=
    ⟨_, rfl, rfl, .inl rfl⟩
  by_cases empty : source = ""
  · subst empty
    rw [check_empty tokenized parsed] at failed
    cases failed
    exact missing
  · rcases (check_inside tokenized parsed).2 halt failed with rfl | blames
    · exact missing
    · exact faithful_of_blames empty blames

theorem compile_of_check (tokenized : tokens source file = .ok given)
    (parsed : Program.parse given file = .ok program) (accepted : program.check.2 = .ok ()) :
    compile source file = .ok program.check.1 := by
  simp only [compile, read, tokenized, parsed, bind, Except.bind, checked]
  generalize program.check = verdict at accepted ⊢
  rcases verdict with ⟨result, outcome⟩
  cases accepted
  rfl

theorem execute_faithful (tokenized : tokens source file = .ok given)
    (parsed : Program.parse given file = .ok program) (accepted : program.check.2 = .ok ())
    {budget : Nat} (failed : (execute budget program.check.1).result = .error halt) :
    halt = .exhausted ∨ halt.Faithful source file .running := by
  have notEmpty : source ≠ "" := by
    rintro rfl
    rw [check_empty tokenized parsed] at accepted
    cases accepted
  have compiled := compile_of_check tokenized parsed accepted
  apply (execute_blames compiled (check_inside tokenized parsed).1 failed).imp_right
  exact faithful_of_blames notEmpty

/-- Whichever phase stops a script says so under its own name, and at a line of the text. -/
theorem diagnostics_faithful (source file : String) :
    (∀ halt, tokens source file = .error halt → halt.Faithful source file .lexing) ∧
    ∀ given, tokens source file = .ok given →
      (∀ halt, Program.parse given file = .error halt → halt.Faithful source file .parsing) ∧
      ∀ program, Program.parse given file = .ok program →
        (∀ halt, program.check.2 = .error halt → halt.Faithful source file .checking) ∧
        (program.check.2 = .ok () → ∀ budget halt,
          (execute budget program.check.1).result = .error halt →
            halt = .exhausted ∨ halt.Faithful source file .running) := by
  refine ⟨fun _ => tokens_faithful, fun given tokenized => ⟨fun _ => parse_faithful tokenized, ?_⟩⟩
  intro program parsed
  refine ⟨fun _ => check_faithful tokenized parsed, fun accepted budget halt failed => ?_⟩
  exact execute_faithful tokenized parsed accepted failed

/-- What stopped a phase. -/
def failure? {α : Type} : Except Halt α → Option Halt
  | .ok _ => none
  | .error halt => some halt

theorem exists_error_of_any {α : Type} {result : Except Halt α} {test : Halt → Bool}
    (fails : (failure? result).any test = true) :
    ∃ halt, result = .error halt ∧ test halt = true := by
  cases result with
  | ok value => cases fails
  | error halt => exact ⟨halt, rfl, fails⟩

/-- Scripts that get as far as each of the phases, and are stopped by it in their second line. -/
theorem diagnostics_faithful_phases :
    (∃ halt, tokens "FUN\n''" "a" = .error halt ∧ halt.Faithful "FUN\n''" "a" .lexing) ∧
    (∃ given halt, tokens "FUN\nmain" "a" = .ok given ∧ Program.parse given "a" = .error halt ∧
      halt.Faithful "FUN\nmain" "a" .parsing) ∧
    (∃ given program halt, tokens "VAR n: Integer =\nm;" "a" = .ok given ∧
      Program.parse given "a" = .ok program ∧ program.check.2 = .error halt ∧
      halt.Faithful "VAR n: Integer =\nm;" "a" .checking) ∧
    ∃ given program halt, tokens "FUN main(): Integer DO\nRETURN 1 / 0; END" "a" = .ok given ∧
      Program.parse given "a" = .ok program ∧ program.check.2 = .ok () ∧
      (execute 9 program.check.1).result = .error halt ∧
      halt.Faithful "FUN main(): Integer DO\nRETURN 1 / 0; END" "a" .running := by
  refine ⟨?_, ?_, ?_, ?_⟩
  · have evaluated : ((failure? (tokens "FUN\n''" "a")).any fun _ => true) = true := by
      decide +kernel
    rcases exists_error_of_any evaluated with ⟨halt, failed, _⟩
    exact ⟨halt, failed, (diagnostics_faithful _ _).1 halt failed⟩
  · have evaluated : ((tokens "FUN\nmain" "a").toOption.any fun given =>
        (failure? (Program.parse given "a")).any fun _ => true) = true := by decide +kernel
    rcases exists_ok_of_any evaluated with ⟨given, tokenized, fails⟩
    rcases exists_error_of_any fails with ⟨halt, failed, _⟩
    have faithful := (diagnostics_faithful _ _).2 given tokenized
    exact ⟨given, halt, tokenized, failed, faithful.1 halt failed⟩
  · have evaluated : ((tokens "VAR n: Integer =\nm;" "a").toOption.any fun given =>
        (Program.parse given "a").toOption.any fun program =>
          (failure? program.check.2).any fun _ => true) = true := by decide +kernel
    rcases exists_ok_of_any evaluated with ⟨given, tokenized, fails⟩
    rcases exists_ok_of_any fails with ⟨program, parsed, fails⟩
    rcases exists_error_of_any fails with ⟨halt, failed, _⟩
    have faithful := ((diagnostics_faithful _ _).2 given tokenized).2 program parsed
    exact ⟨given, program, halt, tokenized, parsed, failed, faithful.1 halt failed⟩
  · have evaluated : ((tokens "FUN main(): Integer DO\nRETURN 1 / 0; END" "a").toOption.any
        fun given => (Program.parse given "a").toOption.any fun program =>
          program.check.2.toOption.any fun _ =>
            (failure? (execute 9 program.check.1).result).any (· ≠ .exhausted)) = true := by
      decide +kernel
    rcases exists_ok_of_any evaluated with ⟨given, tokenized, passes⟩
    rcases exists_ok_of_any passes with ⟨program, parsed, passes⟩
    rcases exists_ok_of_any passes with ⟨⟨⟩, accepted, fails⟩
    rcases exists_error_of_any fails with ⟨halt, failed, notExhausted⟩
    have faithful := ((diagnostics_faithful _ _).2 given tokenized).2 program parsed
    exact ⟨given, program, halt, tokenized, parsed, accepted, failed,
      (faithful.2 accepted 9 halt failed).resolve_left (of_decide_eq_true notExhausted)⟩

end Script

end GradualScript
