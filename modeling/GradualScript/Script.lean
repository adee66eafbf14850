import GradualScript.Diagnostic.Report
import GradualScript.Grammar.Program
import GradualScript.Machine.Program
import GradualScript.Token.Tokenize

/-!
# Scripts from text to value

A script is read into tokens, the tokens into a program, the program is checked, and then it runs.
The first phase that finds something wrong ends the work.
-/

namespace GradualScript.Script

/-- How often calls may nest and loops may go round where nothing else is said. -/
def defaultBudget : Nat := 1000000000000000000

/-- The tokens of a script. -/
def tokens (source file : String) : Except Halt (List Token) :=
  match tokenize source file with
  | .ok tokens => .ok tokens
  | .error diagnostic => .error (.reported diagnostic)

/-- The program that a script is. -/
def read (source file : String) : Except Halt Program := do
  Program.parse (← tokens source file) file

/-- A program that passed its check. -/
def checked (program : Program) : Except Halt Program :=
  match program.check with
  | (program, .ok ()) => .ok program
  | (_, .error halt) => .error halt

/-- The checked program that a script is. -/
def compile (source file : String) : Except Halt Program := do checked (← read source file)

/-- What a run came to, and what it printed. -/
structure Outcome where
  result : Except Halt Value
  printed : ByteArray

/-- What a run on a machine came to, and what had been printed after it. -/
def Outcome.ofResult : EStateM.Result Halt Machine Value → Outcome
  | .ok value machine => ⟨.ok value, machine.sink.written⟩
  | .error halt machine => ⟨.error halt, machine.sink.written⟩

/-- Runs a checked program on a new machine. -/
def execute (budget : Nat) (program : Program) : Outcome :=
  .ofResult (Run.program budget program (.initial none))

/-- Takes a script through all phases. -/
def run (budget : Nat) (source file : String) : Outcome :=
  match compile source file with
  | .error halt => ⟨.error halt, .empty⟩
  | .ok program => execute budget program

end GradualScript.Script
