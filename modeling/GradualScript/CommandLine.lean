import GradualScript.Script

/-!
# The command line

The command takes the path of one script, runs it, and shows how far it came: a line for each phase
with the time it took, then the value of `main`, or a report on what is wrong. Reading files and
taking the time is left to the caller.
-/

namespace GradualScript.CommandLine

/-- Why a file could not be read as text. -/
inductive ReadFailure where
  | missing
  | directory
  | notText
  | other (message : String)

/-- What is said about a file that could not be read. -/
def ReadFailure.message : ReadFailure → String
  | missing => "No such file or directory (os error 2)"
  | directory => "Is a directory (os error 21)"
  | notText => "stream did not contain valid UTF-8"
  | other message => message

/-- A piece of what the command shows. -/
inductive Piece where
  /-- A line of text. -/
  | line (text : String)
  /-- A line that ends with a time. -/
  | timing (label : String)
  /-- What the script printed. -/
  | printed (bytes : ByteArray)

/-- What the command shows, what it says about failures, and its exit code. -/
structure Answer where
  output : List Piece
  failure : String
  code : Nat

/-- The name of the file at the end of a path; the whole path when it ends in no name. -/
def fileName (path : String) : String :=
  let parts := (path.splitOn "/").filter fun part => part ≠ "" && part ≠ "."
  match parts.getLast? with
  | some name => if name = ".." then path else name
  | none => path

/-- The report on a script that could not be run to its end. -/
def failed (shown : List Piece) (halt : Halt) (path content : String) : Answer :=
  let report :=
    match halt with
    | .reported diagnostic => diagnostic.report path content
    | .dangling | .severed | .exhausted => []
  ⟨shown ++ report.map .line, "", 1⟩

/-- Runs a script that has been read. -/
def runContent (budget : Nat) (path content : String) : Answer :=
  let file := fileName path
  match Script.tokens content file with
  | .error halt => failed [] halt path content
  | .ok tokens =>
    let shown := [Piece.timing "Tokenized in "]
    match Program.parse tokens file with
    | .error halt => failed shown halt path content
    | .ok program =>
      let shown := shown ++ [.timing "Parsed in "]
      match Script.checked program with
      | .error halt => failed shown halt path content
      | .ok program =>
        let outcome := Script.execute budget program
        let shown := shown ++ [.timing "Analyzed in ", .printed outcome.printed]
        match outcome.result with
        | .error halt => failed shown halt path content
        | .ok value =>
          let last := [.timing "Evaluated in ", .line ("main returned " ++ value.render),
            .timing "Total time: "]
          ⟨shown ++ last, "", 0⟩

/-- Runs the command called `program`, given its arguments and what reading a path gives. -/
def run (budget : Nat) (program : String) (arguments : List String)
    (read : String → Except ReadFailure String) : Answer :=
  match arguments with
  | [path] =>
    match read path with
    | .ok content => runContent budget path content
    | .error failure => ⟨[], "Failed to read " ++ path ++ ": " ++ failure.message ++ "\n", 1⟩
  | _ => ⟨[], "Usage: " ++ program ++ " <script>\n", 2⟩

end GradualScript.CommandLine
