import GradualScript.CommandLine

/-!
# The command

Reads the script, takes the time, and shows what the command line makes of it.
-/

namespace GradualScript.CommandLine

/-- Reads a file as text. -/
def readText (path : String) : IO (Except ReadFailure String) := do
  try
    let bytes ← IO.FS.readBinFile path
    match String.fromUTF8? bytes with
    | some text => return .ok text
    | none => return .error .notText
  catch failure =>
    match failure with
    | .noFileOrDirectory .. => return .error .missing
    | .inappropriateType .. => return .error .directory
    | other => return .error (.other (toString other))

/-- Shows a piece, with the time since `start` where one is asked for. -/
def display (start : Nat) : Piece → IO Unit
  | .line text => IO.println text
  | .timing label => do
    let elapsed := (← IO.monoNanosNow) - start
    IO.println (label ++ Text.natural (elapsed / 1000) ++ "µs")
  | .printed bytes => do (← IO.getStdout).write bytes

end GradualScript.CommandLine

open GradualScript in
/-- Runs the script that the arguments name. -/
def main (arguments : List String) : IO UInt32 := do
  let content ←
    match arguments with
    | [path] => CommandLine.readText path
    | _ => pure (.error .missing)
  let start ← IO.monoNanosNow
  let name := (← IO.appPath).fileName.getD ""
  let answer := CommandLine.run Script.defaultBudget name arguments fun _ => content
  answer.output.forM (CommandLine.display start)
  IO.eprint answer.failure
  return answer.code.toUInt32
