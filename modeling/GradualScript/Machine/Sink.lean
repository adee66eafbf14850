/-!
# Sinks

What a script prints goes into a sink, byte by byte. A sink may have a limit: it takes the bytes up
to the limit and refuses the rest.
-/

namespace GradualScript

/-- What has been printed, and how many bytes may be printed in all. -/
structure Sink where
  limit : Option Nat
  written : ByteArray

namespace Sink

/-- An empty sink. -/
def empty (limit : Option Nat) : Sink := ⟨limit, .empty⟩

/-- How many of `count` more bytes the sink takes. -/
def room (sink : Sink) (count : Nat) : Nat :=
  match sink.limit with
  | some limit => min count (limit - sink.written.size)
  | none => count

/-- Writes a text as far as the sink takes it, and says whether it took all. -/
def write (sink : Sink) (text : String) : Sink × Bool :=
  let bytes := text.toUTF8
  let taken := sink.room bytes.size
  ({ sink with written := sink.written ++ bytes.extract 0 taken }, taken = bytes.size)

/-- Writes texts in turn, up to the first one that the sink does not take as a whole. -/
def writeAll (sink : Sink) : List String → Sink × Bool
  | [] => (sink, true)
  | text :: texts =>
      let (next, complete) := sink.write text
      if complete then next.writeAll texts else (next, false)

/-- Why a sink did not take a text. -/
def refusal : String := "failed to write whole buffer"

end Sink

end GradualScript
