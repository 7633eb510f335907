import SchemaBoard.Checks.CommandLine
import SchemaBoard.Checks.Observed
import SchemaBoard.Text.Lines

set_option autoImplicit false

/-!
The command line of the check runner. The commands run outside of it: their outcomes come in on
standard input.
-/

namespace SchemaBoard.Checks

/-- What is left to read on a stream. -/
partial def readRest (stream : IO.FS.Stream) (before : String) : IO String := do
  let line ← stream.getLine
  if line.isEmpty then return before else readRest stream (before ++ line)

/-- Answers a command line, and gives its exit code back. -/
def program (words : List String) : IO UInt32 := do
  match Request.ofWords (words.map String.toText) with
  | .error stop => return stop.exitCode.toNat.toUInt32
  | .ok request =>
    let input ← readRest (← IO.getStdin) ""
    let report := request.run (observed (Text.lines input.toText))
    IO.print report.output.asString
    IO.eprint report.errors.asString
    return report.code.toNat.toUInt32

end SchemaBoard.Checks

def main (words : List String) : IO UInt32 := SchemaBoard.Checks.program words
