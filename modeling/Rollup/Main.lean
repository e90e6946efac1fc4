import Rollup.Command.Run

/-! The program: it reads the files that a command names, and writes what the command prints. -/

namespace Rollup

/-- The text of a file; none if there is no such file or it is not UTF-8. -/
def readText (path : String) : IO (Option String) := do
  try
    let content ← IO.FS.readBinFile path
    return String.fromUTF8? content
  catch _ =>
    return none

def filesOf : Invocation → List String
  | .run (.decode options _ _) | .run (.inspect options) =>
    options.columns :: options.config?.toList
  | _ => []

def run (arguments : List String) : IO UInt32 := do
  let invocation := Invocation.ofArguments arguments
  let texts ← (filesOf invocation).mapM fun path => do return (path, ← readText path)
  let files (path : String) := (texts.find? fun text => text.1 == path).bind (·.2)
  let outcome := invocation.outcome files
  (← IO.getStdout).putStr outcome.output
  (← IO.getStderr).putStr outcome.errors
  return UInt32.ofNat outcome.code

end Rollup

def main (arguments : List String) : IO UInt32 := Rollup.run arguments
