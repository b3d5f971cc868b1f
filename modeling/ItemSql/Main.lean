import ItemSql.CommandLine

/-!
# The program

Runs the command line in the world of the process.
-/

namespace ItemSql.CommandLine

/-- The bytes of a file, if it can be read. -/
def fileBytes? (path : String) : IO (Option Text.Bytes) := do
  match ← (IO.FS.readBinFile path).toBaseIO with
  | .ok content => return some content.toList
  | .error _ => return none

/-- The world of the process. -/
def processWorld : World IO where
  setting? name := IO.getEnv name
  file? := fileBytes?
  input := do
    let content ← (← IO.getStdin).readBinToEnd
    return content.toList

end ItemSql.CommandLine

open ItemSql.CommandLine in
/-- Prints what a run comes to; the exit code tells whether it failed. -/
def main (arguments : List String) : IO UInt32 := do
  let report ← run processWorld arguments
  IO.print report.output
  if let some message := report.failure?.bind Failure.message? then
    IO.eprintln ("Error: " ++ message)
  return report.exitCode.toUInt32
