import TypeAtlas.Inspector.Workspace

/-!
# The inspector

The command line of the inspector: files are read, the plan of the command is
carried out, and failures are reported.
-/

namespace TypeAtlas

namespace Inspector

/-- The content of a file, if it can be read. -/
def readFile? (path : String) : IO (Option String) := do
  try
    return some (← IO.FS.readFile path)
  catch _ =>
    return none

def reportFailure (reason : String) : IO UInt32 := do
  IO.eprintln s!"Error: {reason}"
  return UInt32.ofNat failureCode

def carryOut : Plan → IO UInt32
  | .print text => do
    IO.print text
    return 0
  | .fail reason => reportFailure reason
  | .write path content confirmation failure => do
    try
      IO.FS.writeFile path content
    catch _ =>
      return ← reportFailure failure
    IO.print confirmation
    return 0

end Inspector

end TypeAtlas

open TypeAtlas.Inspector in
def main (words : List String) : IO UInt32 := do
  match Command.parse? words with
  | none =>
    IO.eprintln "usage: describe, list or gen-config, with their options"
    return UInt32.ofNat usageCode
  | some command =>
    let contents ← command.inputs.mapM fun path => do
      return (path, ← readFile? path)
    carryOut (plan (fun path => (contents.lookup path).join) command)
