import Snippet.Command.Run

/-!
The command line program.
-/

namespace Snippet

/-- The content of a file. -/
def readFileAt (path : String) : IO (Except ReadFault String) := do
  try
    return .ok (← IO.FS.readFile path)
  catch error =>
    match error with
    | .noFileOrDirectory _ _ _ => return .error .missing
    | .inappropriateType _ 21 _ => return .error .isDirectory
    | .inappropriateType _ _ _ => return .error .notDirectory
    | .userError _ => return .error .notText
    | other => return .error (.other (toString other))

/-- The number of steps that a call may take, more than any run takes. -/
def programSteps : Nat := 0x4000000000000000

/-- Carries out a command line and gives its exit code. -/
def program (arguments : List String) : IO UInt32 := do
  match CommandLine.parse? arguments with
  | none =>
    IO.eprintln "usage: [--settings FILE] [--json] generate|run|assembly OPTIONS [-- WORDS]"
    return 2
  | some line =>
    let files ← line.paths.mapM fun path => do
      return (path, ← readFileAt path)
    let trusted ← IO.getEnv Catalog.overrideVariable
    let readFile (path : String) := (files.lookup path).getD (.error .missing)
    match line.run ⟨readFile, trusted, programSteps⟩ with
    | none => return 1
    | some result =>
      IO.print result.output
      IO.eprint result.errors
      return result.exitCode.toUInt32

end Snippet

/-- Runs the command line program. -/
def main (arguments : List String) : IO UInt32 := Snippet.program arguments
