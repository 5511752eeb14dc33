import ContextScan.CommandLine.Program

namespace ContextScan

/-! The program on real files. -/

/-- The reason that the system gives for a failed read.  Its error number may come negated. -/
def ReadFailure.ofSystem : IO.Error → ReadFailure
  | .noFileOrDirectory .. => notFound
  | .inappropriateType _ number _ =>
      if number = 20 || number = -20 then notDirectory else isDirectory
  | .permissionDenied .. => other "Permission denied (os error 13)"
  | error => other (toString error)

def readFile (path : String) : IO (Except ReadFailure (List UInt8)) := do
  try
    let content ← IO.FS.readBinFile path
    return .ok content.toList
  catch error =>
    return .error (ReadFailure.ofSystem error)

end ContextScan

open ContextScan in
/-- Reads the file that the arguments ask for, runs the program and prints what it says. -/
def main (arguments : List String) : IO UInt32 := do
  let setting? ← IO.getEnv kindsVariable
  let content ← match Program.requestedPath? arguments setting? with
    | some path => readFile path
    | none => pure (.error .notFound)
  let exit := Program.run arguments setting? fun _ => content
  IO.print exit.output
  IO.eprint exit.errors
  return exit.code
