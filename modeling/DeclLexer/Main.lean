import DeclLexer.CommandLine

/-!
# The program

Reads the file that the arguments name, and writes what the command line answers.
-/

namespace DeclLexer

/-- Reads a file, and says why if that fails. -/
def readFile (path : String) : IO (Except ReadFailure ByteArray) := do
  try
    return .ok (← IO.FS.readBinFile path)
  catch
    | .noFileOrDirectory ..     => return .error .missing
    | .inappropriateType _ 21 _ => return .error .directory
    | .inappropriateType ..     => return .error .notDirectory
    | e                         => return .error (.other (toString e))

/-- Writes an outcome where it belongs. -/
def Outcome.write (outcome : Outcome) : IO Unit := do
  IO.print outcome.output
  IO.eprint outcome.complaint

end DeclLexer

open DeclLexer in
def main (arguments : List String) : IO UInt32 := do
  let outcome ← runCommand readFile arguments
  outcome.write
  return outcome.status.toUInt32
