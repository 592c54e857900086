import ElementGrammar.CommandLine.Answer

/-!
# The command line

Reads what the plan of the arguments asks for, and writes the answer.
-/

namespace ElementGrammar

/-- The content of a file, or why there is none. -/
def readContent (path : String) : IO (Except FileError (List UInt8)) := do
  try
    return .ok (← IO.FS.readBinFile path).toList
  catch
    | .noFileOrDirectory .. => return .error .notFound
    | .inappropriateType _ code _ =>
      return .error (if code = 21 then .isDirectory else .notDirectory)
    | e => throw e

/-- Writes an answer and gives its exit code. -/
def Answer.write (a : Answer) : IO UInt32 := do
  IO.print a.stdout
  IO.eprint a.stderr
  return a.code.toUInt32

end ElementGrammar

open ElementGrammar in
/-- Reads a document and writes its tree or its schema. -/
def main (arguments : List String) : IO UInt32 := do
  match Plan.ofArguments arguments with
  | .answer a => a.write
  | .read input emit => (Answer.ofContent input emit (← readContent input)).write
