import Formulary.CommandLine.Answer

/-!
# The program

Reads the files that its arguments name, prints the answer and ends with its code: zero for an
output, one for a failure, two for misuse.
-/

namespace Formulary.CommandLine

/-- More fuel than a script uses up. -/
def ample : Nat := 0x1000000000000000

/-- The number of an error, which some calls give with the opposite sign. -/
def errorNumber (code : UInt32) : UInt32 :=
  if 0x80000000 ≤ code then 0 - code else code

/-- The fault that an error of the system is. -/
def FileFault.ofError : IO.Error → FileFault
  | .noFileOrDirectory .. => .notFound
  | .permissionDenied .. => .permissionDenied
  | .inappropriateType _ code _ => if errorNumber code = 20 then .notDirectory else .isDirectory
  | .invalidArgument _ code details =>
    if errorNumber code = 36 then .nameTooLong
    else if errorNumber code = 40 then .tooManyLinks
    else .other details
  | .userError _ => .notText
  | error => .other (toString error)

/-- Reads a file. -/
def readPath (path : String) : IO (String × Except FileFault String) := do
  try
    let text ← IO.FS.readFile path
    return (path, .ok text)
  catch error => return (path, .error (.ofError error))

/-- The files that have been read. -/
def filesOf (contents : List (String × Except FileFault String)) : Files := fun path =>
  (contents.lookup path).getD (.error .notFound)

/-- How the program is called. -/
def usage : String :=
  "usage: formula [--config FILE] [-p|--pretty] COMMAND\n"
    ++ "  eval SCRIPT [--var NAME=JSON]... [-f|--functions FILE]\n"
    ++ "  refs SCRIPT\n"
    ++ "  trigger ID -c|--catalog FILE [--context JSON]\n"

end Formulary.CommandLine

open Formulary.CommandLine in
/-- Answers the arguments. -/
def main (arguments : List String) : IO UInt32 := do
  let paths := ((Invocation.ofArguments? arguments).map Invocation.paths).getD []
  let contents ← paths.mapM readPath
  match answer ample (filesOf contents) arguments with
  | .output text =>
    IO.print text
    return 0
  | .failed message =>
    IO.eprintln ("Error: " ++ message)
    return 1
  | .misused =>
    IO.eprint usage
    return 2
