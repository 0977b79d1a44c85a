import Pocl.Invocation

/-!
# The command line program

Reads the arguments, runs the command they ask for on the file system, and writes its report.

## Main definitions

* `main args`: the program
-/

namespace Pocl

/-- The cause of a failed read. -/
def readErrorOf : IO.Error → ReadError
  | .noFileOrDirectory .. => .notFound
  | .inappropriateType _ code _ => if code = 21 then .isDirectory else .notDirectory
  | e => .other (toString e)

/-- The text of the file at a path. -/
def readFile (path : String) : IO (Except ReadError String) := do
  try
    match String.fromUTF8? (← IO.FS.readBinFile path) with
    | some text => return .ok text
    | none => return .error .notText
  catch e =>
    return .error (readErrorOf e)

end Pocl

open Pocl in
/-- Runs the program and answers its exit code: zero for success, one for a command that fails, and
two for arguments that make no request. -/
def main (args : List String) : IO UInt32 := do
  -- Without a command no file is read.
  let content ← match parseArguments args with
    | .ok command => readFile command.path
    | .error _ => pure (.error .notFound)
  match runProgram? parseArguments (fun _ => content) args with
  | none =>
    IO.eprintln "a token stands inside a character of the source"
    return 1
  | some exit =>
    IO.print exit.stdout
    IO.eprint exit.stderr
    return exit.code.toUInt32
