import Pocl.Diagnostic
import Pocl.Json

/-!
# Commands

A command reads one source file and reports on it. It writes to the standard output only when it
succeeds. Warnings go to the standard error, and they precede a failure. The program runs the
command that its arguments ask for, and its exit code tells whether the command succeeded.

## Main definitions

* `Command`: what to report on which file
* `ReadError`: why a file cannot be read
* `CommandError`: why a command fails
* `Report`: what a command writes, and how it ends
* `Command.run? read command`: the report of a command, where `read` reads files
* `ExitReport`: what the program writes, and its exit code
* `runProgram? parse read args`: the exit of the program, where `parse` reads its arguments
-/

namespace Pocl

/-- The form of an output. -/
inductive Format where
  | text
  | json
  deriving DecidableEq, Repr

/-- A command on the file at a path. -/
inductive Command where
  /-- List the tokens. -/
  | tokens (path : String) (format : Format)
  /-- Print the syntax tree. -/
  | tree (path : String) (format : Format)
  /-- Count the top-level statements. -/
  | check (path : String)
  deriving DecidableEq, Repr

/-! ## Failures -/

/-- Why a path cannot be read as a text. -/
inductive ReadError where
  | notFound
  | isDirectory
  | notDirectory
  /-- The content is not UTF-8. -/
  | notText
  /-- Any other failure, as the operating system words it. -/
  | other (description : String)
  deriving DecidableEq, Repr

/-- The wording of a read error. -/
def ReadError.message : ReadError → String
  | .notFound => "No such file or directory (os error 2)"
  | .isDirectory => "Is a directory (os error 21)"
  | .notDirectory => "Not a directory (os error 20)"
  | .notText => "stream did not contain valid UTF-8"
  | .other description => description

/-- Why a command fails. -/
inductive CommandError where
  | unreadable (path : String) (cause : ReadError)
  | malformed (path : String) (diagnostic : String)
  deriving DecidableEq, Repr

namespace CommandError

/-- What went wrong. -/
def headline : CommandError → String
  | unreadable path _ => "Failed to read " ++ path
  | malformed path diagnostic => path ++ ": " ++ diagnostic

/-- What made it go wrong, where that is told apart. -/
def cause? : CommandError → Option String
  | unreadable _ cause => some cause.message
  | malformed _ _ => none

/-- The error and its cause on one line. -/
def message (e : CommandError) : String :=
  match e.cause? with
  | some cause => e.headline ++ ": " ++ cause
  | none => e.headline

/-- The error and its cause as a paragraph each. -/
def paragraphs (e : CommandError) : String :=
  match e.cause? with
  | some cause => "Error: " ++ e.headline ++ "\n\nCaused by:\n    " ++ cause ++ "\n"
  | none => "Error: " ++ e.headline ++ "\n"

end CommandError

/-! ## Reports -/

/-- What a command writes, and its result: a count of statements where it counts them. -/
structure Report where
  stdout : String
  stderr : String
  result : Except CommandError (Option Nat)

/-- The report of a command that writes nothing and fails. -/
def Report.failed (e : CommandError) : Report :=
  ⟨"", "", .error e⟩

/-- Warnings about the file at a path, one on each line. -/
def warningLines (path : String) (warnings : List String) : String :=
  String.join (warnings.map fun warning => path ++ ": " ++ warning ++ "\n")

/-- The program of a source text, or the located error in it. -/
def readProgram? (path source : String) : Option (Except CommandError Program) :=
  match parseSource source with
  | .ok program => some (.ok program)
  | .error e => (e.diagnostic? source).map fun diagnostic => .error (.malformed path diagnostic)

/-- The output of a list of tokens. -/
def Format.tokens (ts : List Token) : Format → String
  | text => listing ts
  | json => (tokensToJson ts).text ++ "\n"

/-- The output of a program. -/
def Format.tree (program : Program) : Format → String
  | text => program.outlineText
  | json => program.toJson.text ++ "\n"

/-- The report on the tokens of a source text. -/
def tokensReport? (path : String) (format : Format) (source : String) : Option Report := do
  let warnings ← warnings? source (scan source)
  some ⟨format.tokens (scan source), warningLines path warnings, .ok none⟩

/-- The report on the syntax tree of a source text. -/
def treeReport? (path : String) (format : Format) (source : String) : Option Report := do
  match ← readProgram? path source with
  | .ok program => some ⟨format.tree program, "", .ok none⟩
  | .error e => some (.failed e)

/-- The report on whether a source text is a program. -/
def checkReport? (path source : String) : Option Report := do
  let warnings ← warnings? source (scan source)
  match ← readProgram? path source with
  | .ok program =>
    let count := program.statements.length
    some ⟨"ok: " ++ toString count ++ " statement(s)\n", warningLines path warnings,
      .ok (some count)⟩
  | .error e => some ⟨"", warningLines path warnings, .error e⟩

namespace Command

/-- The path of a command. -/
def path : Command → String
  | tokens path _ => path
  | tree path _ => path
  | check path => path

/-- The report of a command on a source text, or `none` where a token has no location in it. -/
def report? (source : String) : Command → Option Report
  | tokens path format => tokensReport? path format source
  | tree path format => treeReport? path format source
  | check path => checkReport? path source

/-- The report of a command, where `read` reads files. -/
def run? (read : String → Except ReadError String) (command : Command) : Option Report :=
  match read command.path with
  | .error cause => some (.failed (.unreadable command.path cause))
  | .ok source => command.report? source

end Command

/-! ## The program -/

/-- What the program writes, and its exit code. -/
structure ExitReport where
  code : Nat
  stdout : String
  stderr : String
  deriving DecidableEq, Repr

/-- The exit of a command: code one and the error after the warnings where it fails. -/
def Report.exit (report : Report) : ExitReport :=
  match report.result with
  | .ok _ => ⟨0, report.stdout, report.stderr⟩
  | .error e => ⟨1, report.stdout, report.stderr ++ e.paragraphs⟩

/-- The exit of the program on its arguments. `parse` reads the arguments, and answers the command
they ask for or the exit that they lead to without one; `read` reads files. -/
def runProgram? (parse : List String → Except ExitReport Command)
    (read : String → Except ReadError String) (args : List String) : Option ExitReport :=
  match parse args with
  | .ok command => (command.run? read).map Report.exit
  | .error exit => some exit

end Pocl
