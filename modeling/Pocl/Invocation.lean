import Pocl.Command

/-!
# Command line arguments

The first argument names a subcommand. A subcommand takes a path and, where it writes tokens or
trees, an option `--format` in either position. Arguments are read from the left, so that of a
request for help and a mistake the first one counts.

## Main definitions

* `Invocation`: a request for help, or a command
* `Invocation.ofArguments? args`: the request that the arguments make, where they make one
* `parseArguments args`: the command that the arguments ask for
-/

namespace Pocl

/-- What the arguments ask for. -/
inductive Invocation where
  | help
  | run (command : Command)
  deriving DecidableEq, Repr

/-- The format of a name, which is case-sensitive. -/
def Format.ofName? (name : String) : Option Format :=
  if name = "text" then some .text
  else if name = "json" then some .json
  else none

namespace Invocation

/-- Whether an argument asks for help: `--help`, or a cluster of short options that begins with
`h`. -/
def asksHelp (arg : String) : Bool :=
  arg = "--help" || arg.startsWith "-h"

/-- Whether an argument has the form of an option. A lone hyphen has not. -/
def isOption (arg : String) : Bool :=
  arg.startsWith "-" && arg ≠ "-"

/-- The value that is attached to an option by an equals sign. -/
def attached? (option arg : String) : Option String :=
  if arg.startsWith (option ++ "=") then
    some (String.ofList (arg.toList.drop (option.length + 1)))
  else none

/-- The path after `--`, from where on no argument is an option. -/
def pathAfterOptions? (path? : Option String) : List String → Option String
  | [] => path?
  | [arg] => if path?.isNone then some arg else none
  | _ => none

/-- Reads the arguments of a subcommand that takes a path alone. -/
def ofPath? (command : String → Command) (path? : Option String) :
    List String → Option Invocation
  | [] => path?.map fun path => run (command path)
  | arg :: args =>
    if arg = "--" then (pathAfterOptions? path? args).map fun path => run (command path)
    else if asksHelp arg then some help
    else if isOption arg || path?.isSome then none
    else ofPath? command (some arg) args

/-- Reads the arguments of a subcommand that takes a path and a format. The format is given at most
once, and it is text where it is not given. -/
def ofPathAndFormat? (command : String → Format → Command) (path? : Option String)
    (format? : Option Format) (args : List String) : Option Invocation :=
  match args with
  | [] => path?.map fun path => run (command path (format?.getD .text))
  | arg :: args =>
    if arg = "--" then
      (pathAfterOptions? path? args).map fun path => run (command path (format?.getD .text))
    else if asksHelp arg then some help
    else if arg = "--format" then
      match args with
      | [] => none
      | name :: args =>
        if format?.isSome then none
        else (Format.ofName? name).bind fun format =>
          ofPathAndFormat? command path? (some format) args
    else
      match attached? "--format" arg with
      | some name =>
        if format?.isSome then none
        else (Format.ofName? name).bind fun format =>
          ofPathAndFormat? command path? (some format) args
      | none =>
        if isOption arg || path?.isSome then none
        else ofPathAndFormat? command (some arg) format? args
termination_by args.length

/-- The names of the subcommands. -/
def subcommands : List String :=
  ["tokens", "ast", "check", "help"]

/-- The request that the arguments make, or `none` where they make none. -/
def ofArguments? : List String → Option Invocation
  | [] => none
  | arg :: args =>
    if arg = "tokens" then ofPathAndFormat? .tokens none none args
    else if arg = "ast" then ofPathAndFormat? .tree none none args
    else if arg = "check" then ofPath? .check none args
    else if arg = "help" then
      match args with
      | [] => some help
      | [topic] => if subcommands.contains topic then some help else none
      | _ => none
    else if asksHelp arg then some help
    else none

end Invocation

/-! ## Requests without a command -/

/-- How the program is called. -/
def usage : String :=
  "Usage: pocl <COMMAND>\n\n" ++
  "Commands:\n" ++
  "  tokens PATH [--format text|json]  Print the token stream of a source file\n" ++
  "  ast PATH [--format text|json]     Print the syntax tree of a source file\n" ++
  "  check PATH                        Report whether a source file is well-formed\n" ++
  "  help [COMMAND]                    Print this message\n"

/-- The command that the arguments ask for. A request for help ends the program with code zero, and
arguments that make no request end it with code two. -/
def parseArguments (args : List String) : Except ExitReport Command :=
  match Invocation.ofArguments? args with
  | some (.run command) => .ok command
  | some .help => .error ⟨0, usage, ""⟩
  | none => .error ⟨2, "", usage⟩

end Pocl
