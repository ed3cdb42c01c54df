import Signpost.Program.Logging
import Signpost.Program.Run

/-!
This module contains the program on the command line.
-/

namespace Signpost.Program

def usage : String :=
  "Usage: jetrouter [OPTIONS] <COMMAND>\n\n"
    ++ "Commands:\n"
    ++ "  serve   Serve the demo echo controller\n"
    ++ "  routes  Print the route table of the demo controller\n"
    ++ "  help    Print this message or the help of the given subcommand(s)\n"

/-- What is said when there is no command to run. -/
def refusalText : Refusal → String
  | .help | .nothing => usage
  | .version => "jetrouter 0.1.0-alpha.1\n"
  | .missingCommand => "error: 'jetrouter' requires a subcommand but one was not provided\n"
  | .unknownCommand => "error: unrecognized subcommand\n"
  | .unknownArgument => "error: unexpected argument\n"
  | .missingValue => "error: a value is required\n"
  | .badValue => "error: invalid value\n"
  | .surplusValue => "error: unexpected value\n"
  | .repeated => "error: the argument cannot be used multiple times\n"

/-- The variables that the program looks at. -/
def variableNames : List String :=
  ["JET_STACK_SIZE", "JET_WILDCARD", "JET_NAME_MARKER", "JET_ADDR", "JET_LOG_LEVEL", "JET_LOG_FORMAT",
    "JET_LOG_ASYNC", "JET_LOG_TARGETS", "JET_LOG_LOCATION"]

def readEnvironment : IO Environment := do
  let values ← variableNames.mapM fun name => do
    return (name, ← IO.getEnv name)
  return fun name => (values.lookup name).join

/-- The settings of the log, in which the command line wins over the environment. -/
def logSettings (env : Environment) (invocation : Invocation) : LogSettings :=
  let s := LogSettings.ofEnvironment env
  { s with
    level := invocation.logLevel.getD s.level
    format := (invocation.logFormat.map LogFormat.ofString).getD s.format }

def fail (message : String) : IO UInt32 := do
  IO.eprintln ("Error: " ++ message)
  return 1

/-- Run the program on the words of its command line. -/
def runMain (words : List String) : IO UInt32 := do
  let env ← readEnvironment
  match CommandLine.read env words with
  | .error refusal =>
    if refusal = .help ∨ refusal = .version then
      IO.print (refusalText refusal)
      return 0
    else
      IO.eprint (refusalText refusal)
      return 2
  | .ok invocation =>
    match (logSettings env invocation).start false with
    | .error e => fail e.message
    | .ok () =>
      match invocation.command.run env with
      | .print text =>
        IO.print text
        return 0
      | .fail message => fail message
      | .listen address _ =>
        fail (startFailure (address.host ++ ":" ++ toString address.port) "no transport")

end Signpost.Program

def main (words : List String) : IO UInt32 :=
  Signpost.Program.runMain words
