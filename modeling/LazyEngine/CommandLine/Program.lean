/-
The program: from arguments to a report.

`Program.start` does everything up to the first question to the user, if there is one.
-/
import LazyEngine.CommandLine.Reset
import LazyEngine.CommandLine.Run
import LazyEngine.CommandLine.Status

namespace LazyEngine.CommandLine

/-- What the program has come to. -/
inductive Progress where
  | finished (report : Report)
  /-- It has asked a question and goes on with the answer. -/
  | asking (question : String) (answered : String → Report)

namespace Program

/-- The name of the program. -/
def name : String := "engine-startup"

/-- What is printed on request instead of doing anything. -/
def helpText : String :=
  "Usage: " ++ name ++ " [OPTIONS] [COMMAND]\n\nCommands: "
    ++ ", ".intercalate (CommandName.all.map CommandName.text)

/-- What is printed if no command is given. -/
def noCommand : List String :=
  ["No command specified. Use --help for usage information.",
    "Use '" ++ name ++ " run' to start a simulated engine."]

/-- What is done instead of a command. -/
def halt (fs : FileSystem) : Halt → Report
  | .usage =>
    { ending := .code 2, errors := ["Usage: " ++ name ++ " [OPTIONS] [COMMAND]"], files := fs }
  | .help => .done fs [.line helpText]
  | .version => .done fs [.line (name ++ " " ++ release)]

/-- The configuration: the file's, with what the arguments say. -/
def configure (fs : FileSystem) (env : Environment) (a : Arguments) : Except Failure Config :=
  (Config.load fs env a.config).map fun config =>
    { config with
      baseDirectory := a.baseDirectory.getD config.baseDirectory
      version := a.versionCode.getD config.version }

/-- Start the program. -/
def start (args : List String) (env : Environment) (fs : FileSystem) (now : String) : Progress :=
  match Arguments.parse args env.engineHome with
  | .error h => .finished (halt fs h)
  | .ok a =>
    match configure fs env a with
    | .error f => .finished (.failed fs [] f)
    | .ok config =>
      match a.command with
      | none => .finished { ending := .code 0, errors := noCommand, files := fs }
      | some (.run o) => .finished (run config o fs now)
      | some .status => .finished (status config fs)
      | some (.reset true) => .finished (Reset.perform config fs)
      | some (.reset false) => .asking (Reset.question config) (Reset.afterAnswer config fs)

/-- The program with everything typed in advance; only the first line of it is read. -/
def run (args : List String) (env : Environment) (typed : String) (fs : FileSystem)
    (now : String) : Report :=
  match start args env fs now with
  | .finished r => r
  | .asking question answered =>
    let r := answered (String.ofList (typed.toList.takeWhile (· != '\n')))
    { r with output := .prompt question :: r.output }

end Program

end LazyEngine.CommandLine
