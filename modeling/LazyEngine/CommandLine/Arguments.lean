/-
The arguments of the command line.

Options that hold for every command may stand before the command or behind it; the one behind it
counts. The base directory may also come from the environment, which counts least.

* `Scan.read` — read the options of one level, up to the end or to the name of a command;
* `Arguments.parse` — read both levels and put them together.

Design notes: an option that takes a value stays pending until the next option or the end, and only
then is its value looked at. So help or the version, which end everything at once, are only shown
if all that stands before them is in order.
-/
import LazyEngine.CommandLine.Number

namespace LazyEngine.CommandLine

/-- Every option of every level. -/
inductive Opt where
  | verbose
  | config
  | baseDirectory
  | versionCode
  | help
  | version
  | workers
  | views
  | warmup
  | debuggable
  | switchFile
  | trigger
  | fail
  | yes
deriving DecidableEq, Repr

namespace Opt

def long : Opt → String
  | verbose => "verbose"
  | config => "config"
  | baseDirectory => "base-dir"
  | versionCode => "version-code"
  | help => "help"
  | version => "version"
  | workers => "workers"
  | views => "views"
  | warmup => "warmup-ms"
  | debuggable => "debuggable"
  | switchFile => "command-line-file"
  | trigger => "trigger"
  | fail => "fail"
  | yes => "yes"

def short? : Opt → Option Char
  | verbose => some 'v'
  | config => some 'c'
  | help => some 'h'
  | version => some 'V'
  | workers => some 'w'
  | yes => some 'y'
  | _ => none

def takesValue : Opt → Bool
  | config | baseDirectory | versionCode | workers | views | warmup | switchFile | trigger => true
  | _ => false

/-- Whether a text is a value of the option. -/
def accepts (o : Opt) (value : String) : Bool :=
  match o with
  | config | baseDirectory | switchFile => !value.isEmpty
  | versionCode => (versionCode? value).isSome
  | workers | views | warmup => (count? UInt64.size value).isSome
  | trigger => value == "owner" || value == "worker"
  | _ => true

/-- The options of every level. -/
def everywhere : List Opt := [verbose, config, baseDirectory, versionCode, help]

end Opt

/-- The name of a command. -/
inductive CommandName where
  | run
  | status
  | reset
deriving DecidableEq, Repr

namespace CommandName

def text : CommandName → String
  | run => "run"
  | status => "status"
  | reset => "reset"

def all : List CommandName := [run, status, reset]

def ofText? (s : String) : Option CommandName :=
  all.find? (·.text == s)

end CommandName

/-- The options that may stand before the command (`none`) or behind it. -/
def optionsAt : Option CommandName → List Opt
  | none => .version :: Opt.everywhere
  | some .run =>
    [.workers, .views, .warmup, .debuggable, .switchFile, .trigger, .fail] ++ Opt.everywhere
  | some .status => Opt.everywhere
  | some .reset => .yes :: Opt.everywhere

/-- What can come instead of arguments. -/
inductive Halt where
  /-- The arguments are not in order. -/
  | usage
  | help
  | version
deriving DecidableEq, Repr

/-- What has been read of one level. -/
structure Scan where
  /-- Options with their values, last first; a flag has no value to speak of. -/
  given : List (Opt × String) := []
  /-- An option that waits for its value, or for the value to be looked at. -/
  pending : Option (Opt × Option String) := none

/-- How the reading of a level ended. -/
inductive Stop where
  | atEnd
  | atCommand (name : CommandName) (rest : List String)

namespace Scan

/-- Take in an option, which must not have been given before. -/
def take (s : Scan) (o : Opt) (value : String) : Except Halt Scan :=
  if (s.given.lookup o).isSome || !o.accepts value then .error .usage
  else .ok { s with given := (o, value) :: s.given }

/-- Settle the pending option. -/
def resolve (s : Scan) : Except Halt Scan :=
  match s.pending with
  | none => .ok s
  | some (_, none) => .error .usage
  | some (o, some value) => { s with pending := none }.take o value

/-- Whether the next text is a value, unless it looks like an option. -/
def awaitsValue (s : Scan) : Bool :=
  match s.pending with
  | some (_, none) => true
  | _ => false

/-- An option without a value. -/
def flag (s : Scan) (o : Opt) : Except Halt Scan := do
  let s ← s.resolve
  match o with
  | .help => .error .help
  | .version => .error .version
  | o => s.take o ""

/-- An option that takes a value, with the value if it is attached. -/
def valued (s : Scan) (o : Opt) (attached : Option String) : Except Halt Scan := do
  let s ← s.resolve
  match attached with
  | some value => s.take o value
  | none => .ok { s with pending := some (o, none) }

/-- `--name` or `--name=value`, without the dashes. -/
def long (level : Option CommandName) (s : Scan) (text : List Char) : Except Halt Scan :=
  let name := String.ofList (text.takeWhile (· != '='))
  let attached :=
    if text.contains '=' then some (String.ofList ((text.dropWhile (· != '=')).drop 1)) else none
  match (optionsAt level).find? (·.long == name) with
  | none => .error .usage
  | some o =>
    if o.takesValue then s.valued o attached
    else if attached.isSome then .error .usage
    else s.flag o

/-- One-letter options in one text, without the dash; an option that takes a value has the rest of
the text as its value, if there is a rest. -/
def short (level : Option CommandName) (s : Scan) : List Char → Except Halt Scan
  | [] => .ok s
  | c :: rest =>
    match (optionsAt level).find? (·.short? == some c) with
    | none => .error .usage
    | some o =>
      if o.takesValue then
        let value := if rest.head? == some '=' then rest.drop 1 else rest
        s.valued o (if rest.isEmpty then none else some (String.ofList value))
      else match s.flag o with
        | .error h => .error h
        | .ok s => short level s rest

/-- Help on commands: everything behind it has to be the name of a command, and commands have no
commands. -/
def helpOn : List String → Halt
  | [] => .help
  | [name] => if name == "help" || (CommandName.ofText? name).isSome then .help else .usage
  | _ => .usage

/-- Read the options of a level. -/
def read (level : Option CommandName) (s : Scan) : List String → Except Halt (Scan × Stop)
  | [] => .ok (s, .atEnd)
  | text :: rest =>
    let option (next : Except Halt Scan) : Except Halt (Scan × Stop) :=
      match next with
      | .error h => .error h
      | .ok s => read level s rest
    let command : Option CommandName :=
      if level.isNone && !s.awaitsValue then CommandName.ofText? text else none
    match command, text.toList with
    | some name, _ => .ok (s, .atCommand name rest)
    | none, ['-', '-'] => if rest.isEmpty then .ok (s, .atEnd) else .error .usage
    | none, '-' :: '-' :: name => option (s.long level name)
    | none, '-' :: c :: letters => option (s.short level (c :: letters))
    | none, _ =>
      if level.isNone && !s.awaitsValue && text == "help" then .error (helpOn rest)
      else match s.pending with
        | some (o, none) => read level { s with pending := some (o, some text) } rest
        | _ => .error .usage

end Scan

/-- The options of one level, settled. An empty environment variable is an error unless the level
has the option that the variable stands in for. -/
def settled (s : Scan) (engineHome : Option String) : Except Halt (List (Opt × String)) := do
  let s ← s.resolve
  match s.given.lookup .baseDirectory, engineHome with
  | none, some value => if value.isEmpty then .error .usage else .ok s.given
  | _, _ => .ok s.given

/-- Who starts the engine. -/
inductive Trigger where
  | owner
  | worker
deriving DecidableEq, Repr

/-- How an engine is to be run. -/
structure RunOptions where
  workers : Nat := 4
  views : Nat := 2
  warmup : Option UInt64 := none
  debuggable : Bool := false
  switchFile : Option String := none
  trigger : Trigger := .worker
  fail : Bool := false
deriving DecidableEq, Repr

/-- What is to be done. -/
inductive Command where
  | run (options : RunOptions)
  | status
  | reset (confirmed : Bool)
deriving DecidableEq, Repr

/-- The command line, understood. -/
structure Arguments where
  verbose : Bool := false
  config : Option String := none
  baseDirectory : Option String := none
  versionCode : Option UInt32 := none
  command : Option Command := none
deriving DecidableEq, Repr

namespace Arguments

/-- The command with the options behind it. -/
def commandOf (given : List (Opt × String)) : CommandName → Command
  | .status => .status
  | .reset => .reset (given.lookup .yes).isSome
  | .run => .run {
      workers := ((given.lookup .workers).bind (count? UInt64.size)).getD 4
      views := ((given.lookup .views).bind (count? UInt64.size)).getD 2
      warmup := ((given.lookup .warmup).bind (count? UInt64.size)).map UInt64.ofNat
      debuggable := (given.lookup .debuggable).isSome
      switchFile := given.lookup .switchFile
      trigger := if given.lookup .trigger = some "owner" then .owner else .worker
      fail := (given.lookup .fail).isSome }

/-- Put both levels and the environment together; `inner` stands behind the command. -/
def combine (outer inner : List (Opt × String)) (engineHome : Option String)
    (command : Option CommandName) : Arguments :=
  let value (o : Opt) : Option String := (inner.lookup o).or (outer.lookup o)
  { verbose := (value .verbose).isSome
    config := value .config
    baseDirectory := (value .baseDirectory).or engineHome
    versionCode := (value .versionCode).bind versionCode?
    command := command.map (commandOf inner) }

/-- Read the command line. What stands behind the command is settled first. -/
def parse (args : List String) (engineHome : Option String) : Except Halt Arguments := do
  let (outer, stop) ← Scan.read none {} args
  match stop with
  | .atEnd =>
    let outer ← settled outer engineHome
    return combine outer [] engineHome none
  | .atCommand name rest =>
    let (inner, _) ← Scan.read (some name) {} rest
    let inner ← settled inner engineHome
    let outer ← settled outer engineHome
    return combine outer inner engineHome (some name)

end Arguments

end LazyEngine.CommandLine
