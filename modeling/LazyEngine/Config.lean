/-
The configuration.

Every setting has a default, which the configuration file may replace and the command line may
replace in turn (`CommandLine/Arguments`). Only the base directory's default depends on the
environment.
-/
import LazyEngine.Json.Reader
import LazyEngine.Json.Writer
import LazyEngine.Switches

namespace LazyEngine

/-- What the environment says about directories. -/
structure Environment where
  /-- The base directory, if it is not blank. -/
  engineHome : Option String := none
  /-- The home directory, if it is not empty. -/
  home : String
  /-- The home directory of the account. -/
  accountHome : String := "/root"

namespace Environment

/-- The name of the variable that holds `engineHome`. -/
def engineHomeVariable : String := "ENGINE_STARTUP_HOME"

def homeDirectory (env : Environment) : String :=
  if env.home.isEmpty then env.accountHome else env.home

/-- The base directory where nothing else is said. -/
def baseDirectory (env : Environment) : String :=
  let fallback := Path.join env.homeDirectory ".engine-startup"
  match env.engineHome with
  | some directory => if Text.isBlankText directory then fallback else directory
  | none => fallback

end Environment

/-- The settings of a provider. -/
structure Config where
  baseDirectory : String
  version : UInt32 := 1
  debuggable : Bool := false
  /-- A file with switches, read only for debuggable engines. -/
  switchFile : Option String := none
  /-- How long starting takes, in milliseconds. -/
  warmup : UInt64 := 200
  ownerName : String := "engine-owner"
deriving DecidableEq, Repr

namespace Config

def default (env : Environment) : Config :=
  { baseDirectory := env.baseDirectory }

def dataDirectory (c : Config) : String :=
  Path.join c.baseDirectory "data"

def prefsPath (c : Config) : String :=
  Path.join c.baseDirectory "prefs.json"

/-- The fields of a configuration file, in the order of an array. -/
def fields : List (Json.Field Config) :=
  [{ name := "baseDir"
     read := fun c ts => (Json.string ts).map fun r => ({ c with baseDirectory := r.1 }, r.2) },
    { name := "versionCode"
      read := fun c ts => (Json.natural 0xFFFFFFFF ts).map fun r =>
        ({ c with version := .ofNat r.1 }, r.2) },
    { name := "debuggable"
      read := fun c ts => (Json.boolean ts).map fun r => ({ c with debuggable := r.1 }, r.2) },
    { name := "commandLineFile"
      read := fun c ts => (Json.optional Json.string ts).map fun r =>
        ({ c with switchFile := r.1 }, r.2) },
    { name := "warmupMs"
      read := fun c ts => (Json.natural 0xFFFFFFFFFFFFFFFF ts).map fun r =>
        ({ c with warmup := .ofNat r.1 }, r.2) },
    { name := "ownerThreadName"
      read := fun c ts => (Json.string ts).map fun r => ({ c with ownerName := r.1 }, r.2) }]

/-- Read a configuration; what the text does not say is taken from `defaults`. -/
def ofJson (defaults : Config) (text : String) : Except Json.Fault Config :=
  Json.readRecord fields defaults text

/-- What is written of a configuration; nothing is written of a switch file that there is not. -/
def members (c : Config) : List (String × String) :=
  [("baseDir", Json.encode c.baseDirectory), ("versionCode", toString c.version.toNat),
    ("debuggable", toString c.debuggable)]
  ++ (c.switchFile.map fun path => ("commandLineFile", Json.encode path)).toList
  ++ [("warmupMs", toString c.warmup.toNat), ("ownerThreadName", Json.encode c.ownerName)]

/-- Write a configuration. -/
def toJson (layout : Json.Layout) (c : Config) : String :=
  Json.writeObject layout c.members

/-- The configuration of a file, or the default if no file is named. -/
def load (fs : FileSystem) (env : Environment) : Option String → Except Failure Config
  | none => .ok (default env)
  | some path =>
    match fs.readText path with
    | .error e => .error ⟨[.readConfig path], .file e⟩
    | .ok text =>
      match ofJson (default env) text with
      | .ok config => .ok config
      | .error f => .error ⟨[.parseConfig path], .json f⟩

/-- The switches to start the engine with. -/
def switches (c : Config) (fs : FileSystem) : Except Failure (List String) :=
  match c.switchFile, c.debuggable with
  | some path, true => (Switches.read fs path).map Switches.complete
  | _, _ => .ok (Switches.complete [])

end Config

end LazyEngine
