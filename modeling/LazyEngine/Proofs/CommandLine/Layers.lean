/-
Where the settings of the command line come from.

A setting can come from an argument, from the environment, from a configuration file, or be the
default.

* `Stated` — what a configuration file says by itself; `load_eq` separates it from the defaults;
* `parse_eq` — the environment only fills in a base directory that no argument gives;
* `configuration_layers` — which source counts for which setting;
* `environment_beats_file` — the environment stands before the file, and a base directory from it
  is not looked at.

Design notes: the environment is read twice, for the default base directory, where a blank value
does not count, and in place of an argument, where every value counts. The second reading hides
the first, so what the file says about the base directory counts only if the variable is not set.
-/
import LazyEngine.CommandLine.Program
import LazyEngine.Proofs.Json.Records

namespace LazyEngine

namespace Config

/-- What a configuration file says. -/
structure Stated where
  baseDirectory : Option String := none
  version : Option UInt32 := none
  debuggable : Option Bool := none
  switchFile : Option (Option String) := none
  warmup : Option UInt64 := none
  ownerName : Option String := none
deriving DecidableEq

namespace Stated

/-- What is said, on top of a configuration that fills in the rest. -/
def completed (rest : Config) (s : Stated) : Config where
  baseDirectory := s.baseDirectory.getD rest.baseDirectory
  version := s.version.getD rest.version
  debuggable := s.debuggable.getD rest.debuggable
  switchFile := s.switchFile.getD rest.switchFile
  warmup := s.warmup.getD rest.warmup
  ownerName := s.ownerName.getD rest.ownerName

/-- The fields of a configuration file, read as they are. -/
def fields : List (Json.Field Stated) :=
  [{ name := "baseDir"
     read := fun s ts => (Json.string ts).map fun r =>
       ({ s with baseDirectory := some r.1 }, r.2) },
    { name := "versionCode"
      read := fun s ts => (Json.natural 0xFFFFFFFF ts).map fun r =>
        ({ s with version := some (.ofNat r.1) }, r.2) },
    { name := "debuggable"
      read := fun s ts => (Json.boolean ts).map fun r =>
        ({ s with debuggable := some r.1 }, r.2) },
    { name := "commandLineFile"
      read := fun s ts => (Json.optional Json.string ts).map fun r =>
        ({ s with switchFile := some r.1 }, r.2) },
    { name := "warmupMs"
      read := fun s ts => (Json.natural 0xFFFFFFFFFFFFFFFF ts).map fun r =>
        ({ s with warmup := some (.ofNat r.1) }, r.2) },
    { name := "ownerThreadName"
      read := fun s ts => (Json.string ts).map fun r =>
        ({ s with ownerName := some r.1 }, r.2) }]

def ofJson (text : String) : Except Json.Fault Stated :=
  Json.readRecord fields {} text

/-- What the file says, or nothing if no file is named. -/
def load (fs : FileSystem) : Option String → Except Failure Stated
  | none => .ok {}
  | some path =>
    match fs.readText path with
    | .error e => .error ⟨[.readConfig path], .file e⟩
    | .ok text =>
      match ofJson text with
      | .ok stated => .ok stated
      | .error f => .error ⟨[.parseConfig path], .json f⟩

end Stated

theorem fields_via (rest : Config) :
    List.Forall₂ (Json.Field.Via (Stated.completed rest)) Stated.fields fields := by
  refine .cons ?_ (.cons ?_ (.cons ?_ (.cons ?_ (.cons ?_ (.cons ?_ .nil))))) <;>
    refine ⟨rfl, rfl, fun s ts => ?_⟩ <;> dsimp only <;> rw [Json.Reading.onRecord_map] <;> rfl

theorem ofJson_eq (defaults : Config) (text : String) :
    ofJson defaults text = (Stated.ofJson text).map (Stated.completed defaults) :=
  Json.readRecord_via (fields_via defaults) {} text

/-- A configuration is what the file says on top of the defaults. -/
theorem load_eq (fs : FileSystem) (env : Environment) (path? : Option String) :
    load fs env path? = (Stated.load fs path?).map (Stated.completed (default env)) := by
  cases path? with
  | none => rfl
  | some path =>
    rw [load, Stated.load]
    cases fs.readText path with
    | error e => rfl
    | ok text =>
      dsimp only
      rw [ofJson_eq]
      cases Stated.ofJson text <;> rfl

end Config

/-- The default base directory does not depend on the environment if the environment names
none. -/
theorem Environment.baseDirectory_of_none {env : Environment} (h : env.engineHome = none) :
    env.baseDirectory = Path.join env.homeDirectory ".engine-startup" := by
  rw [baseDirectory, h]

namespace CommandLine

/-- The arguments, with a base directory from elsewhere if they do not give one. -/
def Arguments.withHome (engineHome : Option String) (a : Arguments) : Arguments :=
  { a with baseDirectory := a.baseDirectory.or engineHome }

theorem Arguments.combine_eq (outer inner : List (Opt × String)) (engineHome : Option String)
    (command : Option CommandName) :
    combine outer inner engineHome command
      = (combine outer inner none command).withHome engineHome := by
  simp [combine, withHome]

/-- A value of the environment is of no concern to a level, or it is empty and refused. -/
theorem settled_eq (s : Scan) (engineHome : Option String) :
    settled s engineHome = settled s none ∨
      engineHome = some "" ∧ settled s engineHome = .error .usage := by
  unfold settled
  cases s.resolve with
  | error h => exact .inl rfl
  | ok s =>
    cases engineHome with
    | none => exact .inl rfl
    | some value =>
      by_cases hempty : value = ""
      · subst hempty
        cases h : s.given.lookup .baseDirectory
        · exact .inr ⟨rfl, by simp [bind, Except.bind, h]⟩
        · exact .inl (by simp [bind, Except.bind, h])
      · left
        cases h : s.given.lookup .baseDirectory
        · simp [bind, Except.bind, h, String.isEmpty_iff, hempty]
        · simp [bind, Except.bind, h]

/-- The environment only fills in a base directory that no argument gives; an empty one may be
refused. -/
theorem Arguments.parse_eq (args : List String) (engineHome : Option String) :
    parse args engineHome = (parse args none).map (withHome engineHome) ∨
      engineHome = some "" ∧ parse args engineHome = .error .usage := by
  unfold parse
  cases Scan.read none {} args with
  | error h => exact .inl rfl
  | ok read =>
    obtain ⟨outer, stop⟩ := read
    -- The base directory can be given before the command or behind it, or not at all.
    cases stop with
    | atEnd =>
      simp only [bind, Except.bind, pure, Except.pure]
      rcases settled_eq outer engineHome with heq | ⟨hempty, hrefused⟩
      · left
        rw [heq]
        cases settled outer none with
        | error h => rfl
        | ok outer => exact congrArg Except.ok (combine_eq outer [] engineHome none)
      · exact .inr ⟨hempty, by rw [hrefused]⟩
    | atCommand name rest =>
      simp only [bind, Except.bind, pure, Except.pure]
      cases Scan.read (some name) {} rest with
      | error h => exact .inl rfl
      | ok read =>
        obtain ⟨inner, stop⟩ := read
        dsimp only
        rcases settled_eq inner engineHome with heq | ⟨hempty, hrefused⟩
        · rw [heq]
          cases settled inner none with
          | error h => exact .inl rfl
          | ok inner =>
            dsimp only
            rcases settled_eq outer engineHome with heq | ⟨hempty, hrefused⟩
            · left
              rw [heq]
              cases settled outer none with
              | error h => rfl
              | ok outer => exact congrArg Except.ok (combine_eq outer inner engineHome (some name))
            · exact .inr ⟨hempty, by rw [hrefused]⟩
        · exact .inr ⟨hempty, by rw [hrefused]⟩

namespace Program

/-- The settings of a command line: for every setting an argument counts before the file and the
file before the default, but a base directory from the environment counts before the file. -/
def layered (given : Arguments) (env : Environment) (stated : Config.Stated) : Config where
  baseDirectory := ((given.baseDirectory.or env.engineHome).or stated.baseDirectory).getD
    (Path.join env.homeDirectory ".engine-startup")
  version := (given.versionCode.or stated.version).getD 1
  debuggable := stated.debuggable.getD false
  switchFile := stated.switchFile.getD none
  warmup := stated.warmup.getD 200
  ownerName := stated.ownerName.getD "engine-owner"

theorem baseDirectory_layered (given : Arguments) (env : Environment) (stated : Config.Stated) :
    (given.baseDirectory.or env.engineHome).getD (stated.baseDirectory.getD env.baseDirectory)
      = (layered given env stated).baseDirectory := by
  rw [layered]
  cases h : given.baseDirectory.or env.engineHome with
  | some directory => rfl
  | none =>
    -- without the variable the default is below the home directory
    rw [Environment.baseDirectory_of_none (Option.or_eq_none_iff.mp h).2]
    rfl

theorem version_layered (given : Arguments) (env : Environment) (stated : Config.Stated) :
    given.versionCode.getD (stated.version.getD 1) = (layered given env stated).version := by
  rw [layered]
  cases given.versionCode <;> rfl

theorem configure_eq (fs : FileSystem) (env : Environment) (given : Arguments) :
    configure fs env (given.withHome env.engineHome)
      = (Config.Stated.load fs given.config).map (layered given env) := by
  rw [configure, Config.load_eq]
  show ((Config.Stated.load fs given.config).map _).map _ = _
  cases Config.Stated.load fs given.config with
  | error f => rfl
  | ok stated =>
    refine congrArg Except.ok ((Config.mk.injEq ..).mpr ⟨?_, ?_, rfl, rfl, rfl, rfl⟩)
    · exact baseDirectory_layered given env stated
    · exact version_layered given env stated

/-- **Which source counts for which setting.** For every command line, every environment and every
state of the files: read the command line as if the variable were not set, and the file that it
names by itself. If both can be read, the program's configuration is `layered`, and if one cannot
be read, the program has no configuration, for the same reason. The one exception is an empty base
directory from the environment, which may be refused. -/
theorem configuration_layers (args : List String) (env : Environment) (fs : FileSystem) :
    (Arguments.parse args env.engineHome).map (configure fs env)
      = ((Arguments.parse args none).map fun given =>
        (Config.Stated.load fs given.config).map (layered given env)) ∨
    env.engineHome = some "" ∧ Arguments.parse args env.engineHome = .error .usage := by
  rcases Arguments.parse_eq args env.engineHome with heq | hrefused
  · left
    rw [heq]
    cases Arguments.parse args none with
    | error h => rfl
    | ok given => exact congrArg Except.ok (configure_eq fs env given)
  · exact .inr hrefused

/-- The environment stands before the file, also if it is blank: the file says `file` and no
argument says anything, but the base directory is the one of the environment. -/
theorem environment_beats_file :
    let args := ["--config", "c.json", "status"]
    let fs : FileSystem := { root := .directory [.mk "c.json"
      (.file "\x7b\x22baseDir\x22:\x22file\x22\x7d".toUTF8)] }
    let resolved (directory : String) :=
      let env : Environment := { engineHome := some directory, home := "/home/user" }
      (((Arguments.parse args env.engineHome).map (configure fs env)).toOption.bind
        Except.toOption).map Config.baseDirectory
    (Arguments.parse args none).toOption.map Arguments.baseDirectory = some none ∧
    (Config.Stated.load fs (some "c.json")).toOption.map Config.Stated.baseDirectory
      = some (some "file") ∧
    Text.isBlankText "  " = true ∧ resolved "  " = some "  " ∧ resolved "env" = some "env" := by
  decide +kernel

end Program

end CommandLine

end LazyEngine
