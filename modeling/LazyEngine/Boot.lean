/-
Starting the engine on a host.

The host is all that starting the engine, and the engine itself, can change: the file system and
whether remote debugging is on.

* `Config.boot` — read the switches, make the data directory;
* `Config.starting` — any way to start the engine, made to turn remote debugging on in a debuggable
  configuration.
-/
import LazyEngine.Config
import LazyEngine.Engine
import LazyEngine.Startup.Coordinator

namespace LazyEngine

/-- What an engine runs on. -/
structure Host where
  files : FileSystem
  remoteDebugging : Bool := false

namespace Config

/-- Start the simulated engine. -/
def boot (c : Config) : Initializer Host Engine := fun host =>
  match c.switches host.files with
  | .error f => (.failed f.chain, host)
  | .ok switches =>
    match host.files.makeDirectories c.dataDirectory with
    | (.error e, files) =>
      let f : Failure := ⟨[.createDataDirectory c.dataDirectory], .file e⟩
      (.failed f.chain, { host with files })
    | (.ok (), files) => (.engine ⟨c.version, switches⟩, { host with files })

/-- Start the engine, and turn remote debugging on if the configuration is debuggable. -/
def starting (c : Config) (initializer : Initializer Host Engine) : Initializer Host Engine :=
  fun host =>
    match initializer host with
    | (.engine e, host) =>
      (.engine e, if c.debuggable then { host with remoteDebugging := true } else host)
    | failed => failed

end Config

end LazyEngine
