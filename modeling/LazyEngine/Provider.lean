/-
The engine provider.

A provider prepares the data directory for its version, starts the engine when it is first needed,
hands out services, and attaches views.

* `Provider.create` — what happens before anything can start: directories, version check;
* `Provider.fetch` — get a service, starting the engine if the service needs it;
* `Provider.act` — one action of a session with the provider.

Design notes: a request for a service is a wait for the engine and then one critical section that
hands the service out. Views are listeners of the session; the state of a view is how often it has
been told.
-/
import LazyEngine.Prefs.Store
import LazyEngine.Services.Catalog
import LazyEngine.Startup.Session
import LazyEngine.View

namespace LazyEngine

/-- A provider within a session. -/
structure Provider where
  config : Config
  versionChange : VersionChange
  session : Session Host Engine
  services : Services := {}

/-- Something that a session can do with a provider. -/
inductive ProviderAction where
  /-- An action that is about startup alone. -/
  | startup (action : Action)
  | createView (name : String)
  | dropView (name : String)
  | setDebugging (place : Place) (enable : Bool)
  | ask (place : Place) (request : ServiceRequest)
  /-- Ask for a service twice: are the two the same object? -/
  | sameService (place : Place) (kind : ServiceKind)
  /-- Ask for the engine twice. -/
  | sameEngine (place : Place)

/-- What an action comes to. -/
inductive ProviderResponse where
  | startup (response : Response Engine)
  | view (v : View)
  | flag (b : Bool)
  | result (r : Except StartupError Value)
  | panicked (message : String)

namespace Provider

/-- Prepare the directories and the record of the last version. -/
def prepare (config : Config) (fs : FileSystem) (now : String) :
    Except Failure VersionChange × FileSystem :=
  match fs.makeDirectories config.baseDirectory with
  | (.error e, fs) => (.error ⟨[.createBaseDirectory config.baseDirectory], .file e⟩, fs)
  | (.ok (), fs) =>
    match PrefsStore.openAt fs config.prefsPath with
    | (.error f, fs) => (.error f, fs)
    | (.ok store, fs) =>
      match store.checkVersion fs config.version config.dataDirectory now with
      | (.error f, fs) => (.error (f.within .checkVersion), fs)
      | (.ok change, fs) => (.ok change, fs)

/-- A provider, in the session that `sessionOf` opens for its initializer and its host. If it cannot
be created, what has been done to the files stays. -/
def create (config : Config) (fs : FileSystem) (now : String)
    (initializer : Initializer Host Engine)
    (sessionOf : Initializer Host Engine → Host → Session Host Engine) :
    Except (Failure × FileSystem) Provider :=
  match prepare config fs now with
  | (.error f, fs) => .error (f, fs)
  | (.ok versionChange, fs) =>
    let session := sessionOf (config.starting initializer) { files := fs }
    .ok { config, versionChange, session }

variable (p : Provider)

def coordinator : Coordinator Host Engine Listener :=
  p.session.machine.coordinator

def host : Host :=
  p.session.machine.host

def withHost (h : Host) : Provider :=
  { p with session.machine.host := h }

/-- The owner, also before it has been recorded. -/
def owner : Owner :=
  p.coordinator.ownerOr p.session.machine.dispatcher.owner

/-- The state of a view: told as often as the log says. -/
def viewOf (l : Listener) : View :=
  .afterTold <| p.session.machine.log.countP fun
    | .told _ key _ _ _ => key == l.key
    | _ => false

/-- How often the initializer has run. -/
def boots : Nat :=
  p.session.machine.log.countP fun
    | .initialized _ => true
    | _ => false

/-- The views that somebody holds, by name. -/
def views : List (String × View) :=
  p.session.listeners.map fun l => (l.1, p.viewOf l.2)

/-- Create a view, in place of the one of that name. -/
def createView (name : String) : View × Provider :=
  let (l, session) := p.session.newListener name .plain
  let (_, session) := session.visit session.home false (some (.register l))
  let p := { p with session := session.keep name l }
  (p.viewOf l, p)

/-- Switch remote debugging of the engine, from a thread. -/
def setDebugging (caller : ThreadId) (enable : Bool) : Except StartupError Value × Provider :=
  match p.coordinator.engine with
  | none => (.error (.notStarted debuggingOperation), p)
  | some _ =>
    let (result, h) := p.host.setDebugging p.owner caller enable
    (result.map fun _ => .nothing, p.withHost h)

/-- How it turned out to reach the place where a service is asked for, with the engine started if
the service starts it. -/
def reach (place : Place) (startsEngine : Bool) : Except ProviderResponse Unit × Provider :=
  let call : Option Call := if startsEngine then some (.ensureStarted .none) else none
  let (outcome, session) :=
    p.session.visit place (startsEngine && p.session.undecided) call
  let p := { p with session }
  match outcome with
  | .answered (.engine (.error e)) => (.error (.result (.error e)), p)
  | .refused e => (.error (.result (.error e)), p)
  | .panicked message => (.error (.panicked message), p)
  | _ => (.ok (), p)

/-- The section that hands a service out; it needs the engine, unless the service is the cookie
jar. -/
def handOut (kind : ServiceKind) : Except StartupError ObjectId × Provider :=
  match kind, p.coordinator.engine with
  | .cookies, _ =>
    let (id, services) := p.services.requestCookies
    (.ok id, { p with services })
  | .context, none => (.error (.notStarted "browser_context"), p)
  | _, none => (.error (.notStarted "ensure_started"), p)
  | _, some engine =>
    let statics : Statics := ⟨engine, p.owner, p.config.debuggable⟩
    let (id, services) := p.services.request statics p.config.dataDirectory kind
    (.ok id, { p with services })

/-- Get a service from a place, starting the engine if the service needs it. -/
def fetch (place : Place) (kind : ServiceKind) : Except ProviderResponse ObjectId × Provider :=
  match p.reach place kind.startsEngine with
  | (.error r, p) => (.error r, p)
  | (.ok (), p) =>
    match p.handOut kind with
    | (.error e, p) => (.error (.result (.error e)), p)
    | (.ok id, p) => (.ok id, p)

/-- Get a service and let it answer a request. -/
def ask (place : Place) (request : ServiceRequest) : ProviderResponse × Provider :=
  match p.fetch place request.kind with
  | (.error r, p) => (r, p)
  | (.ok id, p) =>
    let (result, services, h) :=
      p.services.answer id (p.session.threadAt place) p.host request
    (.result result, { p with services }.withHost h)

/-- Do one thing. -/
def act : ProviderAction → ProviderResponse × Provider
  | .startup action =>
    let (response, session) := p.session.act action
    (.startup response, { p with session })
  | .createView name =>
    let (v, p) := p.createView name
    (.view v, p)
  | .dropView name =>
    (.flag (p.session.listeners.any (·.1 == name)), { p with session := p.session.drop name })
  | .setDebugging place enable =>
    match p.reach place false with
    | (.error r, p) => (r, p)
    | (.ok (), p) =>
      let (result, p) := p.setDebugging (p.session.threadAt place) enable
      (.result result, p)
  | .ask place request => p.ask place request
  | .sameService place kind =>
    match p.fetch place kind with
    | (.error r, p) => (r, p)
    | (.ok first, p) =>
      match p.fetch place kind with
      | (.error r, p) => (r, p)
      | (.ok second, p) => (.result (.ok (.flag (first == second))), p)
  | .sameEngine place =>
    match p.reach place true with
    | (.error r, p) => (r, p)
    | (.ok (), p) =>
      let first := p.coordinator.engine
      match p.reach place true with
      | (.error r, p) => (r, p)
      | (.ok (), p) => (.result (.ok (.flag (first == p.coordinator.engine))), p)

end Provider

end LazyEngine
