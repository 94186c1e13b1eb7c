/-
The services of one provider.

* `ServiceKind` — the seven services; all but the cookie jar need a started engine;
* `Services.request` — hand a service out, making it if need be;
* `Services.answer` — let a service answer a request.

Design notes: the geolocation permissions and the view database have no data of their own, they
look into a browser context; which one is fixed when they are made. Statics keep what they were
made with: the engine, its owner, and whether the configuration is debuggable.
-/
import LazyEngine.Boot
import LazyEngine.Services.BrowserContext
import LazyEngine.Services.Cookies
import LazyEngine.Services.IconDatabase
import LazyEngine.Services.Shelf
import LazyEngine.Services.WebStorage

namespace LazyEngine

inductive ServiceKind where
  | statics
  | cookies
  | geolocation
  | storage
  | icons
  | database
  | context
deriving DecidableEq, Repr

/-- Whether asking for the service starts the engine. The cookie jar needs no engine, and the
browser context is refused as long as there is none. -/
def ServiceKind.startsEngine : ServiceKind → Bool
  | cookies => false
  | context => false
  | _ => true

/-- What the engine can be asked for as a whole. -/
structure Statics where
  engine : Engine
  owner : Owner
  debuggable : Bool

/-- A service that looks into a browser context. -/
structure ContextUser where
  context : ObjectId
deriving DecidableEq, Repr

structure Services where
  statics : Shelf Statics := {}
  cookies : Shelf CookieJar := {}
  contexts : Shelf BrowserContext := {}
  geolocation : Shelf ContextUser := {}
  storage : Shelf WebStorage := {}
  icons : Shelf IconDatabase := {}
  database : Shelf ContextUser := {}

/-- The name of the operation that switches remote debugging, in errors. -/
def debuggingOperation : String := "set_web_contents_debugging_enabled"

/-- Switch remote debugging, which only the owner may do. -/
def Host.setDebugging (h : Host) (owner : Owner) (caller : ThreadId) (enable : Bool) :
    Except StartupError Unit × Host :=
  if owner.isCurrent caller then (.ok (), { h with remoteDebugging := enable })
  else (.error (.notOwnerContext debuggingOperation), h)

/-- What statics can be asked. -/
inductive StaticsRequest where
  | findAddress (text : String)
  | userAgent
  | setDebugging (enable : Bool)
deriving DecidableEq, Repr

/-- Answer a request from a thread. In a debuggable configuration remote debugging is on anyway, and
switching it is accepted without effect. -/
def Statics.answer (s : Statics) (caller : ThreadId) (h : Host) :
    StaticsRequest → Except StartupError Value × Host
  | .findAddress text => (.ok (.text? (s.engine.findAddress text)), h)
  | .userAgent => (.ok (.text? (some s.engine.userAgent)), h)
  | .setDebugging enable =>
    if s.debuggable then (.ok .nothing, h)
    else
      let (result, h) := h.setDebugging s.owner caller enable
      (result.map fun _ => .nothing, h)

/-- A request to one of the services. -/
inductive ServiceRequest where
  | statics (r : StaticsRequest)
  | cookies (r : CookieRequest)
  | geolocation (r : GeolocationRequest)
  | storage (r : StorageRequest)
  | icons (r : IconRequest)
  | database (r : DatabaseRequest)
  | context (r : ContextRequest)
deriving DecidableEq, Repr

/-- The service that a request goes to. -/
def ServiceRequest.kind : ServiceRequest → ServiceKind
  | statics _ => .statics
  | cookies _ => .cookies
  | geolocation _ => .geolocation
  | storage _ => .storage
  | icons _ => .icons
  | database _ => .database
  | context _ => .context

namespace Services

/-- The browser context, made for a data directory if there is none. -/
def requestContext (s : Services) (dataDirectory : String) : ObjectId × Services :=
  let (id, contexts) := s.contexts.request { dataDirectory }
  (id, { s with contexts })

/-- The cookie jar, made if there is none. -/
def requestCookies (s : Services) : ObjectId × Services :=
  let (id, cookies) := s.cookies.request {}
  (id, { s with cookies })

/-- Hand out a service. -/
def request (s : Services) (statics : Statics) (dataDirectory : String) :
    ServiceKind → ObjectId × Services
  | .statics =>
    let (id, shelf) := s.statics.request statics
    (id, { s with statics := shelf })
  | .cookies => s.requestCookies
  | .context => s.requestContext dataDirectory
  | .geolocation =>
    match s.geolocation.current with
    | some id => (id, s)
    | none =>
      let (context, s) := s.requestContext dataDirectory
      let (id, shelf) := s.geolocation.request ⟨context⟩
      (id, { s with geolocation := shelf })
  | .storage =>
    let (id, shelf) := s.storage.request {}
    (id, { s with storage := shelf })
  | .icons =>
    let (id, shelf) := s.icons.request {}
    (id, { s with icons := shelf })
  | .database =>
    match s.database.current with
    | some id => (id, s)
    | none =>
      let (context, s) := s.requestContext dataDirectory
      let (id, shelf) := s.database.request ⟨context⟩
      (id, { s with database := shelf })

/-- Let a browser context answer. -/
def askContext (s : Services) (id : ObjectId) (answer : BrowserContext → Value × BrowserContext) :
    Value × Services :=
  let (v, contexts) := s.contexts.ask id answer .nothing
  (v, { s with contexts })

/-- Let a service that has been handed out answer a request from a thread. -/
def answer (s : Services) (id : ObjectId) (caller : ThreadId) (h : Host) :
    ServiceRequest → Except StartupError Value × Services × Host
  | .statics r =>
    match s.statics.get? id with
    | none => (.ok .nothing, s, h)
    | some statics =>
      let (result, h) := statics.answer caller h r
      (result, s, h)
  | .cookies r =>
    let (v, shelf) := s.cookies.ask id (·.answer r) .nothing
    (.ok v, { s with cookies := shelf }, h)
  | .geolocation r =>
    match s.geolocation.get? id with
    | none => (.ok .nothing, s, h)
    | some user =>
      let (v, s) := s.askContext user.context (·.answerGeolocation r)
      (.ok v, s, h)
  | .storage r =>
    let (v, shelf) := s.storage.ask id (·.answer r) .nothing
    (.ok v, { s with storage := shelf }, h)
  | .icons r =>
    let (v, shelf) := s.icons.ask id (·.answer r) .nothing
    (.ok v, { s with icons := shelf }, h)
  | .database r =>
    match s.database.get? id with
    | none => (.ok .nothing, s, h)
    | some user =>
      let (v, s) := s.askContext user.context (·.answerDatabase r)
      (.ok v, s, h)
  | .context r =>
    let (v, s) := s.askContext id (·.answer r)
    (.ok v, s, h)

end Services

end LazyEngine
