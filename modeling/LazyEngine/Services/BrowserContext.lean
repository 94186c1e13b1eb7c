/-
What the engine remembers for its user.

A browser context keeps decisions about geolocation, entries typed into forms, and credentials for
protected hosts.
-/
import LazyEngine.Services.Value
import LazyEngine.Table

namespace LazyEngine

structure BrowserContext where
  dataDirectory : String
  /-- Whether an origin may see the location. -/
  geolocation : Table String Bool := {}
  /-- Values of a form field, in the order in which they were first saved. -/
  forms : Table String (List String) := {}
  /-- Credentials by host and realm. -/
  credentials : Table (String × String) Credentials := {}

namespace BrowserContext

/-! ### Geolocation -/

def decide (c : BrowserContext) (origin : String) (allow : Bool) : BrowserContext :=
  { c with geolocation := c.geolocation.insert origin allow }

/-- The decision about an origin, if there is one. -/
def allowed (c : BrowserContext) (origin : String) : Option Bool :=
  c.geolocation.get? origin

/-- The origins with a decision, in order. -/
def origins (c : BrowserContext) : List String :=
  c.geolocation.sorted.map (·.1)

def forgetDecision (c : BrowserContext) (origin : String) : BrowserContext :=
  { c with geolocation := c.geolocation.erase origin }

def forgetDecisions (c : BrowserContext) : BrowserContext :=
  { c with geolocation := .empty }

/-! ### Forms -/

def suggestions (c : BrowserContext) (field : String) : List String :=
  (c.forms.get? field).getD []

/-- Remember a value of a field, unless it is remembered already. -/
def saveEntry (c : BrowserContext) (field value : String) : BrowserContext :=
  let values := c.suggestions field
  { c with forms := c.forms.insert field (if value ∈ values then values else values ++ [value]) }

def hasForms (c : BrowserContext) : Bool :=
  c.forms.entries.any fun field => !field.2.isEmpty

def clearForms (c : BrowserContext) : BrowserContext :=
  { c with forms := .empty }

/-! ### Credentials -/

def setCredentials (c : BrowserContext) (host realm : String) (credentials : Credentials) :
    BrowserContext :=
  { c with credentials := c.credentials.insert (host, realm) credentials }

def credentialsFor (c : BrowserContext) (host realm : String) : Option Credentials :=
  c.credentials.get? (host, realm)

def hasCredentials (c : BrowserContext) : Bool :=
  !c.credentials.isEmpty

def clearCredentials (c : BrowserContext) : BrowserContext :=
  { c with credentials := .empty }

end BrowserContext

/-- What the geolocation permissions can be asked. -/
inductive GeolocationRequest where
  | decide (origin : String) (allow : Bool)
  | allowed (origin : String)
  | origins
  | forget (origin : String)
  | forgetAll
deriving DecidableEq, Repr

/-- What the database of a view can be asked. -/
inductive DatabaseRequest where
  | hasForms
  | clearForms
  | setCredentials (host realm : String) (credentials : Credentials)
  | credentials (host realm : String)
  | hasCredentials
  | clearCredentials
deriving DecidableEq, Repr

/-- What a browser context itself can be asked. -/
inductive ContextRequest where
  | dataDirectory
  | saveEntry (field value : String)
  | suggestions (field : String)
deriving DecidableEq, Repr

namespace BrowserContext

def answerGeolocation (c : BrowserContext) : GeolocationRequest → Value × BrowserContext
  | .decide origin allow => (.nothing, c.decide origin allow)
  | .allowed origin => (.flag? (c.allowed origin), c)
  | .origins => (.texts c.origins, c)
  | .forget origin => (.nothing, c.forgetDecision origin)
  | .forgetAll => (.nothing, c.forgetDecisions)

def answerDatabase (c : BrowserContext) : DatabaseRequest → Value × BrowserContext
  | .hasForms => (.flag c.hasForms, c)
  | .clearForms => (.nothing, c.clearForms)
  | .setCredentials host realm credentials => (.nothing, c.setCredentials host realm credentials)
  | .credentials host realm => (.credentials? (c.credentialsFor host realm), c)
  | .hasCredentials => (.flag c.hasCredentials, c)
  | .clearCredentials => (.nothing, c.clearCredentials)

def answer (c : BrowserContext) : ContextRequest → Value × BrowserContext
  | .dataDirectory => (.text? (some c.dataDirectory), c)
  | .saveEntry field value => (.nothing, c.saveEntry field value)
  | .suggestions field => (.texts (c.suggestions field), c)

end BrowserContext

end LazyEngine
