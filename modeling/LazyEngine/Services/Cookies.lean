/-
The cookie jar.

* `Cookie.read?` — the name and the value that a cookie text sets, if it sets any;
* `CookieJar.set` — keep a cookie for a host, unless cookies are turned off;
* `CookieJar.header?` — what a host is sent: its cookies in the order of their names.
-/
import LazyEngine.Services.Value
import LazyEngine.Table
import LazyEngine.Text.Blank

namespace LazyEngine

open Text

/-- The name and the value of a cookie text.

Attributes after the first semicolon do not count, the first equals sign separates the two, and
blanks around either are dropped. There is no cookie without a name. -/
def Cookie.read? (text : String) : Option (String × String) :=
  let pair := text.toList.takeWhile (· != ';')
  if !pair.contains '=' then none
  else
    let name := trim (pair.takeWhile (· != '='))
    let value := trim ((pair.dropWhile (· != '=')).drop 1)
    if name.isEmpty then none else some (String.ofList name, String.ofList value)

/-- Cookies by host and name. -/
structure CookieJar where
  accepting : Bool := true
  hosts : Table String (Table String String) := {}

namespace CookieJar

def setAccepting (jar : CookieJar) (accepting : Bool) : CookieJar :=
  { jar with accepting }

/-- The cookies of a host. -/
def ofHost (jar : CookieJar) (host : String) : Table String String :=
  (jar.hosts.get? host).getD .empty

/-- Keep a cookie; whether it was kept. -/
def set (jar : CookieJar) (host text : String) : Bool × CookieJar :=
  if !jar.accepting then (false, jar)
  else match Cookie.read? text with
    | none => (false, jar)
    | some (name, value) =>
      (true, { jar with hosts := jar.hosts.insert host ((jar.ofHost host).insert name value) })

/-- The cookies of a host as one text; `none` if there are none. -/
def header? (jar : CookieJar) (host : String) : Option String :=
  let cookies := (jar.ofHost host).sorted
  if cookies.isEmpty then none
  else some ("; ".intercalate (cookies.map fun c => c.1 ++ "=" ++ c.2))

def hasCookies (jar : CookieJar) : Bool :=
  jar.hosts.entries.any fun host => !host.2.isEmpty

def removeAll (jar : CookieJar) : CookieJar :=
  { jar with hosts := .empty }

end CookieJar

/-- What a cookie jar can be asked. -/
inductive CookieRequest where
  | setAccepting (accepting : Bool)
  | accepting
  | set (host text : String)
  | header (host : String)
  | hasCookies
  | removeAll
deriving DecidableEq, Repr

/-- Answer a request. -/
def CookieJar.answer (jar : CookieJar) : CookieRequest → Value × CookieJar
  | .setAccepting accepting => (.nothing, jar.setAccepting accepting)
  | .accepting => (.flag jar.accepting, jar)
  | .set host text =>
    let (kept, jar) := jar.set host text
    (.flag kept, jar)
  | .header host => (.text? (jar.header? host), jar)
  | .hasCookies => (.flag jar.hasCookies, jar)
  | .removeAll => (.nothing, jar.removeAll)

end LazyEngine
