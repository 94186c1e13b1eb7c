/-
Icons of pages.

The icon of a page is kept as long as somebody retains it; the database counts how many do, in words
of 64 bits. A page that nobody retains has no entry (`release`).
-/
import LazyEngine.Services.Value
import LazyEngine.Table

namespace LazyEngine

structure IconDatabase where
  /-- Where the database has been opened. -/
  path : Option String := none
  /-- How many retain the icon of a page. -/
  retained : Table String UInt64 := {}

namespace IconDatabase

def openAt (d : IconDatabase) (path : String) : IconDatabase :=
  { d with path := some path }

def close (d : IconDatabase) : IconDatabase :=
  { d with path := none }

def isOpen (d : IconDatabase) : Bool :=
  d.path.isSome

/-- How many retain the icon of a page. -/
def count (d : IconDatabase) (url : String) : UInt64 :=
  (d.retained.get? url).getD 0

def retain (d : IconDatabase) (url : String) : IconDatabase :=
  { d with retained := d.retained.insert url (d.count url + 1) }

/-- One retainer less; nothing happens to a page that nobody retains. -/
def release (d : IconDatabase) (url : String) : IconDatabase :=
  match d.retained.get? url with
  | none => d
  | some n =>
    { d with retained := if n - 1 = 0 then d.retained.erase url else d.retained.insert url (n - 1) }

def removeAll (d : IconDatabase) : IconDatabase :=
  { d with retained := .empty }

end IconDatabase

/-- What the icon database can be asked. -/
inductive IconRequest where
  | openAt (path : String)
  | close
  | isOpen
  | retain (url : String)
  | release (url : String)
  | count (url : String)
  | removeAll
deriving DecidableEq, Repr

/-- Answer a request. -/
def IconDatabase.answer (d : IconDatabase) : IconRequest → Value × IconDatabase
  | .openAt path => (.nothing, d.openAt path)
  | .close => (.nothing, d.close)
  | .isOpen => (.flag d.isOpen, d)
  | .retain url => (.nothing, d.retain url)
  | .release url => (.nothing, d.release url)
  | .count url => (.number (d.count url).toNat, d)
  | .removeAll => (.nothing, d.removeAll)

end LazyEngine
