/-
Storage that web origins use.
-/
import LazyEngine.Services.Value
import LazyEngine.Table

namespace LazyEngine

/-- The last recorded usage of every origin. -/
structure WebStorage where
  byOrigin : Table String OriginUsage := {}

namespace WebStorage

def record (s : WebStorage) (origin : String) (u : OriginUsage) : WebStorage :=
  { s with byOrigin := s.byOrigin.insert origin u }

/-- All origins with their usage, in order. -/
def origins (s : WebStorage) : List (String × OriginUsage) :=
  s.byOrigin.sorted

/-- The usage of an origin; nothing recorded counts as nothing used. -/
def usage (s : WebStorage) (origin : String) : UInt64 :=
  ((s.byOrigin.get? origin).map (·.usage)).getD 0

def quota (s : WebStorage) (origin : String) : UInt64 :=
  ((s.byOrigin.get? origin).map (·.quota)).getD 0

def delete (s : WebStorage) (origin : String) : WebStorage :=
  { s with byOrigin := s.byOrigin.erase origin }

def deleteAll (s : WebStorage) : WebStorage :=
  { s with byOrigin := .empty }

end WebStorage

/-- What the web storage can be asked. -/
inductive StorageRequest where
  | record (origin : String) (usage : OriginUsage)
  | origins
  | usage (origin : String)
  | quota (origin : String)
  | delete (origin : String)
  | deleteAll
deriving DecidableEq, Repr

/-- Answer a request. -/
def WebStorage.answer (s : WebStorage) : StorageRequest → Value × WebStorage
  | .record origin u => (.nothing, s.record origin u)
  | .origins => (.usages s.origins, s)
  | .usage origin => (.number (s.usage origin).toNat, s)
  | .quota origin => (.number (s.quota origin).toNat, s)
  | .delete origin => (.nothing, s.delete origin)
  | .deleteAll => (.nothing, s.deleteAll)

end LazyEngine
