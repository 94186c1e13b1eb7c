/-
What is kept between runs, and how it is written down.

The record is a JSON text; `Prefs.ofJson` reads more texts than `Prefs.toJson` writes, but of those
it reads what was written.
-/
import LazyEngine.Json.Reader
import LazyEngine.Json.Writer

namespace LazyEngine

/-- The record of the last run. -/
structure Prefs where
  /-- Zero if there was no run. -/
  lastVersion : UInt32 := 0
  updatedAt : Option String := none
deriving DecidableEq, Repr

namespace Prefs

/-- The name of the field that holds the last version code. -/
def versionField : String := "lastVersionCodeUsed"

def timeField : String := "updatedAt"

def fields : List (Json.Field Prefs) :=
  [{ name := versionField
     read := fun p ts => (Json.natural 0xFFFFFFFF ts).map fun r =>
       ({ p with lastVersion := .ofNat r.1 }, r.2) },
    { name := timeField
      read := fun p ts => (Json.optional Json.string ts).map fun r =>
        ({ p with updatedAt := r.1 }, r.2)
      omissible := false }]

/-- Read a record; a field that an object lacks has its default. -/
def ofJson (text : String) : Except Json.Fault Prefs :=
  Json.readRecord fields {} text

/-- Write a record, one field a line. -/
def toJson (p : Prefs) : String :=
  let members := [(versionField, toString p.lastVersion.toNat)]
    ++ (p.updatedAt.map fun t => (timeField, Json.encode t)).toList
  "\x7b\n" ++ ",\n".intercalate (members.map fun m => "  " ++ Json.encode m.1 ++ ": " ++ m.2)
    ++ "\n\x7d"

end Prefs

end LazyEngine
