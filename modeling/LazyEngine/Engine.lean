/-
The engine.

The engine is a simulated one: it knows its version and the switches it was started with, names
itself and finds addresses.
-/
import LazyEngine.Address

namespace LazyEngine

/-- A started engine. -/
structure Engine where
  version : UInt32
  switches : List String
deriving DecidableEq

/-- The version of this program. -/
def release : String := "0.1.0"

namespace Engine

def name (_ : Engine) : String := "simulated"

/-- The user agent of an engine of a given version. -/
def userAgentOf (version : UInt32) : String :=
  "Mozilla/5.0 (X11; Linux) EngineStartup/" ++ release ++ " SimulatedEngine/"
    ++ toString version.toNat

def userAgent (e : Engine) : String :=
  userAgentOf e.version

/-- The first street address of a text. -/
def findAddress (_ : Engine) (text : String) : Option String :=
  address? text

end Engine

end LazyEngine
