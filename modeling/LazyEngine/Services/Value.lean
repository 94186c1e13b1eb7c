/-
What services answer.
-/

namespace LazyEngine

/-- A name and a password. -/
structure Credentials where
  username : String
  password : String
deriving DecidableEq, Repr

/-- What an origin uses, and what it may use. -/
structure OriginUsage where
  usage : UInt64
  quota : UInt64
deriving DecidableEq, Repr

/-- The answer of a service to a request. -/
inductive Value where
  | nothing
  | flag (b : Bool)
  | flag? (b : Option Bool)
  | text? (s : Option String)
  | texts (ss : List String)
  | number (n : Nat)
  | usages (us : List (String × OriginUsage))
  | credentials? (c : Option Credentials)
deriving DecidableEq, Repr

end LazyEngine
