/-
Why a command or a construction fails.

A failure is what was attempted, from the outermost attempt to the innermost, and the cause.
-/
import LazyEngine.Files.Error
import LazyEngine.Json.Token
import LazyEngine.Startup.Error
import LazyEngine.Text.Quoted

namespace LazyEngine

/-- Something that was tried. -/
inductive Attempt where
  | createBaseDirectory (path : String)
  | checkVersion
  | createPrefsDirectory (path : String)
  | readPrefs (path : String)
  | parsePrefs
  | writePrefs (path : String)
  | removePrefs (path : String)
  | readConfig (path : String)
  | parseConfig (path : String)
  | readSwitches (path : String)
  | createDataDirectory (path : String)
  | startOnOwner
deriving DecidableEq, Repr

/-- What a failed attempt says. -/
def Attempt.message : Attempt → String
  | createBaseDirectory path => "Failed to create base directory: " ++ Text.quote path
  | checkVersion => "Failed to check engine version"
  | createPrefsDirectory path => "Failed to create prefs directory: " ++ Text.quote path
  | readPrefs path => "Failed to read prefs file: " ++ Text.quote path
  | parsePrefs => "Failed to parse prefs JSON"
  | writePrefs path => "Failed to write prefs file: " ++ Text.quote path
  | removePrefs path => "Failed to remove prefs file: " ++ Text.quote path
  | readConfig path => "Failed to read config file: " ++ Text.quote path
  | parseConfig path => "Failed to parse config file: " ++ Text.quote path
  | readSwitches path => "Failed to read command-line file: " ++ Text.quote path
  | createDataDirectory path => "Failed to create data directory: " ++ Text.quote path
  | startOnOwner => "Engine startup on the owner thread failed"

/-- What made the innermost attempt fail. -/
inductive Cause where
  | file (e : FileError)
  | json (f : Json.Fault)
  | startup (e : StartupError)
deriving DecidableEq, Repr

/-- The cause in words; a fault of a JSON text is told in general terms only. -/
def Cause.message : Cause → String
  | file e => e.message
  | json .illFormed => "ill-formed JSON"
  | json .unsuitable => "a value of the wrong type"
  | json .unfinished => "unexpected end of JSON"
  | startup e => e.message

structure Failure where
  /-- Outermost first. -/
  attempts : List Attempt := []
  cause : Cause
deriving DecidableEq, Repr

namespace Failure

/-- The failure as part of a larger attempt. -/
def within (f : Failure) (a : Attempt) : Failure :=
  { f with attempts := a :: f.attempts }

/-- All that there is to say, outermost first. -/
def chain (f : Failure) : List String :=
  f.attempts.map Attempt.message ++ [f.cause.message]

/-- The outermost thing that went wrong. -/
def headline (f : Failure) : String :=
  match f.attempts with
  | a :: _ => a.message
  | [] => f.cause.message

def message (f : Failure) : String :=
  ": ".intercalate f.chain

end Failure

/-- What an attempt comes to, if a file operation in it fails. -/
def FileError.during {α : Type} (a : Attempt) : Except FileError α → Except Failure α
  | .ok v => .ok v
  | .error e => .error ⟨[a], .file e⟩

end LazyEngine
