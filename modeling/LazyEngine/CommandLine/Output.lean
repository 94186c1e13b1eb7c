/-
What a command prints, and how it ends.

Lines that tell how long something took, or the number that the operating system gave a thread,
leave that open; whoever prints them fills it in.
-/
import LazyEngine.Failure
import LazyEngine.Files.FileSystem
import LazyEngine.Startup.Owner

namespace LazyEngine.CommandLine

/-- A piece of standard output. -/
inductive Output where
  | line (text : String)
  /-- A question; the cursor stays behind it. -/
  | prompt (text : String)
  /-- How long a worker waited for the engine. -/
  | waited (worker : Nat)
  /-- How long the engine took to start. -/
  | started
  /-- The owner thread. -/
  | owner (o : Owner)

/-- Whether the piece tells how long something took. -/
def Output.tellsTime : Output → Bool
  | waited _ => true
  | started => true
  | _ => false

/-- The piece as text, with a time and the number of a thread. -/
def Output.render (time thread : String) : Output → String
  | line text => text ++ "\n"
  | owner o => "   Owner thread: " ++ o.display thread ++ "\n"
  | prompt text => text
  | waited worker => "   worker " ++ toString worker ++ " waited " ++ time ++ "\n"
  | started => "✅ Engine started in " ++ time ++ "\n"

/-- How a command ends. -/
inductive Ending where
  | code (n : Nat)
  /-- The process ended itself, with no exit code. -/
  | aborted
deriving DecidableEq, Repr

/-- What a command did. -/
structure Report where
  ending : Ending
  output : List Output := []
  /-- Lines of standard error. -/
  errors : List String := []
  /-- Milliseconds that pass before the first line that tells a time. -/
  pause : UInt64 := 0
  files : FileSystem

namespace Report

/-- Causes, each on a line of its own, numbered if there are several. -/
def causes : List String → List String
  | [] => []
  | [cause] => ["", "Caused by:", "    " ++ cause]
  | several =>
    "" :: "Caused by:" :: several.mapIdx fun i cause => "    " ++ toString i ++ ": " ++ cause

/-- A command that failed after some output. -/
def failed (files : FileSystem) (output : List Output) (f : Failure) : Report :=
  { ending := .code 1
    output
    errors := ("Error: " ++ f.headline) :: causes (f.chain.drop 1)
    files }

/-- A command that succeeded. -/
def done (files : FileSystem) (output : List Output) : Report :=
  { ending := .code 0, output, files }

end Report

end LazyEngine.CommandLine
