/-
Switches of the engine.

A switch file is a text of words; a word that begins with two dashes is a switch, named by the rest
of the word.
-/
import LazyEngine.Failure
import LazyEngine.Files.FileSystem
import LazyEngine.Text.Blank

namespace LazyEngine.Switches

/-- The switch that every engine is started with. -/
def always : String := "enable-dcheck"

/-- The switch that a word names. -/
def ofWord? : List Char → Option String
  | '-' :: '-' :: name => if name.isEmpty then none else some (String.ofList name)
  | _ => none

/-- The switches of a text, in order. -/
def ofText (text : String) : List String :=
  (Text.words text.toList).filterMap ofWord?

/-- The switches of a file; none if there is no file. -/
def read (fs : FileSystem) (path : String) : Except Failure (List String) :=
  if !fs.exists? path then .ok []
  else (FileError.during (.readSwitches path) (fs.readText path)).map ofText

/-- Add the switch that is always there, unless it is there already. -/
def complete (switches : List String) : List String :=
  if always ∈ switches then switches else switches ++ [always]

end LazyEngine.Switches
