/-
The reset command: forget the last run and empty the data directory, if the user agrees.
-/
import LazyEngine.CommandLine.Output
import LazyEngine.Config
import LazyEngine.Prefs.Store

namespace LazyEngine.CommandLine

namespace Reset

def question (config : Config) : String :=
  "Delete prefs and all engine data under " ++ config.baseDirectory ++ "? [y/N]: "

/-- Whether an answer agrees: `y` or `yes` in letters of any size, with blanks around it. -/
def agrees (answer : String) : Bool :=
  let word := (Text.trim answer.toList).map Char.toLower
  word == ['y'] || word == ['y', 'e', 's']

/-- Do what has been agreed to. -/
def perform (config : Config) (fs : FileSystem) : Report :=
  match PrefsStore.openAt fs config.prefsPath with
  | (.error f, fs) => .failed fs [] f
  | (.ok store, fs) =>
    match store.remove fs with
    | .error f => .failed fs [] f
    | .ok fs =>
      .done (fs.empty config.dataDirectory) [.line "✅ Engine prefs and data removed."]

/-- Go on after the question has been answered. -/
def afterAnswer (config : Config) (fs : FileSystem) (answer : String) : Report :=
  if agrees answer then perform config fs else .done fs [.line "Reset cancelled."]

end Reset

end LazyEngine.CommandLine
