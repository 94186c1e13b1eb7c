/-
The status command: what the record of the last run says, and what is in the data directory.
-/
import LazyEngine.CommandLine.Output
import LazyEngine.Config
import LazyEngine.Prefs.Store

namespace LazyEngine.CommandLine

namespace Status

/-- What is said about the last run. -/
def aboutRun (config : Config) (prefs : Prefs) : List Output :=
  if prefs.lastVersion = 0 then [.line "❌ Engine has never run here"]
  else
    [.line ("✅ Last engine version code: " ++ toString prefs.lastVersion.toNat)]
      ++ (prefs.updatedAt.map fun t => Output.line ("   Updated at: " ++ t)).toList
      ++ if config.version < prefs.lastVersion then
          [.line ("⚠️  Configured version " ++ toString config.version.toNat
            ++ " is older; engine data will be wiped on next run.")]
        else []

/-- What is said about the data directory. -/
def aboutData (config : Config) (fs : FileSystem) : Output :=
  let found := match fs.entries config.dataDirectory with
    | .ok es => "(" ++ toString es.length ++ " entries)"
    | .error _ => "(missing)"
  .line ("   Data directory: " ++ config.dataDirectory ++ " " ++ found)

end Status

/-- Report on a base directory; it is made if it does not exist. -/
def status (config : Config) (fs : FileSystem) : Report :=
  match PrefsStore.openAt fs config.prefsPath with
  | (.error f, fs) => .failed fs [] f
  | (.ok store, fs) =>
    match store.read fs with
    | .error f => .failed fs [] f
    | .ok prefs =>
      .done fs (.line ("Base directory: " ++ config.baseDirectory) :: Status.aboutRun config prefs
        ++ [Status.aboutData config fs])

end LazyEngine.CommandLine
