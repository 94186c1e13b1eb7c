/-
The file that keeps the record of the last run.

* `PrefsStore.openAt` — make sure that the file's directory exists;
* `PrefsStore.read`, `PrefsStore.write`, `PrefsStore.remove` — the file itself;
* `PrefsStore.checkVersion` — compare versions before the data directory is used, and make the
  current version the last one.

Design notes: operations that can change files before they fail return the file system beside the
result.
-/
import LazyEngine.Failure
import LazyEngine.Files.FileSystem
import LazyEngine.Prefs.Format
import LazyEngine.Version

namespace LazyEngine

/-- A record kept in a file. -/
structure PrefsStore where
  path : String
deriving DecidableEq, Repr

namespace PrefsStore

/-- A store in a file; the directory of the file is made if need be. -/
def openAt (fs : FileSystem) (path : String) : Except Failure PrefsStore × FileSystem :=
  match Path.parent? path with
  | none => (.ok ⟨path⟩, fs)
  | some parent =>
    match fs.makeDirectories parent with
    | (.ok (), fs) => (.ok ⟨path⟩, fs)
    | (.error e, fs) => (.error ⟨[.createPrefsDirectory parent], .file e⟩, fs)

/-- The record; the default if there is no file. -/
def read (s : PrefsStore) (fs : FileSystem) : Except Failure Prefs :=
  if !fs.exists? s.path then .ok {}
  else match fs.readText s.path with
    | .error e => .error ⟨[.readPrefs s.path], .file e⟩
    | .ok text =>
      match Prefs.ofJson text with
      | .ok prefs => .ok prefs
      | .error f => .error ⟨[.parsePrefs], .json f⟩

/-- Write the record, in place of what the file held. -/
def write (s : PrefsStore) (fs : FileSystem) (prefs : Prefs) : Except Failure FileSystem :=
  FileError.during (.writePrefs s.path) (fs.write s.path prefs.toJson.toUTF8)

/-- Remove the file, if there is one. -/
def remove (s : PrefsStore) (fs : FileSystem) : Except Failure FileSystem :=
  if fs.exists? s.path then FileError.during (.removePrefs s.path) (fs.removeFile s.path)
  else .ok fs

/-- The record, or the default for one that cannot be read. -/
def readOrDefault (s : PrefsStore) (fs : FileSystem) : Prefs :=
  match s.read fs with
  | .ok prefs => prefs
  | .error _ => {}

/-- Compare the current version with the last one. A downgrade empties the data directory; unless
nothing has changed, the current version becomes the last one, as of `now`. -/
def checkVersion (s : PrefsStore) (fs : FileSystem) (current : UInt32) (dataDirectory : String)
    (now : String) : Except Failure VersionChange × FileSystem :=
  let change := VersionChange.between (s.readOrDefault fs).lastVersion current
  let fs := if change.isDowngrade then fs.empty dataDirectory else fs
  if change = .unchanged then (.ok change, fs)
  else match s.write fs { lastVersion := current, updatedAt := some now } with
    | .ok fs => (.ok change, fs)
    | .error f => (.error f, fs)

end PrefsStore

end LazyEngine
