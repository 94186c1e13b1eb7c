/-
The command line as a program.

Everything is decided by `CommandLine.Program`. Here the part of the disk that it may look at is
read, its answer is printed, and the changes it made to files are made on the disk.
-/
import LazyEngine.CommandLine.Program
import LazyEngine.Files.Changes
import LazyEngine.Text.Timestamp
import Std.Time.DateTime.Timestamp

namespace LazyEngine.Main

/-- A location as the operating system wants it. -/
def text (location : Location) : String :=
  "/" ++ "/".intercalate location

/-- What is at a location of the disk; the bytes of a file only if they are wanted. A link that
leads nowhere is kept with an empty target, which leads nowhere either. -/
def look (location : Location) (wanted : Bool) : IO (Option Node) := do
  let path := (← IO.currentDir) / text location
  try
    match (← path.symlinkMetadata).type with
    | .dir => return some (.directory [])
    | .symlink =>
      -- the system tells where a whole chain of links ends, and fails if it ends nowhere
      let target ← try pure (← IO.FS.realPath path).toString catch _ => pure ""
      return some (.link target)
    | _ =>
      let bytes ← if wanted then IO.FS.readBinFile path else pure .empty
      return some (.file bytes)
  catch _ => return none

/-- Read what a path leads through, name by name, at most so many names; where it leads. -/
def follow (here : Location) : Nat → Node → List String → IO (Node × Option Location)
  | 0, root, _ => return (root, none)
  | _ + 1, root, [] => return (root, some here)
  | n + 1, root, name :: rest =>
    if name == "" || name == "." then follow here n root rest
    else if name == ".." then follow here.dropLast n root rest
    else do
      let location := here ++ [name]
      let known := root.at? location
      match ← if known.isSome then pure known else look location true with
      | none => return (root, none)
      | some (.link "") => return (root.put (.link "") location, none)
      | some (.link target) =>
        follow [] n (root.put (.link target) location) (Path.steps target ++ rest)
      | some node => follow location n (root.put node location) rest

/-- Read all names below a directory, at most so deep. -/
def readBelow : Nat → Node → Location → IO Node
  | 0, root, _ => return root
  | n + 1, root, location => do
    let path := (← IO.currentDir) / text location
    let mut root := root
    if ← path.isDir then
      for e in ← path.readDir do
        let inner := location ++ [e.fileName]
        if (root.at? inner).isNone then
          if let some node ← look inner false then
            root := root.put node inner
        if let some (.directory _) := root.at? inner then
          root ← readBelow n root inner
    return root

/-- Steps that no path exceeds. -/
def limit : Nat := 4096

/-- The part of the disk that some paths lead through, and all below another path. -/
def snapshot (paths : List String) (whole : Option String) : IO FileSystem := do
  let here := Path.steps (← IO.currentDir).toString
  let mut root := Node.directory []
  root := (← follow [] limit root here).1
  for path in paths ++ whole.toList do
    let start := if Path.isAbsolute path then [] else here
    let (next, location) ← follow start limit root (Path.steps path)
    root := next
    if whole == some path then
      if let some location := location then
        root ← readBelow limit root location
  return { root, here }

/-- The part of the disk that the program looks at. -/
def relevant (args : List String) (env : Environment) : IO FileSystem := do
  match CommandLine.Arguments.parse args env.engineHome with
  | .error _ => snapshot [] none
  | .ok a =>
    let files ← snapshot a.config.toList none
    match CommandLine.Program.configure files env a with
    | .error _ => return files
    | .ok config =>
      let switchFile := match a.command with
        | some (.run o) => o.switchFile.or config.switchFile
        | _ => none
      snapshot
        (a.config.toList ++ switchFile.toList ++ [config.baseDirectory, config.prefsPath])
        (some config.dataDirectory)

/-- Make a change on the disk. -/
def change : Change → IO Unit
  | .removeFile l => IO.FS.removeFile (text l)
  | .removeDirectory l => IO.FS.removeDir (text l)
  | .makeDirectory l => IO.FS.createDir (text l)
  | .write l bytes => IO.FS.writeBinFile (text l) bytes

/-- Milliseconds as a text. -/
def duration (begun : Nat) : IO String := do
  return toString ((← IO.monoMsNow) - begun) ++ "ms"

/-- Make the changes of a report on the disk and print it. -/
def conclude (before : FileSystem) (r : CommandLine.Report) : IO UInt32 := do
  for c in before.root.changes r.files.root do
    change c
  let begun ← IO.monoMsNow
  let mut paused := false
  for o in r.output do
    if o.tellsTime && !paused then
      IO.sleep (min r.pause 0xFFFFFFFF).toUInt32
      paused := true
    IO.print (o.render (← duration begun) "2")
  for e in r.errors do
    IO.eprintln e
  match r.ending with
  | .code n => return n.toUInt32
  | .aborted => return 134

end LazyEngine.Main

open LazyEngine in
def main (args : List String) : IO UInt32 := do
  let env : Environment := {
    engineHome := ← IO.getEnv Environment.engineHomeVariable
    home := (← IO.getEnv "HOME").getD "" }
  let files ← Main.relevant args env
  let time ← Std.Time.Timestamp.now
  let now := Text.timestamp time.val.second.val.toNat time.val.nano.val.toNat
  match CommandLine.Program.start args env files now with
  | .finished r => Main.conclude files r
  | .asking question answered =>
    IO.print question
    (← IO.getStdout).flush
    Main.conclude files (answered (← (← IO.getStdin).getLine))
