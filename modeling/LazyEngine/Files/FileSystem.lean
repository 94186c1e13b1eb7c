/-
The file system.

A file system is a tree, a working directory, and what it refuses to do where. An operation follows
a path (`Files/Walk`) and does something where it leads.

* `FileSystem.walk` — where a path leads;
* `exists?`, `readText`, `write`, `removeFile`, `removeDirectory`, `makeDirectory`,
  `makeDirectories`, `entries`, `empty` — the operations.

Design notes: a change is a new file system. `refuses` stands for all that can keep an operation
from happening without a reason in the tree itself. Every operation follows its path anew, so one
that takes away a link takes away the paths through it as well.
-/
import LazyEngine.Files.Walk

namespace LazyEngine

/-- What can be done at a location. -/
inductive Access where
  | read
  | create
  | write
  | remove
deriving DecidableEq, Repr

structure FileSystem where
  root : Node := .directory []
  /-- Where relative paths begin. -/
  here : Location := []
  /-- Whether an access is refused at a location. -/
  refuses : Access → Location → Bool := fun _ _ => false

namespace FileSystem

/-- Where a path leads. -/
def walk (fs : FileSystem) (aim : Aim) (path : String) : Except FileError Destination :=
  if path.toList.contains '\x00' then .error .nulInPath
  else if path.isEmpty then .error .notFound
  else if Walk.longestPath < path.utf8ByteSize then .error .nameTooLong
  else match Trail.extend? fs.root [] (if Path.isAbsolute path then [] else fs.here) with
    | none => .error .notFound
    | some trail => Walk.follow fs.root aim Walk.linkLimit trail (Path.steps path)

/-- The node that a path leads to, through all links, and its location. -/
def find (fs : FileSystem) (path : String) : Except FileError (Location × Node) :=
  match fs.walk .target path with
  | .error e => .error e
  | .ok (.free _ _ _) => .error .notFound
  | .ok (.node location node slash) =>
    if slash && !node.isDirectory then .error .notDirectory else .ok (location, node)

/-- Whether a path leads to something. -/
def exists? (fs : FileSystem) (path : String) : Bool :=
  (fs.find path).isOk

def isDirectory (fs : FileSystem) (path : String) : Bool :=
  match fs.find path with
  | .ok (_, n) => n.isDirectory
  | .error _ => false

/-- The bytes of a file. -/
def read (fs : FileSystem) (path : String) : Except FileError ByteArray :=
  match fs.find path with
  | .error e => .error e
  | .ok (location, .file bytes) => if fs.refuses .read location then .error .denied else .ok bytes
  | .ok _ => .error .isDirectory

/-- The text of a file. -/
def readText (fs : FileSystem) (path : String) : Except FileError String :=
  match fs.read path with
  | .error e => .error e
  | .ok bytes =>
    match String.fromUTF8? bytes with
    | some text => .ok text
    | none => .error .notText

/-- Write a file, in place of what it held. A link at the end is followed, also to a free name. -/
def write (fs : FileSystem) (path : String) (bytes : ByteArray) : Except FileError FileSystem :=
  match fs.walk .file path with
  | .error e => .error e
  | .ok (.free parent name _) =>
    if fs.refuses .create (parent ++ [name]) then .error .denied
    else .ok { fs with root := fs.root.put (.file bytes) (parent ++ [name]) }
  | .ok (.node location (.file _) _) =>
    if fs.refuses .write location then .error .denied
    else .ok { fs with root := fs.root.put (.file bytes) location }
  | .ok (.node _ _ _) => .error .isDirectory

/-- Remove a file or a link. -/
def removeFile (fs : FileSystem) (path : String) : Except FileError FileSystem :=
  match fs.walk .entry path with
  | .error e => .error e
  | .ok (.free _ _ _) => .error .notFound
  | .ok (.node _ (.directory _) _) => .error .isDirectory
  | .ok (.node location _ slash) =>
    if slash then .error .notDirectory
    else if fs.refuses .remove location then .error .denied
    else .ok { fs with root := fs.root.remove location }

/-- Remove a directory in which nothing is left. -/
def removeDirectory (fs : FileSystem) (path : String) : Except FileError FileSystem :=
  match fs.walk .entry path with
  | .error e => .error e
  | .ok (.free _ _ _) => .error .notFound
  | .ok (.node location (.directory es) _) =>
    if !es.isEmpty then .error .notEmpty
    else if fs.refuses .remove location then .error .denied
    else .ok { fs with root := fs.root.remove location }
  | .ok (.node _ _ _) => .error .notDirectory

/-- Make one directory. -/
def makeDirectory (fs : FileSystem) (path : String) : Except FileError FileSystem :=
  match fs.walk .entry path with
  | .error e => .error e
  | .ok (.node _ _ _) => .error .alreadyExists
  | .ok (.free parent name _) =>
    if fs.refuses .create (parent ++ [name]) then .error .denied
    else .ok { fs with root := fs.root.put (.directory []) (parent ++ [name]) }

/-- Make the first of some paths a directory; the others are its ancestors, nearest first, and are
made if they have to be. Ancestors that have been made stay, even if the path itself cannot be. -/
def makeFirst (fs : FileSystem) : List String → Except FileError Unit × FileSystem
  | [] => (.error .noTopDirectory, fs)
  | path :: above =>
    if path.isEmpty then (.ok (), fs)
    else match fs.makeDirectory path with
      | .ok fs => (.ok (), fs)
      | .error .notFound =>
        match fs.makeFirst above with
        | (.error e, fs) => (.error e, fs)
        | (.ok (), fs) =>
          match fs.makeDirectory path with
          | .ok fs => (.ok (), fs)
          | .error e => (if fs.isDirectory path then .ok () else .error e, fs)
      | .error e => (if fs.isDirectory path then .ok () else .error e, fs)

/-- Make a directory with all its ancestors. -/
def makeDirectories (fs : FileSystem) (path : String) : Except FileError Unit × FileSystem :=
  fs.makeFirst (Path.ancestors path)

/-- The entries of a directory. -/
def entries (fs : FileSystem) (path : String) : Except FileError (List Entry) :=
  match fs.find path with
  | .error e => .error e
  | .ok (location, .directory es) => if fs.refuses .read location then .error .denied else .ok es
  | .ok _ => .error .notDirectory

mutual

/-- Remove an entry of the directory at a path. A directory is emptied first, if it can be listed;
what cannot be removed stays. -/
def removeEntry (fs : FileSystem) (path : String) : Entry → FileSystem
  | .mk name node =>
    let inner := Path.join path name
    match node with
    | .directory es =>
      let fs := if (fs.entries inner).isOk then fs.removeEntries inner es else fs
      (fs.removeDirectory inner).toOption.getD fs
    | .file _ => (fs.removeFile inner).toOption.getD fs
    | .link _ => (fs.removeFile inner).toOption.getD fs

/-- Remove entries of the directory at a path, one after another. -/
def removeEntries (fs : FileSystem) (path : String) : List Entry → FileSystem
  | [] => fs
  | e :: es => (fs.removeEntry path e).removeEntries path es

end

/-- Remove everything below a directory that can be removed; a path that leads to no directory is
left alone. Links are removed, not followed. -/
def empty (fs : FileSystem) (path : String) : FileSystem :=
  match fs.entries path with
  | .ok es => fs.removeEntries path es
  | .error _ => fs

/-- Everything below a directory, in order; `none` for what is no directory. -/
def listing (fs : FileSystem) (path : String) : Option (List String) :=
  match fs.find path with
  | .ok (_, .directory es) => some (Node.directory es).listing
  | _ => none

/-- Make a symbolic link. -/
def makeLink (fs : FileSystem) (path target : String) : Except FileError FileSystem :=
  match fs.walk .entry path with
  | .error e => .error e
  | .ok (.node _ _ _) => .error .alreadyExists
  | .ok (.free parent name slash) =>
    if slash then .error .notFound
    else if fs.refuses .create (parent ++ [name]) then .error .denied
    else .ok { fs with root := fs.root.put (.link target) (parent ++ [name]) }

end FileSystem

end LazyEngine
