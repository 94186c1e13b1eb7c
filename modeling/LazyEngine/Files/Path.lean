/-
Paths as texts.

A path is a text with slashes. Runs of slashes, a dot between slashes and slashes at the end do not
count, except that a relative path may begin with a dot.

* `Path.join` — the path of an entry of a directory;
* `Path.parent?` — the path without its last name, cut out of the same text;
* `Path.ancestors` — the path, its parent, and so on up to the root or the empty path.
-/

namespace LazyEngine.Path

/-- The parts between slashes. -/
def parts (path : String) : List String :=
  (path.toList.splitOnP (· == '/')).map String.ofList

def isAbsolute (path : String) : Bool :=
  path.toList.head? == some '/'

def endsInSlash (path : String) : Bool :=
  path.toList.getLast? == some '/'

/-- The path of the entry `name` of a directory. -/
def join (directory name : String) : String :=
  if directory.isEmpty then name
  else if endsInSlash directory then directory ++ name
  else directory ++ "/" ++ name

/-- A part that does not name anything. -/
def isTrivial (part : String) : Bool :=
  part == "" || part == "."

/-- Drop trivial parts at the end; a relative path keeps a dot at its beginning. -/
def strip (absolute : Bool) (parts : List String) : List String :=
  let kept := (parts.reverse.dropWhile isTrivial).reverse
  if kept.isEmpty && !absolute && parts.head? == some "." then ["."] else kept

/-- The path without its last name; the root and the empty path have no parent. -/
def parent? (path : String) : Option String :=
  let absolute := isAbsolute path
  let body := strip absolute (if absolute then (parts path).drop 1 else parts path)
  if body.isEmpty then none
  else
    let rest := "/".intercalate (strip absolute body.dropLast)
    some (if absolute then "/" ++ rest else rest)

/-- A path and all its ancestors, at most so many. -/
def ancestorsWithin : Nat → String → List String
  | 0, path => [path]
  | n + 1, path => path :: ((parent? path).map (ancestorsWithin n)).getD []

/-- A path and all its ancestors. -/
def ancestors (path : String) : List String :=
  ancestorsWithin (parts path).length path

/-- The names to follow one after another. A slash at the end, after a name, is kept as an empty
name: what comes before it has to be a directory. -/
def steps (path : String) : List String :=
  let names := (parts path).filter (· ≠ "")
  if endsInSlash path && !names.isEmpty then names ++ [""] else names

end LazyEngine.Path
