/-
File trees.

A node is a file, a symbolic link or a directory with named entries. A location is the list of
names that lead to a node from the root; no name in it is a link.

* `Node.at?`, `Node.put`, `Node.remove` — look at a location, fill it, empty it;
* `Node.listing` — all locations below a directory, in order.
-/

namespace LazyEngine

mutual

/-- A file, a symbolic link or a directory. -/
inductive Node where
  | file (bytes : ByteArray)
  | link (target : String)
  | directory (entries : List Entry)

/-- A named node. -/
inductive Entry where
  | mk (name : String) (node : Node)

end

/-- The names that lead to a node from the root. -/
abbrev Location := List String

namespace Entry

def name : Entry → String
  | mk name _ => name

def node : Entry → Node
  | mk _ node => node

end Entry

namespace Node

def isDirectory : Node → Bool
  | directory _ => true
  | _ => false

/-- The entries of a directory; other nodes have none. -/
def entries : Node → List Entry
  | directory es => es
  | _ => []

/-- The entry of a name. -/
def child? (n : Node) (name : String) : Option Node :=
  (n.entries.find? (·.name == name)).map Entry.node

/-- The node at a location. -/
def at? (n : Node) : Location → Option Node
  | [] => some n
  | name :: rest => (n.child? name).bind (·.at? rest)

/-- Replace the entry of a name, or add one. -/
def setChild (n : Node) (name : String) (value : Node) : Node :=
  match n with
  | directory es =>
    if es.any (·.name == name) then
      directory (es.map fun e => if e.name == name then .mk name value else e)
    else directory (es ++ [.mk name value])
  | n => n

/-- Put a node at a location whose parent is a directory. -/
def put (n : Node) (value : Node) : Location → Node
  | [] => value
  | [name] => n.setChild name value
  | name :: rest =>
    match n.child? name with
    | some c => n.setChild name (c.put value rest)
    | none => n

def eraseChild (n : Node) (name : String) : Node :=
  match n with
  | directory es => directory (es.filter (·.name != name))
  | n => n

/-- Take away the node at a location. -/
def remove (n : Node) : Location → Node
  | [] => n
  | [name] => n.eraseChild name
  | name :: rest =>
    match n.child? name with
    | some c => n.setChild name (c.remove rest)
    | none => n

mutual

/-- An entry and all below it, each with its path; a slash marks a directory and an at sign a
link. -/
def entryPaths (above : String) : Entry → List String
  | .mk name node =>
    match node with
    | .directory es => (above ++ name ++ "/") :: allPaths (above ++ name ++ "/") es
    | .link _ => [above ++ name ++ "@"]
    | .file _ => [above ++ name]

def allPaths (above : String) : List Entry → List String
  | [] => []
  | e :: es => entryPaths above e ++ allPaths above es

end

/-- Everything below a directory, in order. -/
def listing (n : Node) : List String :=
  (allPaths "" n.entries).mergeSort fun a b => decide (a ≤ b)

end Node

end LazyEngine
