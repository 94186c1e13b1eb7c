/-
What has to be done to turn one file tree into another.

* `Node.changes` — the steps that lead from one tree to the other, removals first.
-/
import LazyEngine.Files.Node

namespace LazyEngine

/-- One step from a file tree to another. -/
inductive Change where
  /-- Remove a file or a link. -/
  | removeFile (location : Location)
  /-- Remove a directory, which is empty by then. -/
  | removeDirectory (location : Location)
  | makeDirectory (location : Location)
  | write (location : Location) (bytes : ByteArray)

namespace Node

mutual

/-- Remove an entry of the directory at a location with all below it. -/
def removals (here : Location) : Entry → List Change
  | .mk name node =>
    match node with
    | .directory es => removalsAll (here ++ [name]) es ++ [.removeDirectory (here ++ [name])]
    | .file _ => [.removeFile (here ++ [name])]
    | .link _ => [.removeFile (here ++ [name])]

def removalsAll (here : Location) : List Entry → List Change
  | [] => []
  | e :: es => removals here e ++ removalsAll here es

end

mutual

/-- What has to go, of an entry of the directory at a location, on the way to another directory. -/
def obsolete (after : Node) (here : Location) : Entry → List Change
  | .mk name node =>
    match node, after.child? name with
    | .directory es, some (.directory fs) =>
      obsoleteAll (.directory fs) (here ++ [name]) es
    | .file _, some (.file _) => []
    | .link _, some (.link _) => []
    | node, _ => removals here (.mk name node)

def obsoleteAll (after : Node) (here : Location) : List Entry → List Change
  | [] => []
  | e :: es => obsolete after here e ++ obsoleteAll after here es

end

mutual

/-- What has to be made, of an entry of the directory at a location, coming from another
directory. -/
def novel (before : Option Node) (here : Location) : Entry → List Change
  | .mk name node =>
    let location := here ++ [name]
    match node, before.bind (·.child? name) with
    | .directory es, some (.directory fs) => novelAll (some (.directory fs)) location es
    | .directory es, _ => .makeDirectory location :: novelAll none location es
    | .file bytes, some (.file old) =>
      if bytes.data == old.data then [] else [.write location bytes]
    | .file bytes, _ => [.write location bytes]
    | .link _, _ => []

def novelAll (before : Option Node) (here : Location) : List Entry → List Change
  | [] => []
  | e :: es => novel before here e ++ novelAll before here es

end

/-- The steps from one tree to another. No command makes links, so there is no step for that. -/
def changes (before after : Node) : List Change :=
  obsoleteAll after [] before.entries ++ novelAll (some before) [] after.entries

end Node

end LazyEngine
