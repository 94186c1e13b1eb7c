/-
Following paths through a tree.

The steps of a path are taken one after another. Two dots lead back to the directory above, and a
symbolic link on the way is replaced by its target, at most forty in one walk.

* `Trail` — the way that has been taken;
* `Walk.follow` — where steps lead.

Design notes: a trail holds the nodes on the way, so a step looks only into the node at its end, and
a step back needs no new walk from the root. A link is never on a trail.
-/
import LazyEngine.Files.Error
import LazyEngine.Files.Node
import LazyEngine.Files.Path

namespace LazyEngine

/-- What a path is followed for. -/
inductive Aim where
  /-- What the path leads to. A link at the end is followed. -/
  | target
  /-- The last name itself. A link at the end is not followed. -/
  | entry
  /-- A file to be written, made if need be. A link at the end is followed, but a name with a slash
  after it is not even looked up, for no file can be meant. -/
  | file
deriving DecidableEq, Repr

/-- Where a path leads. -/
inductive Destination where
  /-- To a node that exists. `slash` tells that the path ends in a slash. -/
  | node (location : Location) (node : Node) (slash : Bool)
  /-- To a name that is free, in a directory that exists. -/
  | free (parent : Location) (name : String) (slash : Bool)

/-- The nodes on the way from the root, each with its name, the last one first. -/
abbrev Trail := List (String × Node)

namespace Trail

/-- The names on the way. -/
def location (trail : Trail) : Location :=
  (trail.map (·.1)).reverse

/-- The node that the way ends at, given the root. -/
def last (root : Node) : Trail → Node
  | [] => root
  | (_, node) :: _ => node

/-- Go on along a location, if it exists. -/
def extend? (root : Node) (trail : Trail) : Location → Option Trail
  | [] => some trail
  | name :: rest =>
    match (trail.last root).child? name with
    | none => none
    | some node => extend? root ((name, node) :: trail) rest

end Trail

namespace Walk

/-- The most links that are followed in one walk. -/
def linkLimit : Nat := 40

/-- The longest name of an entry, in bytes. -/
def longestName : Nat := 255

/-- The longest path, in bytes. -/
def longestPath : Nat := 4095

/-- Nothing comes after these steps but possibly a slash. -/
def isEnd (steps : List String) : Bool :=
  steps == [] || steps == [""]

/-- The steps that a link is replaced by. -/
def throughLink (target : String) (rest : List String) : List String :=
  if rest.isEmpty then Path.steps target
  else (Path.steps target).filter (· ≠ "") ++ rest

/-- The end of a trail as a destination. -/
def arrive (root : Node) (trail : Trail) (slash : Bool) : Destination :=
  .node trail.location (trail.last root) slash

/-- Take steps from the end of a trail; `onLink` goes on behind a link. -/
def followWith (onLink : Trail → List String → Except FileError Destination) (root : Node)
    (aim : Aim) (trail : Trail) : List String → Except FileError Destination
  | [] => .ok (arrive root trail false)
  | [""] => .ok (arrive root trail true)
  | step :: rest =>
    match trail.last root with
    | .directory es =>
      if step = "." then followWith onLink root aim trail rest
      else if step = ".." then followWith onLink root aim trail.tail rest
      else if aim = .file ∧ rest = [""] then .error .isDirectory
      else if longestName < step.utf8ByteSize then .error .nameTooLong
      else match (Node.directory es).child? step with
        | none =>
          if isEnd rest then .ok (.free trail.location step (!rest.isEmpty)) else .error .notFound
        | some (.link target) =>
          if isEnd rest ∧ aim = .entry then
            .ok (arrive root ((step, .link target) :: trail) (!rest.isEmpty))
          else if target.isEmpty then .error .notFound
          else onLink (if Path.isAbsolute target then [] else trail) (throughLink target rest)
        | some node => followWith onLink root aim ((step, node) :: trail) rest
    | _ => .error .notDirectory

/-- Take steps from the end of a trail, through at most so many links. -/
def follow (root : Node) (aim : Aim) :
    Nat → Trail → List String → Except FileError Destination
  | 0 => followWith (fun _ _ => .error .tooManyLinks) root aim
  | n + 1 => followWith (follow root aim n) root aim

end Walk

end LazyEngine
