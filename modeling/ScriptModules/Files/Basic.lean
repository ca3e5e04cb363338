import ScriptModules.Bytes
import ScriptModules.Path
import ScriptModules.Timestamp

/-!
# File systems

A file system is a finite table from *locations* to nodes.  A location is the
list of names on the way down from the root, so it has no links, `.` or `..` in
it.  The root is the empty location and always a directory.

A path is walked one step at a time.  Every step starts at a directory; a link
is replaced by the steps of its target, and a walk through more than 40 links
fails.  A slash at the end of a path counts as the step `.`, so such a path
names only directories.

Relative paths start at the working directory.  When this one is removed it is
*lost*: it has no path and no contents any more, and nothing can be made in it, but
`..` still leads out of it.  The same goes for directories above it that are removed
with it or later.
-/

namespace ScriptModules

/-- The names on the way from the root. -/
abbrev Location := List Name

/-- What stands at a location. -/
inductive Node where
  | file (content : Bytes) (modified : Timestamp)
  | directory
  | link (target : Path)
  deriving DecidableEq

/-- Why an operation on a file system failed. -/
inductive IoError where
  | notFound
  | exists
  | notDirectory
  | isDirectory
  | tooManyLinks
  | nameTooLong
  | nullByte
  | notText
  deriving DecidableEq, Repr

/-- The text of a failure. -/
def IoError.message : IoError → String
  | .notFound => "No such file or directory (os error 2)"
  | .exists => "File exists (os error 17)"
  | .notDirectory => "Not a directory (os error 20)"
  | .isDirectory => "Is a directory (os error 21)"
  | .tooManyLinks => "Too many levels of symbolic links (os error 40)"
  | .nameTooLong => "File name too long (os error 36)"
  | .nullByte => "file name contained an unexpected NUL byte"
  | .notText => "stream did not contain valid UTF-8"

/-- A file system and the clock beside it. -/
structure FileSystem where
  /-- The nodes; at most one for each location, and none for the root. -/
  nodes : List (Location × Node)
  /-- Where relative paths start. -/
  workingDirectory : Location
  /-- How many directories on the way there are lost, the last ones. -/
  lost : Nat
  /-- The last reading of the clock, in microseconds since the start of 1970. -/
  clock : Nat

namespace FileSystem

/-- A file system without files. -/
def empty : FileSystem :=
  { nodes := [], workingDirectory := [], lost := 0, clock := 1800000000000000 }

/-! ## Nodes -/

/-- The node at a location. -/
def node? (fs : FileSystem) (location : Location) : Option Node :=
  if location = [] then some .directory else fs.nodes.lookup location

/-- Puts a node at a location, in place of what stood there. -/
def setNode (fs : FileSystem) (location : Location) (node : Node) : FileSystem :=
  { fs with nodes := (location, node) :: fs.nodes.filter (·.1 ≠ location) }

/-- Takes away the node at a location and everything below it. -/
def dropNode (fs : FileSystem) (location : Location) : FileSystem :=
  let depth := fs.workingDirectory.length
  let kept := fs.workingDirectory.take (depth - fs.lost)
  { fs with
    nodes := fs.nodes.filter fun entry => ¬ location <+: entry.1
    lost := if location <+: kept then depth + 1 - location.length else fs.lost }

/-- The path of a location. -/
def Location.toPath (location : Location) : Path :=
  ⟨if location = [] then [Path.slash] else location.flatMap (Path.slash :: ·)⟩

/-- The names directly below a location, in order. -/
def childNames (fs : FileSystem) (location : Location) : List Name :=
  let names := fs.nodes.filterMap fun entry =>
    if entry.1.dropLast = location ∧ entry.1 ≠ [] then entry.1.getLast? else none
  names.mergeSort fun a b => decide (a ≤ b)

/-! ## Walking -/

/-- One step of a walk. -/
inductive Step where
  /-- Stay: the piece `.`, or a slash at the end. -/
  | stay
  /-- The piece `..`; above the root is the root. -/
  | up
  /-- Down to a name. -/
  | down (name : Name)
  deriving DecidableEq

/-- The step of a piece. -/
def Step.ofPiece? (piece : Bytes) : Option Step :=
  if piece = [] then none
  else if piece = [Path.point] then some .stay
  else if piece = [Path.point, Path.point] then some .up
  else some (.down piece)

/-- The steps of a path. -/
def stepsOf (path : Path) : List Step :=
  let steps := (Path.split path.bytes).filterMap Step.ofPiece?
  if path.bytes.getLast? = some Path.slash then steps ++ [.stay] else steps

/-- The longest name, in bytes. -/
def nameLimit : Nat := 255

/-- The longest path, in bytes. -/
def pathLimit : Nat := 4095

/-- Walks the steps from a location.  `jump` continues a walk at the target of a
link.  Unless `follow` is set, a link at the last step is not followed. -/
def walkWith (fs : FileSystem) (follow : Bool)
    (jump : Location → List Step → Except IoError Location) :
    Location → List Step → Except IoError Location
  | place, [] => .ok place
  | place, step :: steps =>
    match fs.node? place with
    | none => .error .notFound
    | some (.file ..) | some (.link _) => .error .notDirectory
    | some .directory =>
      match step with
      | .stay => walkWith fs follow jump place steps
      | .up => walkWith fs follow jump place.dropLast steps
      | .down name =>
        if nameLimit < name.length then .error .nameTooLong
        else match fs.node? (place ++ [name]) with
          | none => .error .notFound
          | some (.link target) =>
            if steps = [] ∧ ¬ follow then .ok (place ++ [name])
            else if target.bytes = [] then .error .notFound
            else jump (if target.isAbsolute then [] else place) (stepsOf target ++ steps)
          | some _ => walkWith fs follow jump (place ++ [name]) steps

/-- Walks through at most `links` links. -/
def walk (fs : FileSystem) (follow : Bool) : (links : Nat) → Location → List Step →
    Except IoError Location
  | 0 => fs.walkWith follow fun _ _ => .error .tooManyLinks
  | links + 1 => fs.walkWith follow (walk fs follow links)

/-- The number of links a walk may pass through. -/
def linkLimit : Nat := 40

/-- A place in the tree, or a lost directory that used to be there. -/
structure Place where
  location : Location
  /-- How many directories on the way there are lost, the last ones. -/
  lost : Nat
  deriving DecidableEq

/-- Walks out of lost directories.  Gives the steps that are left to do in the tree;
none are left at a lost directory. -/
def leaveLost : (lost : Nat) → Location → List Step → Except IoError (Place × List Step)
  | 0, location, steps => .ok (⟨location, 0⟩, steps)
  | lost + 1, location, [] => .ok (⟨location, lost + 1⟩, [])
  | lost + 1, location, .stay :: steps => leaveLost (lost + 1) location steps
  | lost + 1, location, .up :: steps => leaveLost lost location.dropLast steps
  | _ + 1, _, .down _ :: _ => .error .notFound

/-- The place the given steps of a path lead to, if the path can be walked at all. -/
def placeOf (fs : FileSystem) (follow : Bool) (path : Path) (steps : List Step) :
    Except IoError Place :=
  if path.bytes.contains 0 then .error .nullByte
  else if path.bytes = [] then .error .notFound
  else if pathLimit < path.bytes.length then .error .nameTooLong
  else if path.isAbsolute then (fs.walk follow linkLimit [] steps).map (⟨·, 0⟩)
  else do
    let (place, steps) ← leaveLost fs.lost fs.workingDirectory steps
    if 0 < place.lost then return place
    else return ⟨← fs.walk follow linkLimit place.location steps, 0⟩

/-- The node at a place.  A lost directory is a directory. -/
def nodeAt? (fs : FileSystem) (place : Place) : Option Node :=
  if 0 < place.lost then some .directory else fs.node? place.location

/-- The place a path leads to, and the node there. -/
def find (fs : FileSystem) (path : Path) : Except IoError (Place × Node) := do
  let place ← fs.placeOf true path (stepsOf path)
  match fs.nodeAt? place with
  | some node => .ok (place, node)
  | none => .error .notFound

/-! ## Questions -/

/-- Whether the path leads to a regular file. -/
def isFile (fs : FileSystem) (path : Path) : Bool :=
  match fs.find path with
  | .ok (_, .file ..) => true
  | _ => false

/-- Whether the path leads to a directory. -/
def isDirectory (fs : FileSystem) (path : Path) : Bool :=
  match fs.find path with
  | .ok (_, .directory) => true
  | _ => false

/-- Whether the path of a location is too long to be used. -/
def Location.isLong (location : Location) : Bool :=
  pathLimit < (Location.toPath location).bytes.length

/-- What can be named of a file system.  What has too long a path cannot be gone to, and a
working directory that has one is like a lost one. -/
def named (fs : FileSystem) : FileSystem :=
  let above := (List.range (fs.workingDirectory.length + 1)).map fs.workingDirectory.take
  { fs with
    nodes := fs.nodes.filter fun entry => !Location.isLong entry.1
    lost := max fs.lost (above.countP Location.isLong) }

/-- The real path of what a path leads to: absolute, without links, `.` and `..`.  No
relative path has one while the working directory is lost.  All that a path goes down to is
looked at by its own real path, so none of these may be too long. -/
def realPath (fs : FileSystem) (path : Path) : Except IoError Path := do
  let (place, _) ← fs.find path
  if !path.isAbsolute && 0 < fs.lost then throw .notFound
  else match fs.named.find path with
    | .ok _ => return Location.toPath place.location
    | .error _ => throw .nameTooLong

/-- The contents of a file. -/
def read (fs : FileSystem) (path : Path) : Except IoError Bytes := do
  match ← fs.find path with
  | (_, .file content _) => return content
  | _ => throw .isDirectory

/-- The contents of a file that holds UTF-8. -/
def readText (fs : FileSystem) (path : Path) : Except IoError String := do
  match Bytes.text? (← fs.read path) with
  | some text => return text
  | none => throw .notText

/-- The names in a directory, in order. -/
def list (fs : FileSystem) (path : Path) : Except IoError (List Name) := do
  match ← fs.find path with
  | (place, .directory) =>
    return if 0 < place.lost then [] else fs.childNames place.location
  | _ => throw .notDirectory

/-- Size and time of a node. -/
structure Status where
  /-- The length of a file, or of the target of a link.  Directories have a fixed one. -/
  size : Nat
  /-- When a file was last changed; for other nodes, the last reading of the clock. -/
  modified : Timestamp

/-- The time of the last reading of the clock. -/
def time (fs : FileSystem) : Timestamp :=
  ⟨(fs.clock / 1000000 : Nat), fs.clock % 1000000 * 1000⟩

/-- Size and time of what stands at a path itself; a link is not followed. -/
def status (fs : FileSystem) (path : Path) : Option Status := do
  let place ← (fs.placeOf false path (stepsOf path)).toOption
  match ← fs.nodeAt? place with
  | .file content modified => return ⟨content.length, modified⟩
  | .link target => return ⟨target.bytes.length, fs.time⟩
  | .directory => return ⟨4096, fs.time⟩

/-- The path of the working directory, unless it is lost. -/
def workingPath? (fs : FileSystem) : Option Path :=
  if fs.lost = 0 then some (Location.toPath fs.workingDirectory) else none

end FileSystem

end ScriptModules
