import ScriptModules.Files.Basic

/-!
# Changing a file system

Making and removing directories and files.  Every operation names what it
changes by a path.  One that fails changes nothing, save that directories which
were made on the way to a failure stay.

A file is replaced in two steps: a temporary file is made in a given directory,
then it is renamed.  The first step fails when the directory is not one, the
second when a directory stands in the way.  A rename replaces a link and does
not follow it.
-/

namespace ScriptModules.FileSystem

/-- Reads the clock.  Readings increase. -/
def tick (fs : FileSystem) : Timestamp × FileSystem :=
  let now := fs.clock + 1
  (⟨(now / 1000000 : Nat), now % 1000000 * 1000⟩, { fs with clock := now })

/-! ## The place of a new node -/

/-- The last step of a path as its parent sees it. -/
inductive Target where
  /-- A name in a directory. -/
  | child (parent : Location) (name : Name)
  /-- A directory reached by `.` or `..`, or the root. -/
  | directory

/-- The place a path names, whether or not something stands there.  Slashes at the
end are passed over.  A lost directory has no room for a name. -/
def target (fs : FileSystem) (path : Path) : Except IoError Target := do
  let steps := (Path.split path.bytes).filterMap Step.ofPiece?
  let above ← fs.placeOf true path steps.dropLast
  match fs.nodeAt? above, steps.getLast? with
  | some .directory, some (.down name) =>
    if 0 < above.lost then throw .notFound
    else if nameLimit < name.length then throw .nameTooLong
    else return .child above.location name
  | some .directory, _ => return .directory
  | some _, _ => throw .notDirectory
  | none, _ => throw .notFound

/-! ## Directories -/

/-- Makes one directory. -/
def makeDirectory (fs : FileSystem) (path : Path) : Except IoError FileSystem := do
  match ← fs.target path with
  | .child parent name =>
    match fs.node? (parent ++ [name]) with
    | some _ => throw .exists
    | none => return fs.setNode (parent ++ [name]) .directory
  | .directory => throw .exists

/-- Makes a directory, or accepts one that is there. -/
def ensureDirectory (fs : FileSystem) (path : Path) : Except IoError FileSystem :=
  match fs.makeDirectory path with
  | .ok fs => .ok fs
  | .error e => if fs.isDirectory path then .ok fs else .error e

/-- Makes the directories of a list, whose nearest comes first, starting with the
first one that can be made.  Those that were made stay when a nearer one fails. -/
def makeChain (fs : FileSystem) : List Path → Except IoError Unit × FileSystem
  | [] => (.ok (), fs)
  | path :: above =>
    if path.bytes = [] then (.ok (), fs)
    else match fs.makeDirectory path with
      | .ok fs => (.ok (), fs)
      | .error .notFound =>
        match fs.makeChain above with
        | (.error e, fs) => (.error e, fs)
        | (.ok (), fs) =>
          match fs.ensureDirectory path with
          | .ok fs => (.ok (), fs)
          | .error e => (.error e, fs)
      | .error e => (if fs.isDirectory path then .ok () else .error e, fs)

/-- Makes a directory with all those above it. -/
def makeDirectories (fs : FileSystem) (path : Path) : Except IoError Unit × FileSystem :=
  fs.makeChain path.ancestors

/-- Makes the directories above a path. -/
def makeParents (fs : FileSystem) (path : Path) : Except IoError Unit × FileSystem :=
  match path.parent? with
  | some above => fs.makeDirectories above
  | none => (.ok (), fs)

/-! ## Files -/

/-- Removes a file or a link. -/
def removeFile (fs : FileSystem) (path : Path) : Except IoError FileSystem := do
  match ← fs.target path with
  | .child parent name =>
    match fs.node? (parent ++ [name]) with
    | none => throw .notFound
    | some .directory => throw .isDirectory
    | some _ =>
      if path.bytes.getLast? = some Path.slash then throw .notDirectory
      else return fs.dropNode (parent ++ [name])
  | .directory => throw .isDirectory

/-- What kept a file from being replaced. -/
inductive ReplaceError where
  /-- The directory is relative to a working directory that is lost. -/
  | noWorkingDirectory
  /-- No temporary file could be made. -/
  | temporary (cause : IoError)
  /-- The temporary file could not be renamed. -/
  | rename (cause : IoError)
  deriving DecidableEq, Repr

/-- Renames a new file with the given contents to a path. -/
def renameNew (fs : FileSystem) (path : Path) (content : Bytes) :
    Except IoError FileSystem := do
  match ← fs.target path with
  | .child parent name =>
    if fs.node? (parent ++ [name]) = some .directory then throw .isDirectory
    else
      let (now, fs) := fs.tick
      return fs.setNode (parent ++ [name]) (.file content now)
  | .directory => throw .isDirectory

/-- Writes a file through a temporary one in `directory`. -/
def replaceFile (fs : FileSystem) (directory path : Path) (content : Bytes) :
    Except ReplaceError FileSystem :=
  if !directory.isAbsolute && 0 < fs.lost then .error .noWorkingDirectory
  else match fs.find directory with
    | .error e => .error (.temporary e)
    | .ok (_, .directory) =>
      match fs.renameNew path content with
      | .ok fs => .ok fs
      | .error e => .error (.rename e)
    | .ok _ => .error (.temporary .notDirectory)

/-! ## Setting up -/

/-- Writes a file, through links. -/
def putFile (fs : FileSystem) (path : Path) (content : Bytes) (modified : Timestamp) :
    Except IoError FileSystem := do
  match fs.find path with
  | .ok (place, .file ..) => return fs.setNode place.location (.file content modified)
  | .ok _ => throw .isDirectory
  | .error .notFound =>
    match ← fs.target path with
    | .child parent name =>
      match fs.node? (parent ++ [name]) with
      | some (.link there) =>
        match ← fs.target (Path.join (Location.toPath parent) there) with
        | .child parent name => return fs.setNode (parent ++ [name]) (.file content modified)
        | .directory => throw .isDirectory
      | _ => return fs.setNode (parent ++ [name]) (.file content modified)
    | .directory => throw .isDirectory
  | .error e => throw e

/-- Makes a link. -/
def putLink (fs : FileSystem) (path there : Path) : Except IoError FileSystem := do
  match ← fs.target path with
  | .child parent name =>
    if fs.node? (parent ++ [name]) = some .directory then throw .exists
    else return fs.setNode (parent ++ [name]) (.link there)
  | .directory => throw .exists

/-- Removes all that stands in a directory. -/
def clear (fs : FileSystem) (path : Path) : Except IoError FileSystem := do
  match ← fs.find path with
  | (place, .directory) =>
    if 0 < place.lost then return fs
    else
      return (fs.childNames place.location).foldl
        (fun fs name => fs.dropNode (place.location ++ [name])) fs
  | _ => throw .notDirectory

/-- Removes what stands at a path: a file, a link, or a directory with its contents.
A directory that is named by `.` or `..`, or through a link, only loses its contents. -/
def removeAll (fs : FileSystem) (path : Path) : Except IoError FileSystem := do
  match ← fs.target path with
  | .child parent name =>
    match fs.node? (parent ++ [name]) with
    | none => throw .notFound
    | some .directory => return fs.dropNode (parent ++ [name])
    | some _ =>
      if path.bytes.getLast? = some Path.slash then fs.clear path
      else return fs.dropNode (parent ++ [name])
  | .directory => fs.clear path

/-- Sets the modification time of a file. -/
def setModified (fs : FileSystem) (path : Path) (modified : Timestamp) :
    Except IoError FileSystem := do
  match ← fs.find path with
  | (place, .file content _) => return fs.setNode place.location (.file content modified)
  | _ => return fs

/-- Makes a directory the working directory. -/
def changeDirectory (fs : FileSystem) (path : Path) : Except IoError FileSystem := do
  match ← fs.find path with
  | (place, .directory) =>
    return { fs with workingDirectory := place.location, lost := place.lost }
  | _ => throw .notDirectory

end ScriptModules.FileSystem
