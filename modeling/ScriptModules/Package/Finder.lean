import ScriptModules.Package.Manifest

/-!
# Finding manifests

A search for a manifest goes upward from a directory and stops at the first
directory that holds a file with the manifest's name.  A finder remembers the
answer of every directory it has passed, and the contents of every manifest it
has read, until it is cleared.  Directories are remembered by their components,
so a different spelling of one does not cost a second look.
-/

namespace ScriptModules.Package

/-- A search for manifests with its memory. -/
structure Finder where
  /-- The name of manifest files. -/
  fileName : Path
  /-- The answer of each directory passed: the nearest manifest at or above it. -/
  directories : List (List Component × Option Path) := []
  /-- The contents of each manifest read; none if missing or malformed. -/
  manifests : List (List Component × Option Manifest) := []
  /-- How many directories were looked at. -/
  probes : Nat := 0

namespace Finder

/-- A finder that remembers nothing. -/
def ofName (fileName : String) : Finder :=
  { fileName := .ofString fileName }

/-- Forgets all answers; the number of directories looked at stays. -/
def clear (finder : Finder) : Finder :=
  { finder with directories := [], manifests := [] }

/-! ## The search upward -/

/-- How far a search went: the directories it looked at, and its answer. -/
structure Climb where
  passed : List Path
  found : Option Path

/-- Looks at directories in turn, up to one whose answer is known or that holds a
manifest.  The empty path is no directory. -/
def climb (finder : Finder) (fs : FileSystem) : List Path → Climb
  | [] => ⟨[], none⟩
  | directory :: above =>
    if directory.bytes = [] then ⟨[], none⟩
    else match finder.directories.lookup directory.components with
      | some answer => ⟨[], answer⟩
      | none =>
        let candidate := directory.join finder.fileName
        if fs.isFile candidate then ⟨[directory], some candidate⟩
        else
          let rest := climb finder fs above
          ⟨directory :: rest.passed, rest.found⟩

/-- Remembers an answer for a directory. -/
def remember (answer : Option Path) (memory : List (List Component × Option Path))
    (directory : Path) : List (List Component × Option Path) :=
  (directory.components, answer) :: memory.filter (·.1 ≠ directory.components)

/-- The nearest manifest at or above a directory. -/
def findFrom (finder : Finder) (fs : FileSystem) (directory : Path) : Option Path × Finder :=
  let trip := finder.climb fs directory.ancestors
  (trip.found, { finder with
    directories := trip.passed.foldl (remember trip.found) finder.directories
    probes := finder.probes + trip.passed.length })

/-- An absolute path for a path. -/
def absolute (fs : FileSystem) (path : Path) : Path :=
  if path.isAbsolute then path
  else match fs.workingPath? with
    | some place => place.join path
    | none => path

/-- Where the search for the manifest of a path begins: at a directory itself, at
the parent of a file and of a path that looks like one. -/
def searchStart (fs : FileSystem) (path : Path) : Path :=
  if fs.isDirectory path then path
  else if fs.isFile path || path.extension?.isSome then path.parent?.getD path
  else path

/-- The nearest manifest of a file or directory. -/
def find (finder : Finder) (fs : FileSystem) (path : Path) : Option Path × Finder :=
  finder.findFrom fs (searchStart fs (absolute fs path))

/-! ## Contents -/

/-- The manifest in a file.  A missing or malformed one counts as none. -/
def manifestAt (finder : Finder) (fs : FileSystem) (path : Path) : Option Manifest × Finder :=
  match finder.manifests.lookup path.components with
  | some answer => (answer, finder)
  | none =>
    let answer := if fs.isFile path then (Manifest.load fs path).toOption else none
    (answer, { finder with manifests := (path.components, answer) :: finder.manifests })

/-- The manifest directly inside a directory. -/
def manifestIn (finder : Finder) (fs : FileSystem) (directory : Path) :
    Option Manifest × Finder :=
  finder.manifestAt fs (directory.join finder.fileName)

/-- The nearest manifest with its contents; none if it is malformed. -/
def nearest (finder : Finder) (fs : FileSystem) (path : Path) :
    Option (Path × Manifest) × Finder :=
  match finder.find fs path with
  | (none, finder) => (none, finder)
  | (some place, finder) =>
    match finder.manifestAt fs place with
    | (none, finder) => (none, finder)
    | (some manifest, finder) => (some (place, manifest), finder)

end Finder

end ScriptModules.Package
