import ScriptModules.Program
import ScriptModules.Resolver

/-!
# Searches, look by look

The searches of a resolver look at the files in one way only: they ask whether a path is one of a
file or of a directory, and what the manifest in a directory says.  Here they are written as
programs that ask (`Search`), so that one can also speak of the looks a search makes (`trail`).
Answered from the files and from what is remembered of manifests, each program comes to what the
search comes to at once (`run_bareSearch`, `run_pathSearch`).  All of them end at the first file
that is there (`EndsAtFiles`).
-/

namespace ScriptModules

namespace Resolver

open Package (Finder Manifest)

/-! ## Looks -/

/-- A look of a search. -/
inductive Look where
  /-- Whether a path is one of a file. -/
  | file (path : Path)
  /-- Whether a path is one of a directory. -/
  | directory (path : Path)
  /-- What the manifest in a directory says, if there is one. -/
  | manifest (directory : Path)

/-- The kind of answer to a look. -/
def Look.Answer : Look → Type
  | .file _ | .directory _ => Bool
  | .manifest _ => Option Manifest

/-- What a search asks for. -/
abbrev looking : Interface := ⟨Look, Look.Answer⟩

/-- A search for a file. -/
abbrev Search := Program looking (Option Path)

/-- Answers a look from the files and from what is remembered of manifests. -/
def answerLook (fs : FileSystem) : (look : Look) → Finder → look.Answer × Finder
  | .file path, finder => (fs.isFile path, finder)
  | .directory path, finder => (fs.isDirectory path, finder)
  | .manifest directory, finder => finder.manifestIn fs directory

/-- The looks of a search, one after the other. -/
def trail {α : Type} (fs : FileSystem) : Program looking α → Finder → List Look
  | .done _, _ => []
  | .ask look next, finder =>
    look :: trail fs (next (answerLook fs look finder).1) (answerLook fs look finder).2

/-! ## Searches -/

/-- A search, and another one if it finds nothing. -/
def orElse (first next : Search) : Search :=
  first.bind fun
    | some found => .done (some found)
    | none => next

/-- A search that is made only in a directory. -/
def inDirectory (path : Path) (search : Search) : Search :=
  .ask (.directory path) fun (isDirectory : Bool) =>
    bif isDirectory then search else .done none

/-- The first path that is one of a file. -/
def firstFile : List Path → Search
  | [] => .done none
  | path :: paths =>
    .ask (.file path) fun (isFile : Bool) => bif isFile then .done (some path) else firstFile paths

/-- A search for what a text names, if there is one. -/
def forTarget (search : Path → Search) (directory : Path) : Option String → Search
  | some target => search (directory.join (.ofString target))
  | none => .done none

/-- A level at which a package is looked for: a directory at or above the base, and the name of
a dependency directory in it. -/
structure Level where
  ancestor : Path
  directory : String
  deriving DecidableEq

/-- The path of a package at a level. -/
def Level.package (level : Level) (name : String) : Path :=
  (level.ancestor.join (.ofString level.directory)).join (.ofString name)

/-- The levels above a base, the nearest ancestor first, but none at which a dependency directory
would stand in one of its own name. -/
def levels (config : Config) (base : Path) : List Level :=
  (base.ancestors.flatMap fun ancestor => config.dependencyDirs.map (Level.mk ancestor)).filter
    fun level => level.ancestor.fileName? ≠ some (Bytes.ofText level.directory)

section
variable (config : Config) (conditions : List String)

/-- A path, and the path with each of the extensions. -/
def candidates (path : Path) : List Path :=
  path :: config.extensions.map fun e => path.append e

/-- The search for a file at a path, or at the path with one of the extensions. -/
def fileSearch (path : Path) : Search :=
  firstFile (candidates config path)

/-- The search for the file an entry point names. -/
def entrySearch (target : Path) : Search :=
  orElse (fileSearch config target)
    (inDirectory target (fileSearch config (target.join (.ofString config.indexName))))

/-- The search for the file a directory leads to. -/
def directorySearch (directory : Path) : Search :=
  .ask (.manifest directory) fun (manifest : Option Manifest) =>
    orElse (forTarget (entrySearch config) directory (manifest >>= (·.entryPoint? conditions)))
      (fileSearch config (directory.join (.ofString config.indexName)))

/-- The search for the file a path leads to. -/
def pathSearch (path : Path) : Search :=
  orElse (fileSearch config path) (inDirectory path (directorySearch config conditions path))

/-- The search in a package. -/
def packageSearch (package : Path) (inside : Option String) : Search :=
  .ask (.manifest package) fun (manifest : Option Manifest) =>
    match manifest.filter fun m => m.exports.isSome with
    | some manifest =>
      let subpath := match inside with
        | some inside => "./" ++ inside
        | none => "."
      forTarget (fileSearch config) package (manifest.export? subpath conditions)
    | none =>
      match inside with
      | some inside => pathSearch config conditions (package.join (.ofString inside))
      | none => directorySearch config conditions package

/-- The search for a package that is a single file. -/
def singleSearch (package : Path) : Option String → Search
  | none => fileSearch config package
  | some _ => .done none

/-- The search at one level. -/
def levelSearch (name : String) (inside : Option String) (level : Level) : Search :=
  .ask (.directory (level.package name)) fun (isDirectory : Bool) =>
    bif isDirectory then packageSearch config conditions (level.package name) inside
    else singleSearch config (level.package name) inside

/-- The search at one level after the other, and another one if none of them has the package. -/
def levelsSearch (name : String) (inside : Option String) (otherwise : Search) :
    List Level → Search
  | [] => otherwise
  | level :: levels =>
    .ask (.directory (level.package name)) fun (isDirectory : Bool) =>
      bif isDirectory then packageSearch config conditions (level.package name) inside
      else orElse (singleSearch config (level.package name) inside)
        (levelsSearch name inside otherwise levels)

/-- The search in the search paths. -/
def searchPathsSearch (specifier : String) : List Path → Search
  | [] => .done none
  | place :: places =>
    orElse (pathSearch config conditions (place.join (.ofString specifier)))
      (searchPathsSearch specifier places)

end

/-- The search for the file a bare specifier leads to. -/
def bareSearch (config : Config) (specifier : String) (context : ResolveContext) : Search :=
  levelsSearch config context.conditions (splitPackage specifier).1 (splitPackage specifier).2
    (searchPathsSearch config context.conditions specifier config.searchPaths)
    (levels config context.base)

/-- The search for the file a specifier without a built-in form leads to. -/
def searchFor (config : Config) (specifier : String) (context : ResolveContext) :
    Except ModuleError Search :=
  match url? specifier with
  | some url =>
    if url.scheme ≠ "file" then
      .error (.invalidSpecifier specifier s!"'{url.scheme}:' URLs are only loadable through a hook")
    else match url.localPath with
      | none =>
        .error (.invalidSpecifier specifier "file URL must name a local absolute path")
      | some path => .ok (pathSearch config context.conditions path)
  | none =>
    if isPath specifier then
      .ok (pathSearch config context.conditions (context.base.join (.ofString specifier)))
    else .ok (bareSearch config specifier context)

/-! ## Runs -/

variable {config : Config} {fs : FileSystem} {conditions : List String} {finder : Finder}

theorem trail_bind {α β : Type} (first : Program looking α) (next : α → Program looking β)
    (finder : Finder) : trail fs (first.bind next) finder = trail fs first finder ++
      trail fs (next (first.run (answerLook fs) finder).1) (first.run (answerLook fs) finder).2 := by
  induction first generalizing finder with
  | done result => rfl
  | ask look rest ih => simp only [Program.bind, trail, Program.run, ih, List.cons_append]

theorem run_orElse (first next : Search) (finder : Finder) :
    (orElse first next).run (answerLook fs) finder =
      match first.run (answerLook fs) finder with
      | (some found, later) => (some found, later)
      | (none, later) => next.run (answerLook fs) later := by
  rw [orElse, Program.run_bind]
  cases first.run (answerLook fs) finder with
  | mk answer later => cases answer <;> rfl

theorem trail_orElse (first next : Search) (finder : Finder) :
    trail fs (orElse first next) finder = trail fs first finder ++
      match first.run (answerLook fs) finder with
      | (some _, _) => []
      | (none, later) => trail fs next later := by
  rw [orElse, trail_bind]
  cases first.run (answerLook fs) finder with
  | mk answer later => cases answer <;> rfl

theorem run_firstFile (paths : List Path) (finder : Finder) :
    (firstFile paths).run (answerLook fs) finder = (paths.find? fs.isFile, finder) := by
  induction paths with
  | nil => rfl
  | cons path paths ih =>
      simp only [firstFile, Program.run, answerLook, List.find?_cons]
      cases fs.isFile path with
      | true => rfl
      | false => exact ih

theorem run_fileSearch (path : Path) (finder : Finder) :
    (fileSearch config path).run (answerLook fs) finder = (file? config fs path, finder) :=
  run_firstFile _ finder

theorem run_inDirectory (path : Path) (search : Search) (finder : Finder) :
    (inDirectory path search).run (answerLook fs) finder =
      if fs.isDirectory path then search.run (answerLook fs) finder else (none, finder) := by
  simp only [inDirectory, Program.run, answerLook]
  cases fs.isDirectory path <;> rfl

theorem run_entrySearch (target : Path) (finder : Finder) :
    (entrySearch config target).run (answerLook fs) finder = (entryFile? config fs target, finder) := by
  rw [entrySearch, run_orElse, run_fileSearch, entryFile?]
  cases file? config fs target with
  | some found => rfl
  | none =>
      simp only [run_inDirectory, run_fileSearch]
      split <;> rfl

theorem run_directorySearch (directory : Path) :
    (directorySearch config conditions directory).run (answerLook fs) =
      directory? config fs conditions directory := by
  funext finder
  simp only [directorySearch, Program.run, answerLook, run_orElse, directory?, bind, StateT.bind]
  cases finder.manifestIn fs directory with
  | mk manifest later =>
      dsimp only
      cases manifest.bind (·.entryPoint? conditions) with
      | none =>
          simp only [forTarget, Program.run, run_fileSearch, Option.bind_none]
          rfl
      | some target =>
          simp only [forTarget, run_entrySearch, run_fileSearch, Option.bind_some]
          cases entryFile? config fs (directory.join (.ofString target)) <;> rfl

theorem run_pathSearch (path : Path) :
    (pathSearch config conditions path).run (answerLook fs) = path? config fs conditions path := by
  funext finder
  rw [pathSearch, run_orElse, run_fileSearch, path?]
  cases file? config fs path with
  | some found => rfl
  | none =>
      simp only [run_inDirectory, run_directorySearch]
      split <;> rfl

theorem run_packageSearch (package : Path) (inside : Option String) :
    (packageSearch config conditions package inside).run (answerLook fs) =
      inPackage? config fs conditions package inside := by
  funext finder
  simp only [packageSearch, Program.run, answerLook, inPackage?, bind, StateT.bind]
  cases finder.manifestIn fs package with
  | mk manifest later =>
      dsimp only
      cases manifest.filter fun m => m.exports.isSome with
      | none =>
          cases inside with
          | none => exact congrFun (run_directorySearch package) later
          | some inside => exact congrFun (run_pathSearch _) later
      | some manifest =>
          dsimp only
          cases manifest.export? _ conditions with
          | none => rfl
          | some target => exact run_fileSearch _ later

theorem run_searchPathsSearch (specifier : String) (places : List Path) :
    (searchPathsSearch config conditions specifier places).run (answerLook fs) =
      inSearchPaths? config fs conditions specifier places := by
  induction places with
  | nil => rfl
  | cons place places ih =>
      funext finder
      simp only [searchPathsSearch, run_orElse, run_pathSearch, inSearchPaths?, bind, StateT.bind]
      cases path? config fs conditions (place.join (.ofString specifier)) finder with
      | mk answer later =>
          cases answer with
          | some found => rfl
          | none => exact congrFun ih later

/-- The places where packages are looked for are those of the levels. -/
theorem dependencyPlaces_eq (config : Config) (base : Path) : dependencyPlaces config base =
    (levels config base).map fun level => level.ancestor.join (.ofString level.directory) := by
  rw [dependencyPlaces, levels, List.filter_flatMap, List.map_flatMap]
  refine congrArg (List.flatMap · base.ancestors) (funext fun ancestor => ?_)
  rw [List.filter_map, List.map_map]
  rfl

theorem run_singleSearch (package : Path) (inside : Option String) (finder : Finder) :
    (singleSearch config package inside).run (answerLook fs) finder =
      (if inside.isNone then file? config fs package else none, finder) := by
  cases inside with
  | none => exact run_fileSearch package finder
  | some inside => rfl

theorem run_levelsSearch (name : String) (inside : Option String) (otherwise : Search)
    (levels : List Level) (finder : Finder) :
    (levelsSearch config conditions name inside otherwise levels).run (answerLook fs) finder =
      match inPlaces? config fs conditions name inside
        (levels.map fun level => level.ancestor.join (.ofString level.directory)) finder with
      | (some answer, later) => (answer, later)
      | (none, later) => otherwise.run (answerLook fs) later := by
  induction levels generalizing finder with
  | nil => rfl
  | cons level levels ih =>
      simp only [levelsSearch, Program.run, answerLook, List.map_cons, inPlaces?]
      rw [← Level.package]
      by_cases h : fs.isDirectory (level.package name) = true
      · rw [h, if_pos rfl, cond_true, run_packageSearch]
        rfl
      · rw [Bool.not_eq_true] at h
        rw [h, if_neg Bool.false_ne_true, cond_false, run_orElse, run_singleSearch]
        cases if inside.isNone then file? config fs (level.package name) else none with
        | some found => rfl
        | none => exact ih finder

/-- Look by look the search for a bare specifier comes to what it comes to at once. -/
theorem run_bareSearch (specifier : String) (context : ResolveContext) :
    (bareSearch config specifier context).run (answerLook fs) =
      bare? config fs specifier context := by
  funext finder
  rw [bareSearch, run_levelsSearch, ← dependencyPlaces_eq, run_searchPathsSearch]
  simp only [bare?, bind, StateT.bind]
  cases inPlaces? config fs context.conditions (splitPackage specifier).1
      (splitPackage specifier).2 (dependencyPlaces config context.base) finder with
  | mk answer later => cases answer <;> rfl

/-- And so does the search for any specifier. -/
theorem found?_eq (config : Config) (fs : FileSystem) (specifier : String)
    (context : ResolveContext) (finder : Finder) : found? config fs specifier context finder =
      match searchFor config specifier context with
      | .error e => (.error e, finder)
      | .ok search =>
        (.ok (search.run (answerLook fs) finder).1, (search.run (answerLook fs) finder).2) := by
  unfold found? searchFor
  cases url? specifier with
  | some url =>
      dsimp only
      split
      · rfl
      · cases url.localPath with
        | none => rfl
        | some path =>
            simp only [run_pathSearch]
            rfl
  | none =>
      dsimp only
      split
      · simp only [run_pathSearch]
        rfl
      · simp only [run_bareSearch]
        rfl

/-! ## Where searches end -/

/-- A search that ends at the first file it sees. -/
inductive EndsAtFiles : Search → Prop where
  | nothing : EndsAtFiles (.done none)
  | file {path : Path} {next : Bool → Search} (hthere : next true = .done (some path))
      (hnext : EndsAtFiles (next false)) : EndsAtFiles (.ask (.file path) next)
  | directory {path : Path} {next : Bool → Search} (h : ∀ answer, EndsAtFiles (next answer)) :
      EndsAtFiles (.ask (.directory path) next)
  | manifest {directory : Path} {next : Option Manifest → Search}
      (h : ∀ answer, EndsAtFiles (next answer)) : EndsAtFiles (.ask (.manifest directory) next)

theorem EndsAtFiles.orElse {first next : Search} (h : EndsAtFiles first)
    (hnext : EndsAtFiles next) : EndsAtFiles (orElse first next) := by
  induction h with
  | nothing => exact hnext
  | @file path rest hthere _ ih =>
      refine .file ?_ ih
      rw [hthere]
      rfl
  | directory _ ih => exact .directory ih
  | manifest _ ih => exact .manifest ih

theorem endsAtFiles_firstFile (paths : List Path) : EndsAtFiles (firstFile paths) := by
  induction paths with
  | nil => exact .nothing
  | cons path paths ih => exact .file rfl ih

theorem EndsAtFiles.inDirectory {search : Search} (h : EndsAtFiles search) (path : Path) :
    EndsAtFiles (inDirectory path search) := by
  refine .directory fun answer => ?_
  cases answer with
  | true => exact h
  | false => exact .nothing

theorem EndsAtFiles.forTarget {search : Path → Search} (h : ∀ path, EndsAtFiles (search path))
    (directory : Path) (target : Option String) : EndsAtFiles (forTarget search directory target) := by
  cases target with
  | none => exact .nothing
  | some target => exact h _

section
variable (config : Config) (conditions : List String)

theorem endsAtFiles_fileSearch (path : Path) : EndsAtFiles (fileSearch config path) :=
  endsAtFiles_firstFile _

theorem endsAtFiles_entrySearch (target : Path) : EndsAtFiles (entrySearch config target) :=
  (endsAtFiles_fileSearch config target).orElse
    ((endsAtFiles_fileSearch config _).inDirectory target)

theorem endsAtFiles_directorySearch (directory : Path) :
    EndsAtFiles (directorySearch config conditions directory) :=
  .manifest fun _ => (EndsAtFiles.forTarget (endsAtFiles_entrySearch config) directory _).orElse
    (endsAtFiles_fileSearch config _)

theorem endsAtFiles_pathSearch (path : Path) : EndsAtFiles (pathSearch config conditions path) :=
  (endsAtFiles_fileSearch config path).orElse
    ((endsAtFiles_directorySearch config conditions path).inDirectory path)

theorem endsAtFiles_packageSearch (package : Path) (inside : Option String) :
    EndsAtFiles (packageSearch config conditions package inside) := by
  refine .manifest fun manifest => ?_
  split
  · exact EndsAtFiles.forTarget (endsAtFiles_fileSearch config) package _
  · cases inside with
    | none => exact endsAtFiles_directorySearch config conditions package
    | some inside => exact endsAtFiles_pathSearch config conditions _

theorem endsAtFiles_levelsSearch (name : String) (inside : Option String) {otherwise : Search}
    (h : EndsAtFiles otherwise) (levels : List Level) :
    EndsAtFiles (levelsSearch config conditions name inside otherwise levels) := by
  induction levels with
  | nil => exact h
  | cons level levels ih =>
      refine .directory fun answer => ?_
      cases answer with
      | true => exact endsAtFiles_packageSearch config conditions _ inside
      | false =>
          refine EndsAtFiles.orElse ?_ ih
          cases inside with
          | none => exact endsAtFiles_fileSearch config _
          | some inside => exact .nothing

theorem endsAtFiles_searchPathsSearch (specifier : String) (places : List Path) :
    EndsAtFiles (searchPathsSearch config conditions specifier places) := by
  induction places with
  | nil => exact .nothing
  | cons place places ih => exact (endsAtFiles_pathSearch config conditions _).orElse ih

end

theorem endsAtFiles_bareSearch (config : Config) (specifier : String) (context : ResolveContext) :
    EndsAtFiles (bareSearch config specifier context) :=
  endsAtFiles_levelsSearch config _ _ _ (endsAtFiles_searchPathsSearch config _ specifier _) _

theorem endsAtFiles_of_searchFor {specifier : String} {context : ResolveContext} {search : Search}
    (h : searchFor config specifier context = .ok search) : EndsAtFiles search := by
  unfold searchFor at h
  split at h
  · split at h
    · cases h
    · split at h
      · cases h
      · cases h
        exact endsAtFiles_pathSearch config _ _
  · split at h
    · cases h
      exact endsAtFiles_pathSearch config _ _
    · cases h
      exact endsAtFiles_bareSearch config specifier context

end Resolver

end ScriptModules
