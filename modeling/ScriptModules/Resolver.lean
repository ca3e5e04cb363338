import ScriptModules.Error
import ScriptModules.Package.Finder
import ScriptModules.Url.Basic

/-!
# Resolving specifiers

A *specifier* is what a module says to name another one.  Resolving turns it into
a canonical id: `builtin:` and a name for a module the host provides, or the real
path of a file.  The rules, in this order:

* a built-in form: `builtin:name`, `node:name`, or a bare name that is built in;
* a URL, which has to name a local file;
* a path: absolute, or beginning with a point and relative to the base;
* a *bare* specifier: the name of a package, and maybe a path inside it.

A path is tried as a file, with each extension, and as a directory.  A directory
leads to the entry point of its manifest, else to its index file.

A package is looked for in the dependency directories from the base upward.  The
first directory with its name decides.  If its manifest has an `exports` field,
nothing else in it can be reached.
-/

namespace ScriptModules

/-- What is known of a request when its specifier is resolved. -/
structure ResolveContext where
  /-- The specifier as first requested. -/
  specifier : String
  /-- The directory of the module that makes the request. -/
  base : Path
  /-- The conditions for conditional exports. -/
  conditions : List String
  /-- Whether this is the entry module of the program. -/
  isMain : Bool
  deriving DecidableEq

/-- What a specifier resolves to. -/
structure Resolution where
  /-- The canonical id. -/
  url : String
  /-- The format, if it is known. -/
  format : Option ModuleFormat
  /-- Whether a hook decided without going on. -/
  shortCircuit : Bool := false
  deriving DecidableEq

/-- What the ids of built-in modules begin with. -/
def builtinPrefix : String := "builtin:"

/-- The other form of built-in modules. -/
def nodePrefix : String := "node:"

/-- A text without something at its front. -/
def textAfter? (front text : String) : Option String :=
  if front.toList.isPrefixOf text.toList then
    some (String.ofList (text.toList.drop front.length))
  else none

/-- The resolver of a loader. -/
structure Resolver where
  config : Config
  /-- The search for manifests. -/
  manifests : Package.Finder
  /-- The names of built-in modules. -/
  builtins : List String := []

namespace Resolver

/-- A resolver that has seen nothing. -/
def ofConfig (config : Config) : Resolver :=
  { config, manifests := .ofName config.manifestName }

/-! ## Built-in modules -/

/-- Makes a name resolvable as a built-in module. -/
def addBuiltin (resolver : Resolver) (name : String) : Resolver :=
  if resolver.builtins.contains name then resolver
  else { resolver with builtins := name :: resolver.builtins }

/-- The name a specifier gives to a built-in module, if it has a built-in form. -/
def builtinName? (resolver : Resolver) (specifier : String) : Option String :=
  match textAfter? builtinPrefix specifier with
  | some name => some name
  | none =>
    match if resolver.config.nodeCompat then textAfter? nodePrefix specifier else none with
    | some name => some name
    | none => if resolver.builtins.contains specifier then some specifier else none

/-! ## Files and directories -/

/-- A file at a path, or at the path with one of the extensions. -/
def file? (config : Config) (fs : FileSystem) (path : Path) : Option Path :=
  (path :: config.extensions.map fun e => path.append e).find? fs.isFile

/-- The file an entry point names. -/
def entryFile? (config : Config) (fs : FileSystem) (target : Path) : Option Path :=
  match file? config fs target with
  | some path => some path
  | none =>
    if fs.isDirectory target then file? config fs (target.join (.ofString config.indexName))
    else none

/-- The file a directory leads to. -/
def directory? (config : Config) (fs : FileSystem) (conditions : List String) (directory : Path) :
    StateM Package.Finder (Option Path) := do
  let manifest ← (·.manifestIn fs directory)
  let entry := manifest >>= fun m => m.entryPoint? conditions
  match entry >>= fun target => entryFile? config fs (directory.join (.ofString target)) with
  | some path => return some path
  | none => return file? config fs (directory.join (.ofString config.indexName))

/-- The file a path leads to. -/
def path? (config : Config) (fs : FileSystem) (conditions : List String) (path : Path) :
    StateM Package.Finder (Option Path) := do
  match file? config fs path with
  | some found => return some found
  | none =>
    if fs.isDirectory path then directory? config fs conditions path else return none

/-! ## Packages -/

/-- Splits a bare specifier into the name of a package, which has two parts if it
begins with `@`, and a path inside the package. -/
def splitPackage (specifier : String) : String × Option String :=
  let chars := specifier.toList
  let first := chars.takeWhile (· != '/')
  let name :=
    if chars.head? = some '@' then
      match chars.drop first.length with
      | slash :: rest => first ++ slash :: rest.takeWhile (· != '/')
      | [] => first
    else first
  let inside := chars.drop (name.length + 1)
  (String.ofList name, if inside = [] then none else some (String.ofList inside))

/-- The directories in which packages are looked for, nearest first: each dependency
directory in each directory from the base upward, but none inside one of its own
name. -/
def dependencyPlaces (config : Config) (base : Path) : List Path :=
  base.ancestors.flatMap fun ancestor =>
    (config.dependencyDirs.filter fun name => ancestor.fileName? ≠ some (Bytes.ofText name)).map
      fun name => ancestor.join (.ofString name)

/-- The file a package gives for a path inside it. -/
def inPackage? (config : Config) (fs : FileSystem) (conditions : List String)
    (package : Path) (inside : Option String) : StateM Package.Finder (Option Path) := do
  let manifest ← (·.manifestIn fs package)
  match manifest.filter fun m => m.exports.isSome with
  | some manifest =>
    let subpath := match inside with
      | some inside => "./" ++ inside
      | none => "."
    return manifest.export? subpath conditions >>= fun target =>
      file? config fs (package.join (.ofString target))
  | none =>
    match inside with
    | some inside => path? config fs conditions (package.join (.ofString inside))
    | none => directory? config fs conditions package

/-- Looks for a package in places in turn.  The answer of the first place that has
it counts, even if it is that there is no such file. -/
def inPlaces? (config : Config) (fs : FileSystem) (conditions : List String)
    (name : String) (inside : Option String) :
    List Path → StateM Package.Finder (Option (Option Path))
  | [] => return none
  | place :: places => do
    let package := place.join (.ofString name)
    if fs.isDirectory package then
      return some (← inPackage? config fs conditions package inside)
    else
      match if inside.isNone then file? config fs package else none with
      | some found => return some (some found)
      | none => inPlaces? config fs conditions name inside places

/-- Looks for a path in the search paths in turn. -/
def inSearchPaths? (config : Config) (fs : FileSystem) (conditions : List String)
    (specifier : String) : List Path → StateM Package.Finder (Option Path)
  | [] => return none
  | place :: places => do
    match ← path? config fs conditions (place.join (.ofString specifier)) with
    | some found => return some found
    | none => inSearchPaths? config fs conditions specifier places

/-- The file a bare specifier leads to. -/
def bare? (config : Config) (fs : FileSystem) (specifier : String) (context : ResolveContext) :
    StateM Package.Finder (Option Path) := do
  let (name, inside) := splitPackage specifier
  match ← inPlaces? config fs context.conditions name inside (dependencyPlaces config context.base) with
  | some answer => return answer
  | none => inSearchPaths? config fs context.conditions specifier config.searchPaths

/-! ## Specifiers -/

/-- Why no module can have this specifier. -/
def flaw? (specifier : String) : Option String :=
  if specifier = "" then some "specifier is empty"
  else if specifier.toList.contains '\x00' then some "specifier contains a null byte"
  else none

/-- Whether a specifier is a path. -/
def isPath (specifier : String) : Bool :=
  specifier == "." || specifier == ".." || ['.', '/'].isPrefixOf specifier.toList ||
    ['.', '.', '/'].isPrefixOf specifier.toList || (Path.ofString specifier).isAbsolute

/-- The URL a specifier is.  A scheme of one letter is a drive. -/
def url? (specifier : String) : Option Url :=
  (Url.parse? specifier).filter fun url => 2 ≤ url.scheme.length

/-- A path without points, as far as that can be told from its spelling. -/
def cleaned (path : Path) : Path :=
  path.components.foldl (fun done component =>
    match component with
    | .root => ⟨[Path.slash]⟩
    | .current => done
    | .parent => done.parent?.getD done
    | .normal name => done.join ⟨name⟩) ⟨[]⟩

/-- The canonical form of a path that was found. -/
def canonical (fs : FileSystem) (path : Path) : Path :=
  match fs.realPath path with
  | .ok real => real
  | .error _ => cleaned path

/-- The format of a file, by its name. -/
def formatOf (config : Config) (path : Path) : ModuleFormat :=
  if config.isBinary path then .binary else .script

/-- The error for a specifier that leads to nothing. -/
def notFound (specifier : String) (context : ResolveContext) : ModuleError :=
  .notFound specifier context.base.toString

/-- The file a specifier without a built-in form leads to. -/
def found? (config : Config) (fs : FileSystem) (specifier : String) (context : ResolveContext) :
    StateM Package.Finder (Except ModuleError (Option Path)) := do
  match url? specifier with
  | some url =>
    if url.scheme ≠ "file" then
      return .error (.invalidSpecifier specifier s!"'{url.scheme}:' URLs are only loadable through a hook")
    else match url.localPath with
      | none =>
        return .error (.invalidSpecifier specifier "file URL must name a local absolute path")
      | some path => return .ok (← path? config fs context.conditions path)
  | none =>
    if isPath specifier then
      return .ok (← path? config fs context.conditions (context.base.join (.ofString specifier)))
    else return .ok (← bare? config fs specifier context)

/-- Resolves a specifier. -/
def resolve (resolver : Resolver) (fs : FileSystem) (specifier : String) (context : ResolveContext) :
    Except ModuleError Resolution × Resolver :=
  match flaw? specifier with
  | some reason => (.error (.invalidSpecifier specifier reason), resolver)
  | none =>
    match resolver.builtinName? specifier with
    | some name =>
      if resolver.builtins.contains name then
        (.ok ⟨builtinPrefix ++ name, some .virtual, false⟩, resolver)
      else (.error (notFound specifier context), resolver)
    | none =>
      let (answer, manifests) := found? resolver.config fs specifier context resolver.manifests
      let resolver := { resolver with manifests }
      match answer with
      | .error e => (.error e, resolver)
      | .ok none => (.error (notFound specifier context), resolver)
      | .ok (some path) =>
        let path := canonical fs path
        (.ok ⟨path.toString, some (formatOf resolver.config path), false⟩, resolver)

/-! ## Kinds and manifests -/

/-- The module system of a script: by its extension, else by the nearest manifest. -/
def kindOf (resolver : Resolver) (fs : FileSystem) (path : Path) : ModuleKind × Resolver :=
  if path.extension? = some (Bytes.ofText "mjs") then (.esm, resolver)
  else if path.extension? = some (Bytes.ofText "cjs") then (.commonJs, resolver)
  else
    let (nearest, manifests) := resolver.manifests.nearest fs path
    let isModule := nearest.any fun (_, manifest) => manifest.moduleType == .module
    (if isModule then .esm else .commonJs, { resolver with manifests })

/-- The nearest manifest of a file or directory. -/
def findManifest (resolver : Resolver) (fs : FileSystem) (path : Path) : Option Path × Resolver :=
  let (answer, manifests) := resolver.manifests.find fs path
  (answer, { resolver with manifests })

/-- Forgets what was found out about manifests. -/
def clearManifests (resolver : Resolver) : Resolver :=
  { resolver with manifests := resolver.manifests.clear }

end Resolver

end ScriptModules
