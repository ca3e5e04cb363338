import ScriptModules.Path

/-!
# Configuration

The settings of a module loader and of its compile cache.  A configuration is
valid if every extension begins with a point, the manifest name is not empty and
the cache, if there is one, may hold something.
-/

namespace ScriptModules

/-- The settings of a compile cache. -/
structure CacheConfig where
  /-- Where entries are kept. -/
  directory : Path := .ofString "/home/user/.loadstar/compile-cache"
  /-- Whether fingerprints leave out where a project stands. -/
  portable : Bool := false
  /-- How many bytes entries may take. -/
  sizeLimit : Nat := 64 * 1024 * 1024
  /-- Where the project stands; the working directory if not given. -/
  portableRoot : Option Path := none
  deriving DecidableEq

/-- The settings of a module loader. -/
structure Config where
  /-- Directories searched last for bare specifiers. -/
  searchPaths : List Path := []
  /-- Extensions tried on names of files, in this order. -/
  extensions : List String := [".js", ".mjs", ".cjs", ".json", ".wasm"]
  /-- Extensions of files that are compiled already. -/
  binaryExtensions : List String := [".wasm", ".jsc"]
  /-- Names of the directories that hold packages. -/
  dependencyDirs : List String := ["node_modules"]
  /-- The name of package manifests. -/
  manifestName : String := "package.json"
  /-- The name of the file that stands for a directory, without extension. -/
  indexName : String := "index"
  /-- Whether a module that is loaded already is served again. -/
  enableCache : Bool := true
  /-- How many finished modules are kept. -/
  maxCacheSize : Nat := 1000
  /-- Whether built-in modules can be named with `node:`. -/
  nodeCompat : Bool := true
  /-- Conditions added to those of every request. -/
  conditions : List String := []
  /-- The compile cache, if loaders start with one. -/
  compileCache : Option CacheConfig := none
  deriving DecidableEq

/-- Why a configuration is refused. -/
inductive ConfigFault where
  /-- The text could not be read or written in its format. -/
  | malformed
  | extensionWithoutPoint (extension : String)
  | emptyManifestName
  | zeroSizeLimit
  deriving DecidableEq, Repr

/-- The text of a fault. -/
def ConfigFault.message : ConfigFault → String
  | .malformed => "the document does not describe a configuration"
  | .extensionWithoutPoint extension => s!"extension '{extension}' must start with '.'"
  | .emptyManifestName => "manifest_name cannot be empty"
  | .zeroSizeLimit => "compile_cache.size_limit must be greater than zero"

namespace Config

/-- Whether an extension is written with its point. -/
def hasPoint (extension : String) : Bool :=
  extension.toList.head? == some '.'

/-- The first fault of a configuration. -/
def fault? (config : Config) : Option ConfigFault :=
  match (config.extensions ++ config.binaryExtensions).find? fun e => !hasPoint e with
  | some extension => some (.extensionWithoutPoint extension)
  | none =>
    if config.manifestName = "" then some .emptyManifestName
    else if config.compileCache.any fun cache => cache.sizeLimit == 0 then some .zeroSizeLimit
    else none

/-- Whether a file with this name is compiled already.  The extension of the name
is compared with each binary extension without its points at the front. -/
def isBinary (config : Config) (path : Path) : Bool :=
  path.extension?.any fun extension =>
    config.binaryExtensions.any fun b => (Bytes.ofText b).dropWhile (· == Path.point) == extension

end Config

end ScriptModules
