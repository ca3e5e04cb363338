import ScriptModules.Config.Format
import ScriptModules.Loader.Request

/-!
# Loaders

A loader owns a resolver, a chain of hooks, the registry of modules, the built-in
modules and maybe a compile cache.  What it works on — files, tables of exports and
the state of the embedder — may be shared with other loaders and is kept apart from
it, as its *surroundings*.

Here are the operations that are done at once.  Loading modules, which runs
programs, follows in `ScriptModules.Loader.Machine`.
-/

namespace ScriptModules

/-- A module loader.  Its hooks are known by names of type `H`. -/
structure Loader (H : Type) where
  config : Config
  resolver : Resolver
  hooks : HookChain H := {}
  registry : Registry
  /-- The compile cache, if it is enabled. -/
  cache : Option Cache
  /-- The exports of built-in modules. -/
  builtins : List (String × Handle) := []
  /-- Whether an entry module has been asked for. -/
  mainLoaded : Bool := false
  /-- How many bodies are running. -/
  executing : Nat := 0

/-- What a loader works on.  The state of the embedder is of type `σ`. -/
structure Surroundings (σ : Type) where
  files : FileSystem
  exports : ExportTables
  state : σ

/-- A loader in its surroundings. -/
structure Session (σ H : Type) extends Surroundings σ where
  loader : Loader H

variable {σ H : Type}

/-- The configuration in a file. -/
def Config.ofFile (files : FileSystem) (path : Path) : Except ModuleError Config :=
  match files.readText path with
  | .error cause => .error (.io path cause)
  | .ok text => (Config.ofToml text).mapError .config

namespace Loader

/-! ## Opening and closing -/

/-- Makes a loader.  Its compile cache is opened if it is to have one. -/
def openWith (config : Config) (files : FileSystem) : Except ModuleError (Loader H) × FileSystem :=
  let loader (cache : Option Cache) : Loader H :=
    { config, resolver := .ofConfig config, registry := { maxSize := config.maxCacheSize }, cache }
  match config.fault? with
  | some fault => (.error (.config fault), files)
  | none =>
    match config.compileCache with
    | none => (.ok (loader none), files)
    | some cacheConfig =>
      match Cache.openAt cacheConfig files with
      | (.ok cache, files) => (.ok (loader (some cache)), files)
      | (.error e, files) => (.error (.cache e), files)

/-- Closes a loader: its compile cache writes its index if that can be done. -/
def close (loader : Loader H) (files : FileSystem) : FileSystem :=
  match loader.cache with
  | some cache => cache.close files
  | none => files

/-! ## Contexts -/

/-- The conditions of a request: the one for its kind, then the configured ones. -/
def conditions (loader : Loader H) (condition : String) : List String :=
  condition :: loader.config.conditions

/-- Provides a module under a name. -/
def defineBuiltin (loader : Loader H) (name : String) (exports : Handle) : Loader H :=
  { loader with
    resolver := loader.resolver.addBuiltin name
    builtins := (name, exports) :: loader.builtins.filter (·.1 ≠ name) }

/-- Every counter. -/
def statistics (loader : Loader H) (exports : ExportTables) : Statistics :=
  let registry := loader.registry
  { loads := registry.loads
    successRate := percentage registry.loads.success registry.loads.total
    hitRate := percentage registry.hits (registry.hits + registry.misses)
    weight := registry.weight exports
    registry := registry.stats
    cache := loader.cache.map Cache.stats
    hooks := loader.hooks.stats
    settings := {
      cacheEnabled := loader.config.enableCache
      nodeCompatEnabled := loader.config.nodeCompat
      maxCacheSize := loader.config.maxCacheSize } }

/-! ## Loading without hooks -/

/-- The local path a URL names: that of a file URL, or the URL itself. -/
def pathOfUrl (url : String) : Path :=
  match Url.parse? url with
  | some parsed => if parsed.scheme = "file" then parsed.localPath.getD ⟨[]⟩ else .ofString url
  | none => .ofString url

/-- Loads a module without hooks: a built-in module has no contents, any other is a
file. -/
def loadDefault (config : Config) (files : FileSystem) (url : String) (context : LoadContext) :
    Except ModuleError LoadOutput :=
  if (textAfter? builtinPrefix url).isSome then .ok ⟨.virtual, none, false⟩
  else
    let path := pathOfUrl url
    if !path.isAbsolute then .error (.invalidSpecifier url "no load hook handled this URL")
    else match files.read path with
      | .error cause => .error (.io path cause)
      | .ok source =>
        let format := (context.format.filter (· != .virtual)).getD (Resolver.formatOf config path)
        .ok ⟨format, some source, false⟩

end Loader

namespace Session

/-! ## Operations -/

/-- Opens a compile cache unless there is one already. -/
def enableCacheWith (config : CacheConfig) (session : Session σ H) :
    Except ModuleError CacheActivation × Session σ H :=
  match session.loader.cache with
  | some cache => (.ok ⟨true, cache.directory, cache.isPortable⟩, session)
  | none =>
    match Cache.openAt config session.files with
    | (.error e, files) => (.error (.cache e), { session with files })
    | (.ok cache, files) =>
      (.ok ⟨false, cache.directory, cache.isPortable⟩,
        { session with files, loader.cache := some cache })

/-- Opens a compile cache with the configured settings, save two. -/
def enableCache (directory : Option Path) (portable : Bool) (session : Session σ H) :
    Except ModuleError CacheActivation × Session σ H :=
  let config := session.loader.config.compileCache.getD {}
  session.enableCacheWith { config with directory := directory.getD config.directory, portable }

/-- Deletes every entry of the compile cache; counts them. -/
def clearCache (session : Session σ H) : Nat × Session σ H :=
  match session.loader.cache with
  | none => (0, session)
  | some cache =>
    let (count, cache, files) := cache.clear session.files
    (count, { session with files, loader.cache := some cache })

/-- Writes the index of the compile cache. -/
def flush (session : Session σ H) : Except ModuleError Unit × Session σ H :=
  match session.loader.cache with
  | none => (.ok (), session)
  | some cache =>
    let (result, cache, files) := cache.flush session.files
    (result.mapError .cache, { session with files, loader.cache := some cache })

/-- Does an operation. -/
def perform (session : Session σ H) : (operation : Operation σ H) → operation.Answer × Session σ H
  | .readState => (session.state, session)
  | .writeState state => ((), { session with state })
  | .makeExports bindings =>
    let (handle, exports) := session.exports.make bindings
    (handle, { session with exports })
  | .readExports handle => (session.exports.bindings handle, session)
  | .writeExport handle name value =>
    ((), { session with exports := session.exports.set handle name value })
  | .defineBuiltin name handle =>
    ((), { session with loader := session.loader.defineBuiltin name handle })
  | .register options =>
    match session.loader.hooks.register options with
    | .ok (registration, hooks) => (.ok registration, { session with loader.hooks := hooks })
    | .error e => (.error e, session)
  | .moduleState id => ((session.loader.registry.find? id).map (·.state), session)
  | .dependencies id =>
    (((session.loader.registry.find? id).map (·.dependencies)).getD [], session)
  | .statistics => (session.loader.statistics session.exports, session)
  | .clearModules =>
    let (count, registry) := session.loader.registry.clear
    (count, { session with loader.registry := registry })
  | .clearCache => session.clearCache
  | .cacheStats => (session.loader.cache.map Cache.stats, session)
  | .enableCache directory portable => session.enableCache directory portable
  | .enableCacheWith config => session.enableCacheWith config
  | .flush => session.flush
  | .config => (session.loader.config, session)
  | .findManifest path base =>
    let (found, resolver) := session.loader.resolver.findManifest session.files (base.join path)
    (found, { session with loader.resolver := resolver })

end Session

end ScriptModules
