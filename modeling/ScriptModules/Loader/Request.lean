import ScriptModules.Program
import ScriptModules.Statistics

/-!
# What can be asked of a loader

The embedder asks things of a loader, and so does every program the loader runs:
a hook, the compiler and a module may all call back.  Most requests are
*operations*, done at once and as a whole.  Three are not, for they run programs
themselves: to resolve a specifier, to require a module and to reload one.

Besides the loader, programs have the tables of exports and a state of their own,
of some type `σ`, which the loader never looks at.
-/

namespace ScriptModules

/-- What enabling the compile cache came to. -/
structure CacheActivation where
  /-- Whether a cache was enabled before, which then stays as it is. -/
  already : Bool
  directory : Path
  portable : Bool
  deriving DecidableEq

/-- What is said about it. -/
def CacheActivation.message (activation : CacheActivation) : String :=
  if activation.already then "Compile cache already enabled" else "Compile cache enabled"

/-- A request that is done at once. -/
inductive Operation (σ H : Type) where
  /-- Read the state of the embedder. -/
  | readState
  /-- Replace the state of the embedder. -/
  | writeState (state : σ)
  /-- Make a table of exports. -/
  | makeExports (bindings : Bindings)
  /-- Read a table of exports. -/
  | readExports (exports : Handle)
  /-- Define or replace a binding in a table of exports. -/
  | writeExport (exports : Handle) (name : String) (value : Json)
  /-- Provide a module under a name. -/
  | defineBuiltin (name : String) (exports : Handle)
  /-- Register hooks. -/
  | register (options : Option (HookOptions H))
  /-- The state of the module with a canonical id. -/
  | moduleState (id : String)
  /-- The ids of the modules it required. -/
  | dependencies (id : String)
  | statistics
  /-- Forget every finished module. -/
  | clearModules
  /-- Delete every entry of the compile cache. -/
  | clearCache
  /-- The counters of the compile cache. -/
  | cacheStats
  /-- Open a compile cache, in the configured directory unless another is given. -/
  | enableCache (directory : Option Path) (portable : Bool)
  /-- Open a compile cache with settings of its own. -/
  | enableCacheWith (config : CacheConfig)
  /-- Write the index of the compile cache. -/
  | flush
  | config
  /-- The nearest manifest of a path. -/
  | findManifest (path base : Path)

/-- The kind of answer to an operation. -/
def Operation.Answer {σ H : Type} : Operation σ H → Type
  | .readState => σ
  | .writeState _ => Unit
  | .makeExports _ => Handle
  | .readExports _ => Bindings
  | .writeExport .. => Unit
  | .defineBuiltin .. => Unit
  | .register _ => Except ModuleError (Registration H)
  | .moduleState _ => Option ModuleState
  | .dependencies _ => List String
  | .statistics => Statistics
  | .clearModules => Nat
  | .clearCache => Nat
  | .cacheStats => Option CacheStats
  | .enableCache .. => Except ModuleError CacheActivation
  | .enableCacheWith _ => Except ModuleError CacheActivation
  | .flush => Except ModuleError Unit
  | .config => Config
  | .findManifest .. => Option Path

/-- A module that was loaded: its canonical id and its exports. -/
abbrev LoadedModule := String × Handle

/-- A request to a loader. -/
inductive Request (σ H : Type) where
  | operation (operation : Operation σ H)
  /-- Resolve a specifier as seen from a directory. -/
  | resolve (specifier : String) (base : Path)
  /-- Load a module without waiting. -/
  | require (specifier : String) (base : Path)
  /-- Load a module anew. -/
  | reload (specifier : String) (base : Path)

/-- The kind of answer to a request. -/
def Request.Answer {σ H : Type} : Request σ H → Type
  | .operation op => op.Answer
  | .resolve .. => Except ModuleError Resolution
  | .require .. => Except ModuleError LoadedModule
  | .reload .. => ReloadResult

/-- What every program may ask for. -/
abbrev loaderInterface (σ H : Type) : Interface :=
  ⟨Request σ H, Request.Answer⟩

end ScriptModules
