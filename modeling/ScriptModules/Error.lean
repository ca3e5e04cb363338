import ScriptModules.Config.Basic
import ScriptModules.Files.Basic
import ScriptModules.Format

/-!
# Errors

What can go wrong when a module is loaded.  Code of the embedder — hooks and
module bodies — fails with a *failure* of its own, which may say something, add
a context to another failure, or pass an error of the loader on.

When a hook fails, an error of the loader that it only passed on comes back as it
was, however many contexts were put around it (`ModuleError.ofHook`).
-/

namespace ScriptModules

/-- What failed in a compile cache. -/
inductive CacheError where
  /-- An operation on a file. -/
  | io (path : Path) (cause : IoError)
  /-- Making a temporary file beside a file. -/
  | temporary (path : Path) (cause : IoError)
  deriving DecidableEq, Repr

/-- The text of an error of a cache. -/
def CacheError.message : CacheError → String
  | .io path cause => s!"Compile cache IO error on {path}: {cause.message}"
  | .temporary path cause => s!"Compile cache IO error on {path}: {cause.message}"

/-- What caused an error of a cache. -/
def CacheError.chain : CacheError → List String
  | .io _ cause => [cause.message]
  | .temporary _ cause => [cause.message]

/-- The two phases in which hooks are called. -/
inductive Phase where
  | resolve
  | load
  deriving DecidableEq, Repr

/-- The name of a phase. -/
def Phase.name : Phase → String
  | .resolve => "resolve"
  | .load => "load"

mutual

/-- Why a module was not loaded. -/
inductive ModuleError where
  /-- No file was found. -/
  | notFound (specifier base : String)
  /-- The specifier cannot be resolved at all. -/
  | invalidSpecifier (specifier reason : String)
  /-- A registration of hooks had nothing to register. -/
  | invalidHookOptions (message : String)
  /-- A hook failed. -/
  | hook (failure : Failure)
  /-- A hook neither went on nor said that it need not. -/
  | missingShortCircuit (phase : Phase) (hook : Nat)
  /-- The source was not compiled. -/
  | compile (id : String) (error : CompileError)
  /-- The body of the module failed. -/
  | execution (id : String) (failure : Failure)
  /-- The file was not read. -/
  | io (path : Path) (cause : IoError)
  /-- The module is being loaded already. -/
  | loadInProgress (id : String)
  /-- A hook deferred its reply, but the load cannot wait. -/
  | deferred (url : String)
  /-- The compile cache could not be opened or written. -/
  | cache (error : CacheError)
  /-- The configuration is not valid. -/
  | config (fault : ConfigFault)

/-- Why code of the embedder failed. -/
inductive Failure where
  | message (text : String)
  | context (text : String) (cause : Failure)
  | loader (error : ModuleError)

end

/-- Why a registration without hooks is refused. -/
def noHookOptions : String := "register_hooks requires an options object"

/-- Why a registration of neither kind of hook is refused. -/
def noHooks : String := "register_hooks requires at least resolve or load function"

mutual

/-- The text of an error. -/
def ModuleError.message : ModuleError → String
  | .notFound specifier base => s!"Module not found: {specifier} (from {base})"
  | .invalidSpecifier specifier reason => s!"Invalid module specifier '{specifier}': {reason}"
  | .invalidHookOptions message => s!"TypeError: {message}"
  | .hook failure => failure.text
  | .missingShortCircuit phase hook =>
    s!"{phase.name} hook #{hook} returned without calling next() and without short_circuit"
  | .compile id error => s!"Compile error in module {id}: {error.text}"
  | .execution id failure => s!"Error executing module {id}: {failure.text}"
  | .io path cause => s!"IO error reading module {path}: {cause.message}"
  | .loadInProgress id => s!"Module {id} is still being loaded"
  | .deferred url =>
    s!"Load hook for {url} returned a pending result during a synchronous load"
  | .cache error => error.message
  | .config fault => s!"Configuration error: {fault.message}"

/-- The text of a failure: its outermost part. -/
def Failure.text : Failure → String
  | .message text => text
  | .context text _ => text
  | .loader error => error.message

end

mutual

/-- The texts of what caused an error, outermost first. -/
def ModuleError.chain : ModuleError → List String
  | .hook failure => failure.parts.drop 1
  | .compile _ error => [error.text]
  | .execution _ failure => failure.parts
  | .io _ cause => [cause.message]
  | .cache error => error.chain
  | _ => []

/-- The texts of a failure and of what caused it. -/
def Failure.parts : Failure → List String
  | .message text => [text]
  | .context text cause => text :: cause.parts
  | .loader error => error.message :: error.chain

end

/-- The name of the kind of an error. -/
def ModuleError.name : ModuleError → String
  | .notFound .. => "ModuleNotFound"
  | .invalidSpecifier .. => "InvalidSpecifier"
  | .invalidHookOptions _ => "InvalidHookOptions"
  | .hook _ => "Hook"
  | .missingShortCircuit .. => "MissingShortCircuit"
  | .compile .. => "Compile"
  | .execution .. => "Execution"
  | .io .. => "IoError"
  | .loadInProgress _ => "LoadInProgress"
  | .deferred _ => "AsyncHookInSyncLoad"
  | .cache _ => "Cache.Io"
  | .config _ => "Config"

/-- The error of the loader at the bottom of a failure, if there is one. -/
def Failure.loaderError? : Failure → Option ModuleError
  | .message _ => none
  | .context _ cause => cause.loaderError?
  | .loader error => some error

/-- The error a failing hook leads to. -/
def ModuleError.ofHook (failure : Failure) : ModuleError :=
  failure.loaderError?.getD (.hook failure)

end ScriptModules
