import ScriptModules.Loader.Basic
import ScriptModules.Loader.Frame

/-!
# Loading modules

How a loader works off requests, step by step.  Each `step` either answers one
request of the innermost program or hands a value to the innermost frame.  Between
any two steps the loader is in a definite state, also while programs call back and
loads are nested in each other.

A request to load counts as started at once.  It resolves the specifier, and then
the registry decides: a finished module is served again, one whose body is running
is given out as it is, one that is being loaded otherwise is refused.  Else a record
is made, and the load goes on through its frames.  Wherever it fails, the record is
marked as failed with the text of the error.

An import can be suspended: when the work it awaits pauses, the steps end with what
is left to do.
-/

namespace ScriptModules

variable {σ H : Type} {k m n : Kind}

namespace Session

/-- Changes the registry. -/
def withRegistry (session : Session σ H) (change : Registry → Registry) : Session σ H :=
  { session with loader.registry := change session.loader.registry }

/-! ## What the registry decides -/

/-- The exports of a module that need not be loaded, or why it cannot be. -/
def servedExports (key : String) (session : Session σ H) :
    Except ModuleError (Option Handle) × Session σ H :=
  let registry := session.loader.registry
  match registry.lookup? key, registry.find? key with
  | some id, some record =>
    match record.state with
    | .complete =>
      if session.loader.config.enableCache then
        match record.exports with
        | some exports =>
          (.ok (some exports), session.withRegistry fun registry => registry.countHit.touch id)
        | none => (.ok none, session)
      else (.ok none, session)
    | .executing => (.ok record.exports, session)
    | .errored => (.ok none, session)
    | _ => (.error (.loadInProgress key), session)
  | _, _ => (.ok none, session)

/-- Makes the record of a load. -/
def beginLoad (key : String) (format : Option ModuleFormat) (base : Path)
    (session : Session σ H) : Load × Session σ H :=
  let (id, registry) := session.loader.registry.countMiss.insert key (format.getD .script)
  let registry := (registry.advance id .resolving).2
  let path := Path.ofString key
  let base := if path.isAbsolute then path.parent?.getD base else base
  (⟨id, key, base⟩, { session with loader.registry := registry })

/-! ## Starting programs -/

/-- Asks the resolve hooks. -/
def resolveWork (host : Host σ H) (specifier : String) (context : ResolveContext)
    (session : Session σ H) : Work σ H (Except ModuleError Resolution) × Session σ H :=
  let (hooks, chain) := session.loader.hooks.resolveHooks
  (dispatchResolve host.resolve hooks resolveDirectly specifier context,
    { session with loader.hooks := chain })

/-- Asks the load hooks. -/
def loadWork (host : Host σ H) (url : String) (context : LoadContext)
    (session : Session σ H) : Work σ H (LoadReply σ H) × Session σ H :=
  let (hooks, chain) := session.loader.hooks.loadHooks
  (dispatchLoad host.load hooks loadDirectly url context, { session with loader.hooks := chain })

/-- Starts to resolve a specifier that is not asked for by a load. -/
def startResolve (host : Host σ H) (specifier : String) (base : Path)
    (stack : Stack σ H .resolution n) (session : Session σ H) : Focus σ H n × Session σ H :=
  let context := ⟨specifier, base, session.loader.conditions LoadMode.immediate.name, false⟩
  let (work, session) := session.resolveWork host specifier context
  (⟨.resolution, work, stack⟩, session)

/-- Starts a load.  The first one that no body asks for is that of the entry
module. -/
def startLoad (host : Host σ H) (mode : LoadMode) (specifier : String) (base : Path)
    (stack : Stack σ H .module n) (session : Session σ H) : Focus σ H n × Session σ H :=
  let session := session.withRegistry Registry.countStarted
  let isMain := session.loader.executing == 0 && !session.loader.mainLoaded
  let session := { session with loader.mainLoaded := session.loader.mainLoaded || isMain }
  let conditions := session.loader.conditions mode.name
  let (work, session) := session.resolveWork host specifier ⟨specifier, base, conditions, isMain⟩
  let order := ⟨mode, specifier, base, conditions, isMain⟩
  (⟨.resolution, work, .cons (.resolving order) (.cons .counting stack)⟩, session)

/-- Starts a reload. -/
def startReload (host : Host σ H) (specifier : String) (base : Path)
    (stack : Stack σ H .reload n) (session : Session σ H) : Focus σ H n × Session σ H :=
  session.startResolve host specifier base
    (.cons (.reloading ⟨specifier, base, session.loader.registry.loads⟩) stack)

/-! ## Carrying on a load -/

/-- Goes on with the outcome of a load. -/
def give (result : Except ModuleError LoadedModule) (stack : Stack σ H .module n)
    (session : Session σ H) : Focus σ H n × Session σ H :=
  (⟨.module, .done result, stack⟩, session)

/-- Ends a load that failed. -/
def failLoad (load : Load) (e : ModuleError) (stack : Stack σ H .module n)
    (session : Session σ H) : Focus σ H n × Session σ H :=
  give (.error e) stack (session.withRegistry fun registry => registry.fail load.id e.message)

/-- Starts the body of a module. -/
def startBody (host : Host σ H) (load : Load) (bytecode : Bytes)
    (fingerprint : Option Fingerprint) (sourceLength : Nat) (stack : Stack σ H .module n)
    (session : Session σ H) : Focus σ H n × Session σ H :=
  let registry := session.loader.registry.setCompiled load.id fingerprint sourceLength
  let (begun, registry, exports) := registry.beginExecution session.exports load.id
  let (handle, exports) := match begun with
    | some handle => (handle, exports)
    | none => exports.make []
  let executing := session.loader.executing + 1
  let work := Work.ofBody load.base (host.execute bytecode load.key handle)
  (⟨.execution, work, .cons (.executing load handle) stack⟩,
    { session with exports, loader.registry := registry, loader.executing := executing })

/-- Starts to compile a source, unless the compile cache has its bytecode. -/
def startCompiler (host : Host σ H) (load : Load) (source : Bytes) (stack : Stack σ H .module n)
    (session : Session σ H) : Focus σ H n × Session σ H :=
  let path := Path.ofString load.key
  let (kind, resolver) :=
    if path.isAbsolute then session.loader.resolver.kindOf session.files path
    else (.commonJs, session.loader.resolver)
  let session := { session with loader.resolver := resolver }
  let options := CompileOptions.ofKind kind
  let work := Work.ofProgram (host.compile source options)
  let compile (fingerprint : Option Fingerprint) (session : Session σ H) :
      Focus σ H n × Session σ H :=
    (⟨.bytecode, work, .cons (.compiling load source fingerprint) stack⟩, session)
  match session.loader.cache with
  | none => compile none session
  | some cache =>
    let fingerprint := cache.fingerprintOf source host.engine options
    let (found, cache, files) := cache.lookup session.files fingerprint host.engine
    let session := { session with files, loader.cache := some cache }
    match found with
    | some bytecode => startBody host load bytecode (some fingerprint) source.length stack session
    | none => compile (some fingerprint) session

/-- Ends the load of a built-in module. -/
def finishBuiltin (load : Load) (stack : Stack σ H .module n) (session : Session σ H) :
    Focus σ H n × Session σ H :=
  let name := (textAfter? builtinPrefix load.key).getD load.key
  match session.loader.builtins.lookup name with
  | none => failLoad load (.notFound load.key load.base.toString) stack session
  | some handle =>
    let registry := session.loader.registry.setExports load.id handle
    let (_, registry, exports) := registry.beginExecution session.exports load.id
    give (.ok (load.key, handle)) stack
      { session with exports, loader.registry := registry.complete load.id }

/-- Goes on with the contents of a module. -/
def receive (host : Host σ H) (load : Load) (output : LoadOutput) (stack : Stack σ H .module n)
    (session : Session σ H) : Focus σ H n × Session σ H :=
  let session := session.withRegistry fun registry =>
    ((registry.setFormat load.id output.format).advance load.id .compiling).2
  match output.format, output.source with
  | .virtual, _ => finishBuiltin load stack session
  | _, none => failLoad load (.compile load.key ⟨"load produced no source", none⟩) stack session
  | .binary, some source => startBody host load source none source.length stack session
  | .script, some source => startCompiler host load source stack session

/-- Goes on with the contents of a module, or ends its load. -/
def receiveResult (host : Host σ H) (load : Load) (result : Except ModuleError LoadOutput)
    (stack : Stack σ H .module n) (session : Session σ H) : Focus σ H n × Session σ H :=
  match result with
  | .ok output => receive host load output stack session
  | .error e => failLoad load e stack session

/-- Goes on with what the specifier of a load resolved to. -/
def receiveResolution (host : Host σ H) (order : LoadOrder)
    (result : Except ModuleError Resolution) (stack : Stack σ H .module n)
    (session : Session σ H) : Focus σ H n × Session σ H :=
  match result with
  | .error e => give (.error e) stack session
  | .ok resolution =>
    match session.servedExports resolution.url with
    | (.error e, session) => give (.error e) stack session
    | (.ok (some handle), session) => give (.ok (resolution.url, handle)) stack session
    | (.ok none, session) =>
      let (load, session) := session.beginLoad resolution.url resolution.format order.base
      let (work, session) :=
        session.loadWork host load.key ⟨resolution.format, order.conditions, order.isMain⟩
      (⟨.reply, work, .cons (.fetching load order.mode) stack⟩, session)

/-- Goes on with the reply of the load hooks.  Only an import can await it. -/
def receiveReply (host : Host σ H) (load : Load) (mode : LoadMode) (reply : LoadReply σ H)
    (stack : Stack σ H .module n) (session : Session σ H) : Focus σ H n × Session σ H :=
  match reply, mode with
  | .ready result, _ => receiveResult host load result stack session
  | .pending rest, .suspendable => (⟨.output, rest, .cons (.awaiting load) stack⟩, session)
  | .pending _, .immediate => failLoad load (.deferred load.key) stack session

/-- Goes on with what the compiler gave. -/
def receiveBytecode (host : Host σ H) (load : Load) (source : Bytes)
    (fingerprint : Option Fingerprint) (result : Except CompileError Bytes)
    (stack : Stack σ H .module n) (session : Session σ H) : Focus σ H n × Session σ H :=
  match result with
  | .error e => failLoad load (.compile load.key e) stack session
  | .ok bytecode =>
    let session := match fingerprint, session.loader.cache with
      | some fingerprint, some cache =>
        let (cache, files) := cache.store session.files fingerprint host.engine bytecode
        { session with files, loader.cache := some cache }
      | _, _ => session
    startBody host load bytecode fingerprint source.length stack session

/-- Ends a load whose body has ended. -/
def receiveExecution (load : Load) (handle : Handle) (result : Except Failure Unit)
    (dependencies : List String) (stack : Stack σ H .module n) (session : Session σ H) :
    Focus σ H n × Session σ H :=
  let session := { session with loader.executing := session.loader.executing - 1 }
  match result with
  | .error failure => failLoad load (.execution load.key failure) stack session
  | .ok () =>
    give (.ok (load.key, handle)) stack <| session.withRegistry fun registry =>
      (registry.setDependencies load.id dependencies).complete load.id

/-- Counts the outcome of a load. -/
def countOutcome (result : Except ModuleError LoadedModule) (session : Session σ H) :
    Session σ H :=
  session.withRegistry fun registry =>
    match result with
    | .ok _ => registry.countSucceeded
    | .error _ => registry.countFailed

/-! ## Reloading -/

/-- Ends a reload. -/
def finishReload (reload : Reload) (resolved : Option String) (wasCached : Bool)
    (result : Except ModuleError Handle) (stack : Stack σ H .reload n) (session : Session σ H) :
    Focus σ H n × Session σ H :=
  let result : ReloadResult :=
    { specifier := reload.specifier
      resolved
      wasCached
      outcome := result.map session.exports.toJson
      loads := .between reload.before session.loader.registry.loads }
  (⟨.reload, .done result, stack⟩, session)

/-- Forgets a module: its record, its entry in the compile cache and what is known of
manifests. -/
def forget (key : String) (session : Session σ H) : Bool × Session σ H :=
  let (record, registry) := session.loader.registry.invalidate key
  let session := { session with loader.registry := registry }
  let session := match record >>= (·.fingerprint), session.loader.cache with
    | some fingerprint, some cache =>
      let (_, cache, files) := cache.remove session.files fingerprint
      { session with files, loader.cache := some cache }
    | _, _ => session
  (record.isSome, { session with loader.resolver := session.loader.resolver.clearManifests })

/-- Goes on with what the specifier of a reload resolved to.  A built-in module is
given as it is; any other is forgotten and loaded again by its canonical id. -/
def receiveReload (host : Host σ H) (reload : Reload) (result : Except ModuleError Resolution)
    (stack : Stack σ H .reload n) (session : Session σ H) : Focus σ H n × Session σ H :=
  match result with
  | .error e => finishReload reload none false (.error e) stack session
  | .ok resolution =>
    let key := resolution.url
    match textAfter? builtinPrefix key with
    | some name =>
      let wasCached := (session.loader.registry.lookup? key).isSome
      let result := match session.loader.builtins.lookup name with
        | some handle => .ok handle
        | none => .error (.notFound reload.specifier reload.base.toString)
      finishReload reload (some key) wasCached result stack session
    | none =>
      if (session.loader.registry.find? key).any fun record => !record.state.isTerminal then
        finishReload reload (some key) false (.error (.loadInProgress key)) stack session
      else
        let (wasCached, session) := session.forget key
        session.startLoad host .immediate key reload.base (.cons (.renewing reload key wasCached) stack)

/-! ## Steps -/

/-- Hands a value to the frame that waits for it. -/
def resume (host : Host σ H) (frame : Frame σ H k m) (value : Value σ H k) (stack : Stack σ H m n)
    (session : Session σ H) : Focus σ H n × Session σ H :=
  match frame with
  | .asking next => (⟨_, next value, stack⟩, session)
  | .counting => give value stack (session.countOutcome value)
  | .resolving order => session.receiveResolution host order value stack
  | .fetching load mode => session.receiveReply host load mode value stack
  | .awaiting load => session.receiveResult host load value stack
  | .compiling load source fingerprint =>
    session.receiveBytecode host load source fingerprint value stack
  | .executing load handle =>
    let (result, dependencies) := value
    session.receiveExecution load handle result dependencies stack
  | .reloading reload => session.receiveReload host reload value stack
  | .renewing reload key wasCached =>
    session.finishReload reload (some key) wasCached (value.map (·.2)) stack

/-- Whether a pause of the innermost program suspends an import. -/
def canSuspend : Stack σ H k n → Bool
  | .cons (.awaiting _) _ => true
  | _ => false

end Session

/-- How far things have come. -/
inductive Progress (σ H : Type) (n : Kind) where
  /-- There is more to do. -/
  | running (focus : Focus σ H n)
  /-- An import is suspended; this is left to do. -/
  | suspended (focus : Focus σ H n)
  | finished (value : Value σ H n)

namespace Session

/-- Answers one request of the innermost program, or hands its result on. -/
def step (host : Host σ H) (focus : Focus σ H n) (session : Session σ H) :
    Progress σ H n × Session σ H :=
  match focus with
  | ⟨_, .done value, .nil⟩ => (.finished value, session)
  | ⟨_, .done value, .cons frame rest⟩ =>
    let (focus, session) := session.resume host frame value rest
    (.running focus, session)
  | ⟨kind, .ask request next, stack⟩ =>
    match request with
    | .request (.operation operation) =>
      let (answer, session) := session.perform operation
      (.running ⟨kind, next answer, stack⟩, session)
    | .request (.resolve specifier base) =>
      let (focus, session) := session.startResolve host specifier base (.cons (.asking next) stack)
      (.running focus, session)
    | .request (.require specifier base) =>
      let (focus, session) :=
        session.startLoad host .immediate specifier base (.cons (.asking next) stack)
      (.running focus, session)
    | .request (.reload specifier base) =>
      let (focus, session) := session.startReload host specifier base (.cons (.asking next) stack)
      (.running focus, session)
    | .resolveDefault specifier context =>
      let (answer, resolver) := session.loader.resolver.resolve session.files specifier context
      (.running ⟨kind, next answer, stack⟩, { session with loader.resolver := resolver })
    | .loadDefault url context =>
      let answer := Loader.loadDefault session.loader.config session.files url context
      (.running ⟨kind, next answer, stack⟩, session)
    | .pause =>
      if canSuspend stack then (.suspended ⟨kind, next (), stack⟩, session)
      else (.running ⟨kind, next (), stack⟩, session)

/-- Goes on for at most a number of steps, until things are finished or suspended. -/
def run (host : Host σ H) : (steps : Nat) → Focus σ H n → Session σ H → Progress σ H n × Session σ H
  | 0, focus, session => (.running focus, session)
  | steps + 1, focus, session =>
    match session.step host focus with
    | (.running focus, session) => run host steps focus session
    | other => other

/-- Goes on for at most a number of steps, past every pause, until things are finished. -/
def finish (host : Host σ H) :
    (steps : Nat) → Focus σ H n → Session σ H → Option (Value σ H n) × Session σ H
  | 0, _, session => (none, session)
  | steps + 1, focus, session =>
    match session.step host focus with
    | (.finished value, session) => (some value, session)
    | (.running focus, session) => finish host steps focus session
    | (.suspended focus, session) => finish host steps focus session

/-! ## Requests from outside -/

/-- Starts to import a module. -/
def startImport (host : Host σ H) (specifier : String) (base : Path) (session : Session σ H) :
    Focus σ H .module × Session σ H :=
  session.startLoad host .suspendable specifier base .nil

/-- Answers a request that no running program makes. -/
def answer (host : Host σ H) (steps : Nat) (session : Session σ H) :
    (request : Request σ H) → Option request.Answer × Session σ H
  | .operation operation =>
    let (answer, session) := session.perform operation
    (some answer, session)
  | .resolve specifier base =>
    let (focus, session) := session.startResolve host specifier base .nil
    finish host steps focus session
  | .require specifier base =>
    let (focus, session) := session.startLoad host .immediate specifier base .nil
    finish host steps focus session
  | .reload specifier base =>
    let (focus, session) := session.startReload host specifier base .nil
    finish host steps focus session

/-- Resolves through the hooks, with `last` after all of them in place of the loader. -/
def resolveThrough (host : Host σ H) (steps : Nat) (last : NextResolve σ H) (specifier : String)
    (context : ResolveContext) (session : Session σ H) :
    Option (Except ModuleError Resolution) × Session σ H :=
  let (hooks, chain) := session.loader.hooks.resolveHooks
  finish host steps ⟨.resolution, dispatchResolve host.resolve hooks last specifier context, .nil⟩
    { session with loader.hooks := chain }

/-- Loads through the first `depth` hooks, all if it is not given, with `last` after them
in place of the loader.  Gives the reply and the result it comes to. -/
def loadThrough (host : Host σ H) (steps : Nat) (last : NextLoad σ H) (depth : Option Nat)
    (url : String) (context : LoadContext) (session : Session σ H) :
    Option (LoadReply σ H × Except ModuleError LoadOutput) × Session σ H :=
  let (hooks, chain) := session.loader.hooks.loadHooks
  let hooks := hooks.drop (hooks.length - depth.getD hooks.length)
  let session := { session with loader.hooks := chain }
  let (reply, session) :=
    finish host steps ⟨.reply, dispatchLoad host.load hooks last url context, .nil⟩ session
  match (reply : Option (LoadReply σ H)) with
  | none => (none, session)
  | some reply =>
    let (result, session) := finish host steps ⟨.output, reply.await, .nil⟩ session
    (result.map fun result => (reply, result), session)

/-- Answers the requests of a program of the embedder, each in at most a number of
steps. -/
def serve {α : Type} (host : Host σ H) (steps : Nat) :
    Program (loaderInterface σ H) α → Session σ H → Option α × Session σ H
  | .done result, session => (some result, session)
  | .ask request next, session =>
    match session.answer host steps request with
    | (some answer, session) => serve host steps (next answer) session
    | (none, session) => (none, session)

end Session

end ScriptModules
