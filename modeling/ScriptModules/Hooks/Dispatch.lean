import ScriptModules.Loader.Request

/-!
# Asking hooks

A hook gets a request together with the means to go on: to ask the hooks that were
registered before it, and after them the loader itself.  It may go on with other
values than it got, more than once, or not at all.  One that gives a result
without having gone on has to say that this is meant (`shortCircuit`).

A load hook may defer its reply.  Then the request has a *pending* reply, a program
that gives the result when it is awaited.  In it the hook can go on as before, can
await replies that are pending themselves, and can pause.

So a chain of hooks is one program again (`dispatchResolve`, `dispatchLoad`).  It is
put together from the programs of the hooks, each with its requests to go on
replaced by the program of the rest of the chain, and no hook is left in it.
-/

namespace ScriptModules

variable {σ H α : Type}

/-! ## What a chain asks for -/

/-- A request of a chain of hooks. -/
inductive WorkRequest (σ H : Type) where
  /-- A request of one of the programs in it. -/
  | request (request : Request σ H)
  /-- Resolve a specifier without hooks. -/
  | resolveDefault (specifier : String) (context : ResolveContext)
  /-- Load a module without hooks. -/
  | loadDefault (url : String) (context : LoadContext)
  /-- Let other work go on first. -/
  | pause

/-- The kind of answer to a request of a chain. -/
def WorkRequest.Answer : WorkRequest σ H → Type
  | .request r => r.Answer
  | .resolveDefault .. => Except ModuleError Resolution
  | .loadDefault .. => Except ModuleError LoadOutput
  | .pause => Unit

/-- What a chain may ask for. -/
abbrev workInterface (σ H : Type) : Interface :=
  ⟨WorkRequest σ H, WorkRequest.Answer⟩

/-- What a loader runs: programs of its embedder, put together. -/
abbrev Work (σ H α : Type) :=
  Program (workInterface σ H) α

/-- Passes a request on. -/
def Work.request (request : Request σ H) : Work σ H request.Answer :=
  .ask (.request request) .done

/-- The work of a program that only asks things of the loader. -/
def Work.ofProgram (program : Program (loaderInterface σ H) α) : Work σ H α :=
  program.substitute Work.request

/-! ## Resolve hooks -/

/-- A request of a resolve hook. -/
inductive ResolveRequest (σ H : Type) where
  | request (request : Request σ H)
  /-- Go on. -/
  | next (specifier : String) (context : ResolveContext)

/-- The kind of answer to a request of a resolve hook. -/
def ResolveRequest.Answer : ResolveRequest σ H → Type
  | .request r => r.Answer
  | .next .. => Except ModuleError Resolution

/-- What a resolve hook may ask for. -/
abbrev resolveInterface (σ H : Type) : Interface :=
  ⟨ResolveRequest σ H, ResolveRequest.Answer⟩

/-- What a resolve hook does. -/
abbrev ResolveProgram (σ H : Type) :=
  Program (resolveInterface σ H) (Except Failure Resolution)

/-- The means to go on from a resolve hook. -/
abbrev NextResolve (σ H : Type) :=
  String → ResolveContext → Work σ H (Except ModuleError Resolution)

/-- Asks a resolve hook.  Its failure becomes an error, and its result counts if it
has gone on or says that it need not. -/
def resolveThrough (id : Nat) (hook : ResolveProgram σ H) (next : NextResolve σ H) :
    Work σ H (Except ModuleError Resolution) :=
  (hook.expand (fun
    | .request request, called => (Work.request request).bind fun answer => .done (answer, called)
    | .next specifier context, _ =>
      (next specifier context).bind fun answer => .done (answer, true)) false).bind
  fun
    | (.error failure, _) => .done (.error (.ofHook failure))
    | (.ok resolution, called) =>
      .done (if called || resolution.shortCircuit then .ok resolution
        else .error (.missingShortCircuit .resolve id))

/-- Resolves without hooks. -/
def resolveDirectly : NextResolve σ H :=
  fun specifier context => .ask (.resolveDefault specifier context) .done

/-- Asks resolve hooks, the first of the list first, and after them what is given as
the last. -/
def dispatchResolve (program : H → String → ResolveContext → ResolveProgram σ H)
    (hooks : List (Nat × H)) (last : NextResolve σ H) : NextResolve σ H :=
  hooks.foldr (fun (id, hook) next specifier context =>
    resolveThrough id (program hook specifier context) next) last

/-! ## Load hooks -/

/-- A reply to a request to load. -/
inductive LoadReply (σ H : Type) where
  /-- The result is there. -/
  | ready (result : Except ModuleError LoadOutput)
  /-- The result is there when this has been done. -/
  | pending (rest : Work σ H (Except ModuleError LoadOutput))

namespace LoadReply

/-- Whether the result is still to come. -/
def isPending : LoadReply σ H → Bool
  | .ready _ => false
  | .pending _ => true

/-- A reply as diagnostics show it. -/
def describe : LoadReply σ H → String
  | .ready (.ok _) => "Ready(Ok(..))"
  | .ready (.error e) => s!"Ready(Err({e.message}))"
  | .pending _ => "Pending"

/-- The work that gives the result. -/
def await : LoadReply σ H → Work σ H (Except ModuleError LoadOutput)
  | .ready result => .done result
  | .pending rest => rest

end LoadReply

/-- A request of a load hook. -/
inductive LoadRequest (σ H : Type) where
  | request (request : Request σ H)
  /-- Go on. -/
  | next (url : String) (context : LoadContext)

/-- The kind of answer to a request of a load hook. -/
def LoadRequest.Answer : LoadRequest σ H → Type
  | .request r => r.Answer
  | .next .. => LoadReply σ H

/-- A request of a load hook that has deferred its reply. -/
inductive DeferredRequest (σ H : Type) where
  | hook (request : LoadRequest σ H)
  /-- Await a reply. -/
  | await (reply : LoadReply σ H)
  /-- Let other work go on first. -/
  | pause

/-- The kind of answer to a request of a deferred load hook. -/
def DeferredRequest.Answer : DeferredRequest σ H → Type
  | .hook r => r.Answer
  | .await _ => Except ModuleError LoadOutput
  | .pause => Unit

/-- What a load hook may ask for that has deferred its reply. -/
abbrev deferredInterface (σ H : Type) : Interface :=
  ⟨DeferredRequest σ H, DeferredRequest.Answer⟩

/-- What a load hook does after it has deferred its reply. -/
abbrev DeferredProgram (σ H : Type) :=
  Program (deferredInterface σ H) (Except ModuleError LoadOutput)

/-- What a load hook ends with. -/
inductive LoadAnswer (σ H : Type) where
  /-- The result. -/
  | ready (result : Except ModuleError LoadOutput)
  /-- A result to come. -/
  | deferred (rest : DeferredProgram σ H)

/-- What a load hook may ask for. -/
abbrev loadInterface (σ H : Type) : Interface :=
  ⟨LoadRequest σ H, LoadRequest.Answer⟩

/-- What a load hook does. -/
abbrev LoadProgram (σ H : Type) :=
  Program (loadInterface σ H) (LoadAnswer σ H)

/-- The means to go on from a load hook. -/
abbrev NextLoad (σ H : Type) :=
  String → LoadContext → Work σ H (LoadReply σ H)

/-- Answers a request of a load hook; notes whether it has gone on. -/
def answerLoad (next : NextLoad σ H) :
    (request : LoadRequest σ H) → Bool → Work σ H (request.Answer × Bool)
  | .request request, called => (Work.request request).bind fun answer => .done (answer, called)
  | .next url context, _ => (next url context).bind fun reply => .done (reply, true)

/-- Answers a request of a load hook that has deferred its reply. -/
def answerDeferred (next : NextLoad σ H) :
    (request : DeferredRequest σ H) → Bool → Work σ H (request.Answer × Bool)
  | .hook request, called => answerLoad next request called
  | .await reply, called => reply.await.bind fun result => .done (result, called)
  | .pause, called => .ask .pause fun _ => .done ((), called)

/-- Accepts a result of a load hook if the hook has gone on or says that it need not. -/
def checkLoad (id : Nat) (called : Bool) (result : Except ModuleError LoadOutput) :
    Except ModuleError LoadOutput :=
  result.bind fun output =>
    if called || output.shortCircuit then .ok output else .error (.missingShortCircuit .load id)

/-- Asks a load hook. -/
def loadThrough (id : Nat) (hook : LoadProgram σ H) (next : NextLoad σ H) :
    Work σ H (LoadReply σ H) :=
  (hook.expand (answerLoad next) false).bind fun
    | (.ready result, called) => .done (.ready (checkLoad id called result))
    | (.deferred rest, called) =>
      .done (.pending ((rest.expand (answerDeferred next) called).bind fun (result, called) =>
        .done (checkLoad id called result)))

/-- Loads without hooks. -/
def loadDirectly : NextLoad σ H :=
  fun url context => .ask (.loadDefault url context) fun result => .done (.ready result)

/-- Asks load hooks, the first of the list first, and after them what is given as the
last. -/
def dispatchLoad (program : H → String → LoadContext → LoadProgram σ H)
    (hooks : List (Nat × H)) (last : NextLoad σ H) : NextLoad σ H :=
  hooks.foldr (fun (id, hook) next url context =>
    loadThrough id (program hook url context) next) last

end ScriptModules
