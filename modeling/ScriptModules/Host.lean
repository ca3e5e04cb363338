import ScriptModules.Hooks.Dispatch

/-!
# The host of a loader

The host provides what the library leaves open: the hooks, known by names of type
`H`, and the script engine with its compiler and its way to run bytecode.  All of
it is given as programs, and they share a state of type `σ`.

The engine should compile the same source with the same options to the same
bytecode; compile caches rely on that.
-/

namespace ScriptModules

variable {σ H : Type}

/-- A request of the body of a module. -/
inductive BodyRequest (σ H : Type) where
  | request (request : Request σ H)
  /-- Load a dependency. -/
  | dependency (specifier : String)
  /-- The dependencies loaded so far. -/
  | dependencies

/-- The kind of answer to a request of the body of a module. -/
def BodyRequest.Answer : BodyRequest σ H → Type
  | .request r => r.Answer
  | .dependency _ => Except ModuleError Handle
  | .dependencies => List String

/-- What the body of a module may ask for. -/
abbrev bodyInterface (σ H : Type) : Interface :=
  ⟨BodyRequest σ H, BodyRequest.Answer⟩

/-- What the body of a module does. -/
abbrev BodyProgram (σ H : Type) :=
  Program (bodyInterface σ H) (Except Failure Unit)

/-- Answers a request of the body of a module that stands in the directory `base`;
keeps the list of its dependencies, each at the place where it first came up. -/
def answerBody (base : Path) :
    (request : BodyRequest σ H) → List String → Work σ H (request.Answer × List String)
  | .request request, ids => (Work.request request).bind fun answer => .done (answer, ids)
  | .dependency specifier, ids =>
    (Work.request (.require specifier base)).bind fun
      | .ok (id, exports) =>
        .done (.ok exports, if ids.contains id then ids else ids ++ [id])
      | .error e => .done (.error e, ids)
  | .dependencies, ids => .done (ids, ids)

/-- The work of the body of a module: its result and its dependencies. -/
def Work.ofBody (base : Path) (body : BodyProgram σ H) :
    Work σ H (Except Failure Unit × List String) :=
  body.expand (answerBody base) []

/-- What an embedder provides. -/
structure Host (σ H : Type) where
  /-- The version of the engine. -/
  engine : String
  /-- What a resolve hook does with a specifier. -/
  resolve : H → String → ResolveContext → ResolveProgram σ H
  /-- What a load hook does with a URL. -/
  load : H → String → LoadContext → LoadProgram σ H
  /-- Compiles a source. -/
  compile : Bytes → CompileOptions → Program (loaderInterface σ H) (Except CompileError Bytes)
  /-- Runs the bytecode of the module with an id, which fills a table of exports. -/
  execute : Bytes → (id : String) → (exports : Handle) → BodyProgram σ H

end ScriptModules
