import ScriptModules.Host

/-!
# Loads under way

Loading a module runs programs, and a program may ask for another module to be
loaded.  What is under way at a moment is a *stack* of frames, innermost first.  A
frame waits for a value of one kind and then gives one of another kind: a value of
the kind the frame below it waits for.  So kinds are part of the types of frames
and stacks, and a value always fits.

A load goes through these frames, one after the other: `resolving` its specifier,
`fetching` its contents from the load hooks, `awaiting` them if they are deferred,
`compiling` and `executing`.
-/

namespace ScriptModules

/-- The kinds of values frames wait for. -/
inductive Kind where
  /-- What a specifier resolves to. -/
  | resolution
  /-- A reply of the load hooks. -/
  | reply
  /-- The contents of a module. -/
  | output
  /-- What the compiler gives. -/
  | bytecode
  /-- How the body of a module ended, and its dependencies. -/
  | execution
  /-- A loaded module. -/
  | module
  /-- The outcome of a reload. -/
  | reload
  deriving DecidableEq

/-- The values of a kind. -/
def Value (σ H : Type) : Kind → Type
  | .resolution => Except ModuleError Resolution
  | .reply => LoadReply σ H
  | .output => Except ModuleError LoadOutput
  | .bytecode => Except CompileError Bytes
  | .execution => Except Failure Unit × List String
  | .module => Except ModuleError LoadedModule
  | .reload => ReloadResult

/-- Whether a load can wait for a deferred reply.  The name of its mode is also the
first condition of a load. -/
inductive LoadMode where
  /-- The module has to be there at once. -/
  | immediate
  /-- The load may be suspended. -/
  | suspendable
  deriving DecidableEq, Repr

/-- The name of a mode. -/
def LoadMode.name : LoadMode → String
  | .immediate => "require"
  | .suspendable => "import"

/-- A request to load a module. -/
structure LoadOrder where
  mode : LoadMode
  specifier : String
  /-- The directory of the module that makes the request. -/
  base : Path
  conditions : List String
  /-- Whether this is the entry module of the program. -/
  isMain : Bool
  deriving DecidableEq

/-- A load that has a record. -/
structure Load where
  /-- The record. -/
  id : ModuleId
  /-- The canonical id of the module. -/
  key : String
  /-- The directory of the module. -/
  base : Path
  deriving DecidableEq

/-- A reload that is not over. -/
structure Reload where
  specifier : String
  base : Path
  /-- The counters when it began. -/
  before : LoadCounters
  deriving DecidableEq

/-- Waits for a value of the first kind and gives one of the second. -/
inductive Frame (σ H : Type) : Kind → Kind → Type where
  /-- A program waits for the answer to a request. -/
  | asking {k m : Kind} (next : Value σ H k → Work σ H (Value σ H m)) : Frame σ H k m
  /-- The outcome of a load will be counted. -/
  | counting : Frame σ H .module .module
  /-- The specifier of a load is being resolved. -/
  | resolving (order : LoadOrder) : Frame σ H .resolution .module
  /-- The load hooks are being asked. -/
  | fetching (load : Load) (mode : LoadMode) : Frame σ H .reply .module
  /-- The load hooks have deferred their reply. -/
  | awaiting (load : Load) : Frame σ H .output .module
  /-- The compiler is running on a source whose fingerprint may be known. -/
  | compiling (load : Load) (source : Bytes) (fingerprint : Option Fingerprint) :
      Frame σ H .bytecode .module
  /-- The body of the module is running. -/
  | executing (load : Load) (exports : Handle) : Frame σ H .execution .module
  /-- The specifier of a reload is being resolved. -/
  | reloading (reload : Reload) : Frame σ H .resolution .reload
  /-- The module of a reload is being loaded again. -/
  | renewing (reload : Reload) (key : String) (wasCached : Bool) : Frame σ H .module .reload

/-- Frames that fit together, innermost first: waits for a value of the first kind
and gives one of the second. -/
inductive Stack (σ H : Type) : Kind → Kind → Type where
  | nil {k : Kind} : Stack σ H k k
  | cons {k m n : Kind} (frame : Frame σ H k m) (rest : Stack σ H m n) : Stack σ H k n

/-- What is going on: work whose value the frames of a stack wait for, and in the end
a value of kind `n`. -/
structure Focus (σ H : Type) (n : Kind) where
  kind : Kind
  work : Work σ H (Value σ H kind)
  stack : Stack σ H kind n

/-- The load a frame belongs to, if it has a record. -/
def Frame.load? {σ H : Type} {k m : Kind} : Frame σ H k m → Option Load
  | .fetching load _ => some load
  | .awaiting load => some load
  | .compiling load .. => some load
  | .executing load _ => some load
  | _ => none

end ScriptModules
