import ScriptModules.Error
import ScriptModules.Resolver

/-!
# Hooks

An embedder registers hooks that take part in resolving and loading.  A
registration has a hook for resolving, one for loading, or both.  Registrations
are numbered from one in the order in which they are made, and none is ever taken
back.

Hooks are asked in turn, the one registered last first.  The chain for a request
is read off when the request begins, so that hooks registered in the meantime
take part in later requests only.
-/

namespace ScriptModules

/-- What a load hook is told. -/
structure LoadContext where
  /-- The format found by resolving, if there is one. -/
  format : Option ModuleFormat
  /-- The conditions of the request. -/
  conditions : List String
  /-- Whether this is the entry module of the program. -/
  isMain : Bool
  deriving DecidableEq

/-- What loading gives. -/
structure LoadOutput where
  format : ModuleFormat
  /-- The contents; a virtual module has none. -/
  source : Option Bytes
  /-- Whether a hook decided without going on. -/
  shortCircuit : Bool := false
  deriving DecidableEq

/-- The hooks an embedder registers together.  Hooks are known by names of some
type `H`. -/
structure HookOptions (H : Type) where
  resolve : Option H := none
  load : Option H := none

/-- Options as diagnostics show them. -/
def HookOptions.describe {H : Type} (options : HookOptions H) : String :=
  s!"HookOptions \x7b resolve: {options.resolve.isSome}, load: {options.load.isSome} \x7d"

/-- A registration. -/
structure Registration (H : Type) where
  id : Nat
  options : HookOptions H

/-- What a hook chain reports of itself. -/
structure HookStats where
  registrations : Nat
  /-- Requests to resolve that met at least one hook. -/
  resolveDispatches : Nat
  /-- Requests to load that met at least one hook. -/
  loadDispatches : Nat
  deriving DecidableEq, Repr

/-- All registrations. -/
structure HookChain (H : Type) where
  /-- The registrations, newest first. -/
  registrations : List (Registration H) := []
  resolveDispatches : Nat := 0
  loadDispatches : Nat := 0

namespace HookChain

variable {H : Type}

/-- The number of registrations. -/
def size (chain : HookChain H) : Nat :=
  chain.registrations.length

/-- Adds a registration.  One without options, or without any hook, is refused. -/
def register (chain : HookChain H) (options : Option (HookOptions H)) :
    Except ModuleError (Registration H × HookChain H) :=
  match options with
  | none => .error (.invalidHookOptions noHookOptions)
  | some options =>
    if options.resolve.isNone && options.load.isNone then .error (.invalidHookOptions noHooks)
    else
      let registration := ⟨chain.size + 1, options⟩
      .ok (registration, { chain with registrations := registration :: chain.registrations })

/-- The hooks of one kind with the numbers of their registrations, newest first. -/
def select (hook : HookOptions H → Option H) (chain : HookChain H) : List (Nat × H) :=
  chain.registrations.filterMap fun r => (hook r.options).map fun h => (r.id, h)

/-- The hooks for one request to resolve, which is counted if there are any. -/
def resolveHooks (chain : HookChain H) : List (Nat × H) × HookChain H :=
  let hooks := chain.select (·.resolve)
  (hooks, { chain with
    resolveDispatches := chain.resolveDispatches + if hooks.isEmpty then 0 else 1 })

/-- The hooks for one request to load, which is counted if there are any. -/
def loadHooks (chain : HookChain H) : List (Nat × H) × HookChain H :=
  let hooks := chain.select (·.load)
  (hooks, { chain with
    loadDispatches := chain.loadDispatches + if hooks.isEmpty then 0 else 1 })

/-- What the chain reports of itself. -/
def stats (chain : HookChain H) : HookStats :=
  ⟨chain.size, chain.resolveDispatches, chain.loadDispatches⟩

end HookChain

end ScriptModules
