import ScriptModules.Percentage
import ScriptModules.Registry.Record

/-!
# The registry of modules

The registry holds the records of modules.  A record gets an id when it is made,
and ids are never used again: an id kept beyond the life of its record names
nothing.  At most one record at a time stands under a key.

Finished records are kept in the order of their last use.  When one more is
finished than the registry may keep, the one used longest ago is dropped, but
never the one just finished.  Records in flight are not counted and not dropped.
-/

namespace ScriptModules

/-- Names a record. -/
structure ModuleId where
  index : Nat
  deriving DecidableEq, Repr, Inhabited

instance : ToString ModuleId := ⟨fun id => s!"#{id.index}"⟩

/-- How many loads were started, and how they ended. -/
structure LoadCounters where
  total : Nat := 0
  success : Nat := 0
  failed : Nat := 0
  deriving DecidableEq, Repr

/-- What a registry reports of itself as a cache. -/
structure RegistryStats where
  hits : Nat
  misses : Nat
  /-- The number of finished modules kept. -/
  size : Nat
  maxSize : Nat
  utilization : Float

/-- The records of modules. -/
structure Registry where
  /-- The record of each id; none if it was dropped. -/
  records : Array (Option ModuleRecord) := #[]
  /-- The id of the record under each key. -/
  ids : List (String × ModuleId) := []
  /-- The finished modules, the one used longest ago first. -/
  order : List ModuleId := []
  /-- How many finished modules are kept. -/
  maxSize : Nat
  loads : LoadCounters := {}
  /-- How often a finished module was served. -/
  hits : Nat := 0
  /-- How often a record was made for a load. -/
  misses : Nat := 0

namespace Registry

/-! ## Looking up -/

/-- The id of the record under a key. -/
def lookup? (registry : Registry) (key : String) : Option ModuleId :=
  registry.ids.lookup key

/-- The record of an id. -/
def get? (registry : Registry) (id : ModuleId) : Option ModuleRecord :=
  (registry.records[id.index]?).join

/-- The record under a key. -/
def find? (registry : Registry) (key : String) : Option ModuleRecord :=
  registry.lookup? key >>= registry.get?

/-- The keys of all records, in order. -/
def keys (registry : Registry) : List String :=
  (registry.ids.map (·.1)).mergeSort fun a b => decide (a ≤ b)

/-- The number of records. -/
def size (registry : Registry) : Nat :=
  registry.ids.length

/-! ## Changing records -/

/-- Changes the record of an id, if it has one. -/
def modify (registry : Registry) (id : ModuleId) (change : ModuleRecord → ModuleRecord) : Registry :=
  { registry with records := registry.records.modify id.index (Option.map change) }

/-- Drops the record of an id, but not its key. -/
def dropRecord (registry : Registry) (id : ModuleId) : Registry :=
  { registry with records := registry.records.modify id.index fun _ => none }

/-- Drops the record under a key and gives it back. -/
def invalidate (registry : Registry) (key : String) : Option ModuleRecord × Registry :=
  match registry.lookup? key with
  | none => (none, registry)
  | some id =>
    (registry.get? id,
      { registry.dropRecord id with
        ids := registry.ids.filter (·.1 ≠ key)
        order := registry.order.filter (· ≠ id) })

/-- Makes a record for a key, in place of the one that stood there. -/
def insert (registry : Registry) (key : String) (format : ModuleFormat) : ModuleId × Registry :=
  let registry := (registry.invalidate key).2
  let id : ModuleId := ⟨registry.records.size⟩
  (id, { registry with
    records := registry.records.push (some { key, format })
    ids := (key, id) :: registry.ids })

/-- Moves a record on to a state; tells whether it could. -/
def advance (registry : Registry) (id : ModuleId) (next : ModuleState) : Bool × Registry :=
  match registry.get? id with
  | none => (false, registry)
  | some record =>
    if record.state.canAdvance next then
      (true, registry.modify id fun record => { record with state := next })
    else (false, registry)

/-- Uses a given table for the exports of a module. -/
def setExports (registry : Registry) (id : ModuleId) (exports : Handle) : Registry :=
  registry.modify id fun record => { record with exports := some exports }

/-- Notes what was compiled. -/
def setCompiled (registry : Registry) (id : ModuleId) (fingerprint : Option Fingerprint)
    (sourceLength : Nat) : Registry :=
  registry.modify id fun record => { record with fingerprint, sourceLength }

/-- Replaces the format. -/
def setFormat (registry : Registry) (id : ModuleId) (format : ModuleFormat) : Registry :=
  registry.modify id fun record => { record with format }

/-- Notes what a module required. -/
def setDependencies (registry : Registry) (id : ModuleId) (dependencies : List String) : Registry :=
  registry.modify id fun record => { record with dependencies }

/-- Starts execution: moves the record on and gives it a table for its exports, a
new one unless it has one already. -/
def beginExecution (registry : Registry) (store : ExportTables) (id : ModuleId) :
    Option Handle × Registry × ExportTables :=
  match registry.advance id .executing with
  | (false, registry) => (none, registry, store)
  | (true, registry) =>
    match registry.get? id >>= (·.exports) with
    | some exports => (some exports, registry, store)
    | none =>
      let (exports, store) := store.make []
      (some exports, registry.setExports id exports, store)

/-! ## Finished records -/

/-- Notes a use of a finished module. -/
def touch (registry : Registry) (id : ModuleId) : Registry :=
  { registry with order := registry.order.filter (· ≠ id) ++ [id] }

/-- Splits off the first `n` ids other than `keep`: those, and the ids that remain. -/
def oldest (keep : ModuleId) : (n : Nat) → List ModuleId → List ModuleId × List ModuleId
  | 0, order => ([], order)
  | _, [] => ([], [])
  | n + 1, id :: order =>
    if id = keep then
      let (victims, rest) := oldest keep (n + 1) order
      (victims, id :: rest)
    else
      let (victims, rest) := oldest keep n order
      (id :: victims, rest)

/-- Drops a record together with its key. -/
def evict (registry : Registry) (id : ModuleId) : Registry :=
  match registry.get? id with
  | none => registry
  | some record =>
    { registry.dropRecord id with ids := registry.ids.filter (·.1 ≠ record.key) }

/-- Drops finished records, the one used longest ago first, until no more are left
than may be kept.  The record `keep` stays. -/
def evictOverLimit (registry : Registry) (keep : ModuleId) : Registry :=
  let (victims, rest) := oldest keep (registry.order.length - registry.maxSize) registry.order
  victims.foldl evict { registry with order := rest }

/-- Marks a load as complete. -/
def complete (registry : Registry) (id : ModuleId) : Registry :=
  match registry.advance id .complete with
  | (false, registry) => registry
  | (true, registry) => (registry.touch id).evictOverLimit id

/-- Marks a load as failed.  A failed record counts among the finished ones. -/
def fail (registry : Registry) (id : ModuleId) (message : String) : Registry :=
  match registry.advance id .errored with
  | (false, registry) => registry
  | (true, registry) =>
    ((registry.modify id fun record => { record with error := some message }).touch id).evictOverLimit id

/-- Drops every finished record; tells how many there were. -/
def clear (registry : Registry) : Nat × Registry :=
  let finished := registry.ids.filter fun (_, id) =>
    (registry.get? id).all fun record => record.state.isTerminal
  (finished.length, finished.foldl (fun registry (key, _) => (registry.invalidate key).2) registry)

/-! ## Counting -/

/-- Counts the start of a load. -/
def countStarted (registry : Registry) : Registry :=
  { registry with loads.total := registry.loads.total + 1 }

/-- Counts a load that ended well. -/
def countSucceeded (registry : Registry) : Registry :=
  { registry with loads.success := registry.loads.success + 1 }

/-- Counts a load that failed. -/
def countFailed (registry : Registry) : Registry :=
  { registry with loads.failed := registry.loads.failed + 1 }

/-- Counts a finished module that was served. -/
def countHit (registry : Registry) : Registry :=
  { registry with hits := registry.hits + 1 }

/-- Counts a record made for a load. -/
def countMiss (registry : Registry) : Registry :=
  { registry with misses := registry.misses + 1 }

/-- The bytes all records take, roughly. -/
def weight (registry : Registry) (store : ExportTables) : Nat :=
  (registry.records.toList.map fun record => (record.map (·.weight store)).getD 0).sum

/-- What the registry reports of itself. -/
def stats (registry : Registry) : RegistryStats :=
  let size := registry.order.length
  { hits := registry.hits
    misses := registry.misses
    size
    maxSize := registry.maxSize
    utilization := percentage size registry.maxSize }

end Registry

end ScriptModules
