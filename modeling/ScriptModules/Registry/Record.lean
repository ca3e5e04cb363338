import ScriptModules.ExportTable
import ScriptModules.Fingerprint

/-!
# Module records

What is known of one module, and how far its loading has come.  A module passes
through states in a fixed order and may skip some; the last one is either of two,
and nothing follows it.
-/

namespace ScriptModules

/-- How far the loading of a module has come. -/
inductive ModuleState where
  | unresolved
  | resolving
  | compiling
  | executing
  | complete
  | errored
  deriving DecidableEq, Repr, Inhabited

namespace ModuleState

/-- The place of a state in the order.  Both last states share theirs. -/
def rank : ModuleState → Nat
  | .unresolved => 0
  | .resolving => 1
  | .compiling => 2
  | .executing => 3
  | .complete => 4
  | .errored => 4

/-- Whether the loading is over. -/
def isTerminal : ModuleState → Bool
  | .complete => true
  | .errored => true
  | _ => false

/-- Whether a module in the first state may go on to the second. -/
def canAdvance (state next : ModuleState) : Bool :=
  !state.isTerminal && state.rank < next.rank

/-- The name of a state. -/
def name : ModuleState → String
  | .unresolved => "Unresolved"
  | .resolving => "Resolving"
  | .compiling => "Compiling"
  | .executing => "Executing"
  | .complete => "Complete"
  | .errored => "Errored"

/-- The state of a name. -/
def ofName? : String → Option ModuleState
  | "Unresolved" => some .unresolved
  | "Resolving" => some .resolving
  | "Compiling" => some .compiling
  | "Executing" => some .executing
  | "Complete" => some .complete
  | "Errored" => some .errored
  | _ => none

/-- Every state is called by its own name. -/
@[simp] theorem ofName?_name (state : ModuleState) : ofName? state.name = some state := by
  cases state <;> rfl

/-- The last states are the ones of the highest rank. -/
theorem isTerminal_iff_rank (state : ModuleState) : state.isTerminal = true ↔ state.rank = 4 := by
  cases state <;> decide

end ModuleState

/-- What is known of a module. -/
structure ModuleRecord where
  /-- The canonical id of the module. -/
  key : String
  format : ModuleFormat
  state : ModuleState := .unresolved
  /-- The exports, from the start of execution on. -/
  exports : Option Handle := none
  /-- The fingerprint of the source, if it went through the compiler. -/
  fingerprint : Option Fingerprint := none
  /-- The ids of the modules it required while executing. -/
  dependencies : List String := []
  /-- Why the loading failed. -/
  error : Option String := none
  /-- The length of the source in bytes. -/
  sourceLength : Nat := 0

/-- The bytes a record takes, roughly. -/
def ModuleRecord.weight (record : ModuleRecord) (store : ExportTables) : Nat :=
  record.key.utf8ByteSize + record.sourceLength +
    (record.dependencies.map String.utf8ByteSize).sum +
    (record.exports.map store.weight).getD 0

end ScriptModules
