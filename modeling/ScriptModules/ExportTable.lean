import ScriptModules.Json.Printer
import ScriptModules.Text.Quoted

/-!
# Export tables

What a module exports is a table from names to values.  A table is shared: while
a module is still running, modules that import it in a cycle get the same table
and see what has been put into it so far.  So tables live in a store and are
passed around as *handles*, and two handles are the same exactly when they name
the same table.
-/

namespace ScriptModules

/-- Names a table in a store. -/
structure Handle where
  index : Nat
  deriving DecidableEq, Repr, Inhabited

/-- A table: values by name, in the order of names. -/
abbrev Bindings := List (String × Json)

/-- The tables made so far. -/
structure ExportTables where
  tables : Array Bindings := #[]

namespace ExportTables

/-- Makes a new table. -/
def make (store : ExportTables) (bindings : Bindings) : Handle × ExportTables :=
  (⟨store.tables.size⟩, { tables := store.tables.push bindings })

/-- The contents of a table. -/
def bindings (store : ExportTables) (handle : Handle) : Bindings :=
  store.tables.getD handle.index []

/-- Defines or replaces a binding. -/
def set (store : ExportTables) (handle : Handle) (name : String) (value : Json) : ExportTables :=
  { tables := store.tables.modify handle.index (Json.insertMember name value) }

/-- The value of a name. -/
def get? (store : ExportTables) (handle : Handle) (name : String) : Option Json :=
  (store.bindings handle).lookup name

/-- The names, in order. -/
def names (store : ExportTables) (handle : Handle) : List String :=
  (store.bindings handle).map (·.1)

/-- The table as an object. -/
def toJson (store : ExportTables) (handle : Handle) : Json :=
  .object (store.bindings handle)

/-- The bytes a table takes, roughly: those of its names and of the compact texts
of its values. -/
def weight (store : ExportTables) (handle : Handle) : Nat :=
  ((store.bindings handle).map fun (name, value) =>
    name.utf8ByteSize + value.render.utf8ByteSize).sum

/-- A table as diagnostics show it. -/
def describe (store : ExportTables) (handle : Handle) : String :=
  "ExportsHandle \x7b keys: [" ++ ", ".intercalate ((store.names handle).map Text.quote) ++ "] \x7d"

end ExportTables

end ScriptModules
