/-!
# Formats and kinds of modules

A *format* says how the contents of a module become a running module.  A *kind*
says which module system a script is written for, and with the format it fixes
the options a script is compiled with.
-/

namespace ScriptModules

/-- How the contents of a module become a running module. -/
inductive ModuleFormat where
  /-- Text for the engine to compile. -/
  | script
  /-- Contents that are compiled already. -/
  | binary
  /-- No contents: the host provides the exports. -/
  | virtual
  deriving DecidableEq, Repr, Inhabited

/-- The module system a script is written for. -/
inductive ModuleKind where
  | commonJs
  | esm
  deriving DecidableEq, Repr, Inhabited

namespace ModuleFormat

/-- The name of a format. -/
def name : ModuleFormat → String
  | .script => "script"
  | .binary => "binary"
  | .virtual => "virtual"

/-- The format a hook may call by one of its names. -/
def ofName? : String → Option ModuleFormat
  | "script" | "module" | "commonjs" | "json" => some .script
  | "binary" | "wasm" => some .binary
  | "virtual" | "builtin" => some .virtual
  | _ => none

/-- Every format is called by its own name. -/
@[simp] theorem ofName?_name (format : ModuleFormat) : ofName? format.name = some format := by
  cases format <;> rfl

end ModuleFormat

/-- The name of a kind. -/
def ModuleKind.name : ModuleKind → String
  | .commonJs => "CommonJs"
  | .esm => "Esm"

/-- What the compiler is told about a source. -/
structure CompileOptions where
  format : ModuleFormat := .script
  kind : ModuleKind := .commonJs
  /-- Compile in strict mode. -/
  strict : Bool := false
  /-- Leave out what only a debugger needs. -/
  stripDebug : Bool := false
  deriving DecidableEq, Repr

/-- The options for scripts of a kind.  Modules of the newer system are strict. -/
def CompileOptions.ofKind (kind : ModuleKind) : CompileOptions :=
  { kind, strict := kind == .esm }

/-- Why a source was not compiled. -/
structure CompileError where
  message : String
  /-- The line, counted from one, if known. -/
  line : Option Nat := none
  deriving DecidableEq, Repr

/-- The text of a compile error. -/
def CompileError.text (error : CompileError) : String :=
  match error.line with
  | none => error.message
  | some line => s!"{error.message} (line {line})"

end ScriptModules
