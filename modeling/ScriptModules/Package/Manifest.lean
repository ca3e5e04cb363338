import ScriptModules.Files.Basic
import ScriptModules.Json.Fields
import ScriptModules.Package.Exports
import ScriptModules.Text.Blank

/-!
# Package manifests

A manifest is a JSON record of which six fields matter; each of them may be
missing or null.  A name of blanks only is refused.
-/

namespace ScriptModules.Package

/-- The module system plain scripts of a package are written for. -/
inductive ModuleType where
  | commonJs
  | module
  deriving DecidableEq, Repr

/-- The name of a module type. -/
def ModuleType.name : ModuleType → String
  | .commonJs => "CommonJs"
  | .module => "Module"

/-- The fields of a manifest. -/
structure Manifest where
  name : Option String := none
  version : Option String := none
  /-- The field `type`, as given. -/
  declaredType : Option String := none
  /-- The entry point. -/
  main : Option String := none
  /-- The entry point under the condition `import`. -/
  module : Option String := none
  exports : Option Json := none
  deriving Inhabited

/-- Why a text is no manifest. -/
inductive ManifestFault where
  /-- It is not JSON of the right shape. -/
  | notJson
  /-- The name is blank. -/
  | blankName
  deriving DecidableEq, Repr

/-- Why a file gives no manifest. -/
inductive ManifestError where
  | unreadable (path : Path) (cause : IoError)
  | invalid (path : Path) (fault : ManifestFault)
  deriving DecidableEq, Repr

/-- The text of a fault.  The fault of a shape is left to the reader of JSON. -/
def ManifestFault.message? : ManifestFault → Option String
  | .notJson => none
  | .blankName => some "Invalid manifest : Package name cannot be empty"

/-- The text of an error, if it has one of its own. -/
def ManifestError.message? : ManifestError → Option String
  | .unreadable path cause => some s!"IO error reading manifest {path}: {cause.message}"
  | .invalid path fault => fault.message?.map fun text => s!"Invalid manifest {path}: {text}"

namespace Manifest

/-! ## Writing -/

/-- The value of a manifest: the fields it has. -/
def toJson (manifest : Manifest) : Json :=
  .ofMembers (Json.optional "name" (manifest.name.map .string) ++
    Json.optional "version" (manifest.version.map .string) ++
    Json.optional "type" (manifest.declaredType.map .string) ++
    Json.optional "main" (manifest.main.map .string) ++
    Json.optional "module" (manifest.module.map .string) ++
    Json.optional "exports" manifest.exports)

/-! ## Reading -/

/-- The names of the fields, in the order in which an array gives them. -/
def fieldNames : List String := ["name", "version", "type", "main", "module", "exports"]

/-- The record a form is. -/
def ofForm? (form : Json.Form) : Option Manifest := do
  let fields ← form.fields? fieldNames
  return {
    name := ← Json.Form.field? Json.Form.text? "name" fields
    version := ← Json.Form.field? Json.Form.text? "version" fields
    declaredType := ← Json.Form.field? Json.Form.text? "type" fields
    main := ← Json.Form.field? Json.Form.text? "main" fields
    module := ← Json.Form.field? Json.Form.text? "module" fields
    exports := ← Json.Form.field? (Json.ofForm? (Json.depthLimit - 1)) "exports" fields }

/-- Whether there is a name and it is blank. -/
def hasBlankName (manifest : Manifest) : Bool :=
  manifest.name.any fun name => name.toList.all isBlank

/-- The manifest a text is. -/
def ofText (text : String) : Except ManifestFault Manifest :=
  match Json.Form.ofText? text.toList >>= ofForm? with
  | none => .error .notJson
  | some manifest => if manifest.hasBlankName then .error .blankName else .ok manifest

/-- The manifest in a file. -/
def load (fs : FileSystem) (path : Path) : Except ManifestError Manifest :=
  match fs.readText path with
  | .error cause => .error (.unreadable path cause)
  | .ok text =>
    match ofText text with
    | .error fault => .error (.invalid path fault)
    | .ok manifest => .ok manifest

/-! ## Questions -/

/-- The module system: `module` if the manifest says exactly that. -/
def moduleType (manifest : Manifest) : ModuleType :=
  if manifest.declaredType = some "module" then .module else .commonJs

/-- The target of a subpath in the `exports` field. -/
def export? (manifest : Manifest) (subpath : String) (conditions : List String) :
    Option String :=
  manifest.exports >>= fun exports => exportTarget? exports subpath conditions

/-- The entry point: from the exports, else `module` under the condition `import`,
else `main`. -/
def entryPoint? (manifest : Manifest) (conditions : List String) : Option String :=
  match manifest.export? "." conditions with
  | some target => some target
  | none =>
    if conditions.contains "import" ∧ manifest.module.isSome then manifest.module
    else manifest.main

end Manifest

end ScriptModules.Package
