import ScriptModules.Config.Basic
import ScriptModules.Files.Basic
import ScriptModules.Toml.Document
import ScriptModules.Toml.Printer

/-!
# Reading and writing configurations

A configuration is a record whose fields all have defaults.  It is read from a
JSON value or from the value of a TOML document: from an object by name, where
unknown fields are ignored, or from an array by position.  An array in a TOML
document may have more items than there are fields; one in JSON may not.  A
configuration is written as TOML, fields in their order and the compile cache as a
table at the end.
-/

namespace ScriptModules

namespace Json

/-! ## Values of fields -/

/-- The named fields of a record, given by name or by position.  Items that belong to
no field are ignored if there may be `more` of them. -/
def fields? (names : List String) (more : Bool) : Json → Option (List (String × Json))
  | .object members => some members
  | .array items =>
    if more || items.length ≤ names.length then some (names.zip items) else none
  | _ => none

/-- A text. -/
def text? : Json → Option String
  | .string text => some text
  | _ => none

/-- A truth value. -/
def bool? : Json → Option Bool
  | .bool b => some b
  | _ => none

/-- A number without sign of at most 64 bits. -/
def natural? : Json → Option Nat
  | .integer (.ofNat n) => if n < 2 ^ 64 then some n else none
  | _ => none

/-- A list of texts. -/
def texts? : Json → Option (List String)
  | .array items => items.mapM text?
  | _ => none

/-- A value that may be null. -/
def nullable? {α : Type} (read : Json → Option α) : Json → Option (Option α)
  | .null => some none
  | json => (read json).map some

/-- A field with a default. -/
def fieldOr? {α : Type} (fields : List (String × Json)) (name : String) (read : Json → Option α)
    (default : α) : Option α :=
  match fields.lookup name with
  | none => some default
  | some json => read json

end Json

namespace CacheConfig

/-- The names of the fields. -/
def fieldNames : List String := ["directory", "portable", "size_limit", "portable_root"]

/-- The settings a value gives. -/
def ofJson? (json : Json) (more : Bool := false) : Option CacheConfig := do
  let fields ← json.fields? fieldNames more
  let default : CacheConfig := {}
  return {
    directory := ← Json.fieldOr? fields "directory"
      (fun j => j.text?.map Path.ofString) default.directory
    portable := ← Json.fieldOr? fields "portable" Json.bool? default.portable
    sizeLimit := ← Json.fieldOr? fields "size_limit" Json.natural? default.sizeLimit
    portableRoot := ← Json.fieldOr? fields "portable_root"
      (Json.nullable? fun j => j.text?.map Path.ofString) default.portableRoot }

/-- The value of the settings. -/
def toJson (cache : CacheConfig) : Json :=
  .ofMembers ([("directory", .string cache.directory.toString), ("portable", .bool cache.portable),
    ("size_limit", .ofNat cache.sizeLimit)] ++
    Json.optional "portable_root" (cache.portableRoot.map fun root => .string root.toString))

/-- The table of a configuration. -/
def toToml? (cache : CacheConfig) : Option (List Char) := do
  let limit ← Toml.natural? cache.sizeLimit
  let root := match cache.portableRoot with
    | some root => Toml.definition "portable_root" (Toml.quoted root.toString)
    | none => []
  return Toml.definition "directory" (Toml.quoted cache.directory.toString) ++
    Toml.definition "portable" (Toml.boolean cache.portable) ++
    Toml.definition "size_limit" limit ++ root

end CacheConfig

namespace Config

/-- The names of the fields. -/
def fieldNames : List String :=
  ["search_paths", "extensions", "binary_extensions", "dependency_dirs", "manifest_name",
    "index_name", "enable_cache", "max_cache_size", "node_compat", "conditions", "compile_cache"]

/-- The settings a value gives, valid or not. -/
def ofJson? (json : Json) (more : Bool := false) : Option Config := do
  let fields ← json.fields? fieldNames more
  let default : Config := {}
  return {
    searchPaths := ← Json.fieldOr? fields "search_paths"
      (fun j => j.texts?.map (·.map Path.ofString)) default.searchPaths
    extensions := ← Json.fieldOr? fields "extensions" Json.texts? default.extensions
    binaryExtensions := ← Json.fieldOr? fields "binary_extensions" Json.texts? default.binaryExtensions
    dependencyDirs := ← Json.fieldOr? fields "dependency_dirs" Json.texts? default.dependencyDirs
    manifestName := ← Json.fieldOr? fields "manifest_name" Json.text? default.manifestName
    indexName := ← Json.fieldOr? fields "index_name" Json.text? default.indexName
    enableCache := ← Json.fieldOr? fields "enable_cache" Json.bool? default.enableCache
    maxCacheSize := ← Json.fieldOr? fields "max_cache_size" Json.natural? default.maxCacheSize
    nodeCompat := ← Json.fieldOr? fields "node_compat" Json.bool? default.nodeCompat
    conditions := ← Json.fieldOr? fields "conditions" Json.texts? default.conditions
    compileCache := ← Json.fieldOr? fields "compile_cache"
      (Json.nullable? (CacheConfig.ofJson? · more)) default.compileCache }

/-- The value of the settings. -/
def toJson (config : Config) : Json :=
  .ofMembers ([("search_paths", .ofTexts (config.searchPaths.map Path.toString)),
    ("extensions", .ofTexts config.extensions),
    ("binary_extensions", .ofTexts config.binaryExtensions),
    ("dependency_dirs", .ofTexts config.dependencyDirs),
    ("manifest_name", .string config.manifestName), ("index_name", .string config.indexName),
    ("enable_cache", .bool config.enableCache), ("max_cache_size", .ofNat config.maxCacheSize),
    ("node_compat", .bool config.nodeCompat), ("conditions", .ofTexts config.conditions)] ++
    Json.optional "compile_cache" (config.compileCache.map CacheConfig.toJson))

/-- The valid configuration a TOML document gives. -/
def ofToml (text : String) : Except ConfigFault Config :=
  match Toml.read? text >>= (ofJson? · true) with
  | none => .error .malformed
  | some config =>
    match config.fault? with
    | some fault => .error fault
    | none => .ok config

/-- The TOML document of a configuration; none if a number does not fit. -/
def toToml? (config : Config) : Option String := do
  let size ← Toml.natural? config.maxCacheSize
  let table ← match config.compileCache with
    | some cache => cache.toToml?.map ("\n[compile_cache]\n".toList ++ ·)
    | none => some []
  return String.ofList <|
    Toml.definition "search_paths" (Toml.textArray (config.searchPaths.map Path.toString)) ++
    Toml.definition "extensions" (Toml.textArray config.extensions) ++
    Toml.definition "binary_extensions" (Toml.textArray config.binaryExtensions) ++
    Toml.definition "dependency_dirs" (Toml.textArray config.dependencyDirs) ++
    Toml.definition "manifest_name" (Toml.quoted config.manifestName) ++
    Toml.definition "index_name" (Toml.quoted config.indexName) ++
    Toml.definition "enable_cache" (Toml.boolean config.enableCache) ++
    Toml.definition "max_cache_size" size ++
    Toml.definition "node_compat" (Toml.boolean config.nodeCompat) ++
    Toml.definition "conditions" (Toml.textArray config.conditions) ++
    table

end Config

end ScriptModules
