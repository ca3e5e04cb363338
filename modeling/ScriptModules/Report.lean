import ScriptModules.Loader.Request
import ScriptModules.Package.Version

/-!
# Reports

The JSON form of what a loader and its parts give: errors, resolutions, contents,
records, registrations, the outcome of a reload, statistics.  Names of members are
written in camel case, those of compile options in snake case.  Bytes are written as
a text if they are the encoding of one, else in hexadecimal.
-/

namespace ScriptModules

/-- The value of a byte string. -/
def Bytes.toJson (bytes : Bytes) : Json :=
  match bytes.text? with
  | some text => .string text
  | none => .ofMembers [("hex", .string (Digest.hexText bytes))]

/-! ## Errors -/

/-- The value of an error: its name, its text and the texts of what caused it.  Left
out are texts that name a temporary file, for they differ from run to run, and those
of a malformed configuration. -/
def ModuleError.toJson (e : ModuleError) : Json :=
  let texts := [("message", Json.string e.message), ("chain", .ofTexts e.chain)]
  .ofMembers (("error", .string e.name) :: match e with
    | .config .malformed | .cache (.temporary ..) => []
    | .hook failure => ("hookError", .string failure.text) :: texts
    | _ => texts)

/-- The value of a fault of a manifest. -/
def Package.ManifestFault.toJson (fault : Package.ManifestFault) : Json :=
  .ofMembers (("error", .string "InvalidManifest") ::
    Json.optional "message" (fault.message?.map .string))

/-- The value of an error of a manifest in a file. -/
def Package.ManifestError.toJson (e : Package.ManifestError) : Json :=
  let message := Json.optional "message" (e.message?.map .string)
  match e with
  | .unreadable _ cause =>
    .ofMembers (("error", .string "Io") :: ("chain", .ofTexts [cause.message]) :: message)
  | .invalid .. => .ofMembers (("error", .string "InvalidManifest") :: message)

/-! ## Parts -/

/-- The value of a format, or null. -/
def formatToJson (format : Option ModuleFormat) : Json :=
  .textOrNull (format.map (·.name))

/-- The value of a version. -/
def Package.Version.toJson (version : Package.Version) : Json :=
  .ofMembers [("major", .ofNat version.major), ("minor", .ofNat version.minor),
    ("patch", .ofNat version.patch), ("pre", .string version.pre), ("build", .string version.build)]

/-- The value of a manifest with what its fields say: the module type and the version. -/
def Package.Manifest.report (manifest : Package.Manifest) : Json :=
  .ofMembers [("manifest", manifest.toJson), ("moduleType", .string manifest.moduleType.name),
    ("semver", .orNull Package.Version.toJson (manifest.version >>= Package.Version.ofText?))]

/-- The value of what a specifier resolves to. -/
def Resolution.toJson (resolution : Resolution) : Json :=
  .ofMembers [("url", .string resolution.url), ("format", formatToJson resolution.format),
    ("shortCircuit", .bool resolution.shortCircuit)]

/-- The value of what loading gives. -/
def LoadOutput.toJson (output : LoadOutput) : Json :=
  .ofMembers [("format", .string output.format.name),
    ("source", .orNull Bytes.toJson output.source),
    ("shortCircuit", .bool output.shortCircuit)]

/-- The value of a record, with the exports it has in a store. -/
def ModuleRecord.toJson (record : ModuleRecord) (store : ExportTables) : Json :=
  .ofMembers [("key", .string record.key), ("format", .string record.format.name),
    ("state", .string record.state.name),
    ("exports", .orNull store.toJson record.exports),
    ("fingerprint", .textOrNull (record.fingerprint.map (·.toHex))),
    ("dependencies", .ofTexts record.dependencies), ("error", .textOrNull record.error)]

/-- The value of compile options. -/
def CompileOptions.toJson (options : CompileOptions) : Json :=
  .ofMembers [("format", .string options.format.name), ("kind", .string options.kind.name),
    ("strict", .bool options.strict), ("strip_debug", .bool options.stripDebug)]

/-- The value of a registration. -/
def Registration.toJson {H : Type} (registration : Registration H) : Json :=
  .ofMembers [("id", .ofNat registration.id),
    ("resolve", .bool registration.options.resolve.isSome),
    ("load", .bool registration.options.load.isSome)]

/-- The value of the counters of a hook chain. -/
def HookStats.toJson (stats : HookStats) : Json :=
  .ofMembers [("registrations", .ofNat stats.registrations),
    ("resolveDispatches", .ofNat stats.resolveDispatches),
    ("loadDispatches", .ofNat stats.loadDispatches)]

/-- The value of the counters of a compile cache. -/
def CacheStats.toJson (stats : CacheStats) : Json :=
  let counters := stats.counters
  .ofMembers [("hits", .ofNat counters.hits), ("misses", .ofNat counters.misses),
    ("writes", .ofNat counters.writes), ("errors", .ofNat counters.errors),
    ("evictions", .ofNat counters.evictions), ("currentSize", .ofNat stats.currentSize),
    ("sizeLimit", .ofNat stats.sizeLimit), ("hitRate", .float stats.hitRate),
    ("utilization", .float stats.utilization)]

/-- The value of the counters of a registry. -/
def RegistryStats.toJson (stats : RegistryStats) : Json :=
  .ofMembers [("hits", .ofNat stats.hits), ("misses", .ofNat stats.misses),
    ("size", .ofNat stats.size), ("maxSize", .ofNat stats.maxSize),
    ("utilization", .float stats.utilization)]

/-- The value of reported settings. -/
def ReportedSettings.toJson (settings : ReportedSettings) : Json :=
  .ofMembers [("cacheEnabled", .bool settings.cacheEnabled),
    ("nodeCompatEnabled", .bool settings.nodeCompatEnabled),
    ("maxCacheSize", .ofNat settings.maxCacheSize)]

/-- The value of all counters of a loader. -/
def Statistics.toJson (stats : Statistics) : Json :=
  .ofMembers ([("loadsTotal", .ofNat stats.loads.total), ("loadsSuccess", .ofNat stats.loads.success),
    ("loadsFailed", .ofNat stats.loads.failed), ("successRate", .float stats.successRate),
    ("cacheHits", .ofNat stats.registry.hits), ("cacheMisses", .ofNat stats.registry.misses),
    ("cacheHitRate", .float stats.hitRate), ("memoryUsed", .ofNat stats.weight),
    ("moduleCache", stats.registry.toJson), ("hooks", stats.hooks.toJson),
    ("configuration", stats.settings.toJson)] ++
    Json.optional "compileCache" (stats.cache.map CacheStats.toJson))

/-- The value of the loads of a reload. -/
def ReloadDelta.toJson (loads : ReloadDelta) : Json :=
  .ofMembers [("loadsAttempted", .ofNat loads.attempted),
    ("loadsSuccessful", .ofNat loads.successful), ("loadsFailed", .ofNat loads.failed)]

/-- The value of the outcome of a reload. -/
def ReloadResult.toJson (result : ReloadResult) : Json :=
  let outcome := match result.outcome with
    | .ok exports => [("reloadSuccess", .bool true), ("exports", exports)]
    | .error e => [("reloadSuccess", .bool false), ("error", .string e.message)]
  .ofMembers ([("path", .string result.specifier), ("resolvedPath", .textOrNull result.resolved),
    ("wasCached", .bool result.wasCached), ("statistics", result.loads.toJson)] ++ outcome)

/-- The value of what enabling the compile cache came to. -/
def CacheActivation.toJson (activation : CacheActivation) : Json :=
  .ofMembers [("status", .string (if activation.already then "already_enabled" else "enabled")),
    ("message", .string activation.message),
    ("directory", .string activation.directory.toString), ("portable", .bool activation.portable)]

end ScriptModules
