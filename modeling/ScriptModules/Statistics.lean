import ScriptModules.Cache.Basic
import ScriptModules.Hooks.Basic
import ScriptModules.Registry.Basic

/-!
# Statistics

What a loader reports of its work: a snapshot of every counter, and the outcome of
a reload with the loads it took.
-/

namespace ScriptModules

/-- The settings that are reported together with counters. -/
structure ReportedSettings where
  cacheEnabled : Bool
  nodeCompatEnabled : Bool
  maxCacheSize : Nat
  deriving DecidableEq, Repr

/-- Every counter of a loader. -/
structure Statistics where
  loads : LoadCounters
  /-- The share of loads that ended well. -/
  successRate : Float
  /-- The share of requests that the registry could serve. -/
  hitRate : Float
  /-- The bytes all records take, roughly. -/
  weight : Nat
  registry : RegistryStats
  /-- The compile cache, if it is enabled. -/
  cache : Option CacheStats
  hooks : HookStats
  settings : ReportedSettings

/-- The loads made between two readings of the counters. -/
structure ReloadDelta where
  attempted : Nat
  successful : Nat
  failed : Nat
  deriving DecidableEq, Repr

/-- The difference of two readings; nothing is less than zero. -/
def ReloadDelta.between (first last : LoadCounters) : ReloadDelta where
  attempted := last.total - first.total
  successful := last.success - first.success
  failed := last.failed - first.failed

/-- What came of a reload. -/
structure ReloadResult where
  /-- The specifier as given. -/
  specifier : String
  /-- The canonical id, if it was resolved. -/
  resolved : Option String
  /-- Whether there was a record before. -/
  wasCached : Bool
  /-- The exports afterwards, or why there are none. -/
  outcome : Except ModuleError Json
  loads : ReloadDelta

end ScriptModules
