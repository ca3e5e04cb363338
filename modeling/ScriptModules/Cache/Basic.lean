import ScriptModules.Cache.Entry
import ScriptModules.Cache.Index
import ScriptModules.Error
import ScriptModules.Files.Update
import ScriptModules.Percentage

/-!
# The compile cache

A compile cache keeps bytecode in a directory, one file for each entry, named by
the fingerprint of what was compiled.  Several caches may share a directory, and
files may be changed behind their backs; so every entry is checked in full when
it is read, and one that does not check out is deleted and counts as missing.

A cache keeps the size of its entries within a limit.  Entries are evicted in the
order of their last access, by its number first and its time second.

Nothing that goes wrong with files keeps a source from being compiled.  Failures
are counted, and only opening a cache and writing its index report them.
-/

namespace ScriptModules

/-- What a cache counts. -/
structure CacheCounters where
  hits : Nat := 0
  misses : Nat := 0
  writes : Nat := 0
  errors : Nat := 0
  evictions : Nat := 0
  deriving DecidableEq, Repr

/-- What a cache reports of itself. -/
structure CacheStats where
  counters : CacheCounters
  currentSize : Nat
  sizeLimit : Nat
  hitRate : Float
  utilization : Float

/-- A compile cache that is open. -/
structure Cache where
  /-- Where entries are kept. -/
  directory : Path
  /-- Where the project stands, in portable mode. -/
  portableRoot : Option Path
  /-- How many bytes entries may take. -/
  sizeLimit : Nat
  /-- The entries it knows of. -/
  entries : List (Fingerprint × Cache.EntryMeta) := []
  /-- The bytes they take. -/
  currentSize : Nat := 0
  /-- The number of the last access. -/
  clock : UInt64 := 0
  counters : CacheCounters := {}
  /-- Whether the index on disk is out of date. -/
  dirty : Bool := false

namespace Cache

/-! ## Names of files -/

/-- What the names of entry files end in. -/
def entrySuffix : String := ".bin"

/-- What the names of temporary files begin with. -/
def temporaryPrefix : String := ".tmp"

/-- The name of the index. -/
def indexName : String := "index.json"

/-- The name of the file of an entry. -/
def entryName (fingerprint : Fingerprint) : String :=
  fingerprint.toHex ++ entrySuffix

/-- The fingerprint an entry file is named by. -/
def fingerprintOfName? (name : Name) : Option Fingerprint :=
  let suffix := Bytes.ofText entrySuffix
  let stem := name.take (name.length - suffix.length)
  if stem ++ suffix = name then Bytes.text? stem >>= Digest.ofHex? else none

/-- The path of an entry. -/
def entryPath (cache : Cache) (fingerprint : Fingerprint) : Path :=
  cache.directory.join (.ofString (entryName fingerprint))

/-- The path of the index. -/
def indexPath (cache : Cache) : Path :=
  cache.directory.join (.ofString indexName)

/-! ## Entries in memory -/

/-- What is known of an entry. -/
def meta? (cache : Cache) (fingerprint : Fingerprint) : Option EntryMeta :=
  cache.entries.lookup fingerprint

/-- Whether an entry is known. -/
def contains (cache : Cache) (fingerprint : Fingerprint) : Bool :=
  (cache.meta? fingerprint).isSome

/-- The number of entries. -/
def size (cache : Cache) : Nat :=
  cache.entries.length

/-- Whether fingerprints leave out where the project stands. -/
def isPortable (cache : Cache) : Bool :=
  cache.portableRoot.isSome

/-- Notes an entry, in place of what was known of it.  The size is not adjusted. -/
def note (cache : Cache) (fingerprint : Fingerprint) (entry : EntryMeta) : Cache :=
  { cache with entries := cache.entries.filter (·.1 ≠ fingerprint) ++ [(fingerprint, entry)] }

/-- Forgets an entry, with its size. -/
def forget (cache : Cache) (fingerprint : Fingerprint) : Cache :=
  match cache.meta? fingerprint with
  | none => cache
  | some entry =>
    { cache with
      entries := cache.entries.filter (·.1 ≠ fingerprint)
      currentSize := cache.currentSize - entry.size
      dirty := true }

/-- Numbers an access. -/
def tick (cache : Cache) : UInt64 × Cache :=
  (cache.clock + 1, { cache with clock := cache.clock + 1 })

/-- Whether the first was accessed before the second. -/
def accessedBefore (a b : EntryMeta) : Bool :=
  a.sequence < b.sequence || (a.sequence == b.sequence && a.lastAccess.before b.lastAccess)

/-- The entry accessed longest ago. -/
def oldest? (cache : Cache) : Option Fingerprint :=
  let earlier (a b : Fingerprint × EntryMeta) : Fingerprint × EntryMeta :=
    if accessedBefore b.2 a.2 then b else a
  match cache.entries with
  | [] => none
  | first :: rest => some (rest.foldl earlier first).1

/-! ## Removing -/

/-- Deletes an entry; tells whether it was there. -/
def remove (cache : Cache) (fs : FileSystem) (fingerprint : Fingerprint) :
    Bool × Cache × FileSystem :=
  let known := cache.contains fingerprint
  match fs.removeFile (cache.entryPath fingerprint) with
  | .ok fs => (true, cache.forget fingerprint, fs)
  | .error _ => (known, cache.forget fingerprint, fs)

/-- Evicts entries until the limit is met or none is left.  Every round forgets one
entry, so `rounds` is their number. -/
def evict : (rounds : Nat) → Cache → FileSystem → Cache × FileSystem
  | 0, cache, fs => (cache, fs)
  | rounds + 1, cache, fs =>
    if cache.currentSize ≤ cache.sizeLimit then (cache, fs)
    else match cache.oldest? with
      | none => (cache, fs)
      | some victim =>
        let (removed, cache, fs) := cache.remove fs victim
        let evictions := cache.counters.evictions + if removed then 1 else 0
        evict rounds { cache with counters.evictions := evictions } fs

/-- Evicts entries until the limit is met or none is left. -/
def enforceLimit (cache : Cache) (fs : FileSystem) : Cache × FileSystem :=
  evict cache.size cache fs

/-! ## Opening -/

/-- What a scan has found so far. -/
structure Scan where
  cache : Cache
  fs : FileSystem
  /-- The names in the index whose files have been found. -/
  found : List String

/-- Takes in one file of the directory.  Temporary files are left over from a write
that was broken off and are deleted. -/
def scanName (index : Index) (scan : Scan) (name : Name) : Scan :=
  let { cache, fs, found } := scan
  let path := cache.directory.join ⟨name⟩
  if (Bytes.ofText temporaryPrefix).isPrefixOf name then
    { scan with fs := (fs.removeFile path).toOption.getD fs }
  else match fingerprintOfName? name, fs.status path with
    | some fingerprint, some status =>
      let hex := fingerprint.toHex
      let indexed := if found.contains hex then none else index.lookup hex
      let fresh : EntryMeta :=
        { size := status.size, lastAccess := status.modified, sequence := 0, hits := 0 }
      let entry := (indexed.filter fun entry => entry.size == status.size).getD fresh
      let valid := indexed.any fun entry => entry.size == status.size
      let cache := cache.note fingerprint entry
      { cache := { cache with
          clock := max cache.clock entry.sequence
          currentSize := cache.currentSize + status.size
          dirty := cache.dirty || !valid }
        fs
        found := hex :: found }
    | _, _ => scan

/-- Rebuilds what is known from the directory and its index. -/
def scan (cache : Cache) (fs : FileSystem) : Except CacheError (Cache × FileSystem) :=
  let index := match fs.read cache.indexPath with
    | .ok content => Index.read content
    | .error _ => []
  match fs.list cache.directory with
  | .error cause => .error (.io cache.directory cause)
  | .ok names =>
    let { cache, fs, found } := names.foldl (scanName index) { cache, fs, found := [] }
    .ok ({ cache with dirty := cache.dirty || index.holdsBesides found }, fs)

/-- Opens a cache, making its directory if need be. -/
def openAt (config : CacheConfig) (fs : FileSystem) : Except CacheError Cache × FileSystem :=
  match fs.makeDirectories config.directory with
  | (.error cause, fs) => (.error (.io config.directory cause), fs)
  | (.ok (), fs) =>
    let portableRoot :=
      if config.portable then config.portableRoot <|> fs.workingPath? else none
    let cache : Cache := { directory := config.directory, portableRoot, sizeLimit := config.sizeLimit }
    match cache.scan fs with
    | .error e => (.error e, fs)
    | .ok (cache, fs) =>
      let (cache, fs) := cache.enforceLimit fs
      (.ok cache, fs)

/-! ## Looking up -/

/-- The fingerprint a source has in a cache. -/
def fingerprintOf (cache : Cache) (source : Bytes) (engine : String) (options : CompileOptions) :
    Fingerprint :=
  Fingerprint.compute source engine options cache.portableRoot

/-- What reading an entry comes to. -/
inductive Reading where
  /-- The bytecode, from a file of a certain size. -/
  | bytecode (payload : Bytes) (size : Nat)
  | missing
  | unusable

/-- Reads and checks the file of an entry. -/
def readFile (cache : Cache) (fs : FileSystem) (fingerprint : Fingerprint) (engine : String) :
    Reading :=
  match fs.read (cache.entryPath fingerprint) with
  | .error .notFound => .missing
  | .error _ => .unusable
  | .ok file =>
    match Entry.decode sha256 fingerprint engine file with
    | .ok payload => .bytecode payload file.length
    | .error _ => .unusable

/-- Notes that an entry whose file has `size` bytes was read.  An entry that was not
known was written by someone else. -/
def noteHit (cache : Cache) (fs : FileSystem) (fingerprint : Fingerprint) (size : Nat) :
    Cache × FileSystem :=
  let (sequence, cache) := cache.tick
  let (now, fs) := fs.tick
  match cache.meta? fingerprint with
  | some entry =>
    ({ cache.note fingerprint { entry with hits := entry.hits + 1, lastAccess := now, sequence }
        with dirty := true }, fs)
  | none =>
    ({ cache.note fingerprint { size, lastAccess := now, sequence, hits := 1 }
        with currentSize := cache.currentSize + size, dirty := true }, fs)

/-- The bytecode of an entry, if it is there and checks out. -/
def lookup (cache : Cache) (fs : FileSystem) (fingerprint : Fingerprint) (engine : String) :
    Option Bytes × Cache × FileSystem :=
  match cache.readFile fs fingerprint engine with
  | .bytecode payload size =>
    let (cache, fs) := cache.noteHit fs fingerprint size
    (some payload, { cache with counters.hits := cache.counters.hits + 1 }, fs)
  | .missing =>
    let cache := cache.forget fingerprint
    (none, { cache with counters.misses := cache.counters.misses + 1 }, fs)
  | .unusable =>
    let (_, cache, fs) := cache.remove fs fingerprint
    (none, { cache with
      counters.misses := cache.counters.misses + 1
      counters.errors := cache.counters.errors + 1 }, fs)

/-! ## Storing -/

/-- Notes that an entry was written. -/
def noteStored (cache : Cache) (fs : FileSystem) (fingerprint : Fingerprint) (size : Nat) :
    Cache × FileSystem :=
  let (sequence, cache) := cache.tick
  let (now, fs) := fs.tick
  let before := ((cache.meta? fingerprint).map (·.size)).getD 0
  let cache := cache.note fingerprint { size, lastAccess := now, sequence, hits := 0 }
  ({ cache with
    currentSize := cache.currentSize - before + size
    counters.writes := cache.counters.writes + 1
    dirty := true }, fs)

/-- Stores bytecode under a fingerprint, unless it is larger than the limit. -/
def store (cache : Cache) (fs : FileSystem) (fingerprint : Fingerprint) (engine : String)
    (bytecode : Bytes) : Cache × FileSystem :=
  let file := Entry.encode sha256 fingerprint engine bytecode
  if cache.sizeLimit < file.length then (cache, fs)
  else match fs.replaceFile cache.directory (cache.entryPath fingerprint) file with
    | .error _ => ({ cache with counters.errors := cache.counters.errors + 1 }, fs)
    | .ok fs =>
      let (cache, fs) := cache.noteStored fs fingerprint file.length
      cache.enforceLimit fs

/-- What asking for the bytecode of a source comes to. -/
structure Compiled where
  fingerprint : Fingerprint
  bytecode : Bytes
  /-- Whether the compiler was run. -/
  fresh : Bool

/-- The bytecode of a source: from its entry, or from the compiler, whose result is
stored then. -/
def getOrCompile (cache : Cache) (fs : FileSystem) (source : Bytes) (engine : String)
    (options : CompileOptions) (compile : Bytes → CompileOptions → Except CompileError Bytes) :
    Except CompileError Compiled × Cache × FileSystem :=
  let fingerprint := cache.fingerprintOf source engine options
  match cache.lookup fs fingerprint engine with
  | (some bytecode, cache, fs) => (.ok ⟨fingerprint, bytecode, false⟩, cache, fs)
  | (none, cache, fs) =>
    match compile source options with
    | .error e => (.error e, cache, fs)
    | .ok bytecode =>
      let (cache, fs) := cache.store fs fingerprint engine bytecode
      (.ok ⟨fingerprint, bytecode, true⟩, cache, fs)

/-! ## Writing the index -/

/-- The index of the entries. -/
def index (cache : Cache) : Index :=
  cache.entries.map fun (fingerprint, entry) => (fingerprint.toHex, entry)

/-- Writes the index if it is out of date. -/
def flush (cache : Cache) (fs : FileSystem) : Except CacheError Unit × Cache × FileSystem :=
  if !cache.dirty then (.ok (), cache, fs)
  else
    let content := Bytes.ofText cache.index.render
    match fs.replaceFile cache.directory cache.indexPath content with
    | .ok fs => (.ok (), { cache with dirty := false }, fs)
    | .error .noWorkingDirectory => (.error (.io cache.indexPath .notFound), cache, fs)
    | .error (.temporary cause) => (.error (.temporary cache.indexPath cause), cache, fs)
    | .error (.rename cause) => (.error (.io cache.indexPath cause), cache, fs)

/-- Closes a cache: writes the index if that can be done. -/
def close (cache : Cache) (fs : FileSystem) : FileSystem :=
  (cache.flush fs).2.2

/-- Deletes the files of a list that are named like entries; counts them. -/
def clearNames (cache : Cache) : List Name → FileSystem → Nat × FileSystem
  | [], fs => (0, fs)
  | name :: names, fs =>
    if (fingerprintOfName? name).isSome then
      match fs.removeFile (cache.directory.join ⟨name⟩) with
      | .ok fs => let (count, fs) := clearNames cache names fs; (count + 1, fs)
      | .error _ => clearNames cache names fs
    else clearNames cache names fs

/-- Deletes every entry in the directory, whoever wrote it; counts them. -/
def clear (cache : Cache) (fs : FileSystem) : Nat × Cache × FileSystem :=
  let (count, fs) := match fs.list cache.directory with
    | .ok names => clearNames cache names fs
    | .error _ => (0, fs)
  let cache := { cache with entries := [], currentSize := 0, dirty := true }
  let (_, cache, fs) := cache.flush fs
  (count, cache, fs)

/-! ## Counting -/

/-- What the cache reports of itself. -/
def stats (cache : Cache) : CacheStats :=
  let c := cache.counters
  { counters := c
    currentSize := cache.currentSize
    sizeLimit := cache.sizeLimit
    hitRate := percentage c.hits (c.hits + c.misses)
    utilization := percentage cache.currentSize cache.sizeLimit }

end Cache

end ScriptModules
