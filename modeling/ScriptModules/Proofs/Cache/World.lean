import Mathlib
import ScriptModules.Proofs.Cache.Cases

/-!
# Caches at work

What callers do with a cache, and what happens around it.  A cache is never alone
with its directory: other caches write there, and files come and go.  So there are
two views of a run.  One follows a single cache, to which everything else is a
change of files.  The other follows a *world* of caches over one file system.
-/

namespace ScriptModules.Cache

/-! ## Actions -/

/-- What is asked of a cache that is open. -/
inductive Action where
  | lookup (source : Bytes) (engine : String) (options : CompileOptions)
  | store (fingerprint : Fingerprint) (engine : String) (bytecode : Bytes)
  | getOrCompile (source : Bytes) (engine : String) (options : CompileOptions)
    (compile : Bytes → CompileOptions → Except CompileError Bytes)
  | remove (fingerprint : Fingerprint)
  | clear
  | flush

/-- The cache and the files after an action. -/
def perform (cache : Cache) (fs : FileSystem) : Action → Cache × FileSystem
  | .lookup source engine options =>
    (cache.lookup fs (cache.fingerprintOf source engine options) engine).2
  | .store fingerprint engine bytecode => cache.store fs fingerprint engine bytecode
  | .getOrCompile source engine options compile =>
    (cache.getOrCompile fs source engine options compile).2
  | .remove fingerprint => (cache.remove fs fingerprint).2
  | .clear => (cache.clear fs).2
  | .flush => (cache.flush fs).2

/-! ## Settings -/

/-- What a cache was opened with: where entries are kept, where the project stands, and
the limit. -/
def settings (cache : Cache) : Path × Option Path × Nat :=
  (cache.directory, cache.portableRoot, cache.sizeLimit)

variable {cache : Cache} {fs : FileSystem}

/-- Caches of one setting keep entries in one place, for one project. -/
theorem place_eq_of_settings_eq {other : Cache} (h : other.settings = cache.settings) :
    other.directory = cache.directory ∧ other.portableRoot = cache.portableRoot :=
  ⟨congrArg (·.1) h, congrArg (·.2.1) h⟩

@[simp] theorem settings_forget (cache : Cache) (fingerprint : Fingerprint) :
    (cache.forget fingerprint).settings = cache.settings := by
  unfold forget
  split <;> rfl

theorem entries_forget (cache : Cache) (fingerprint : Fingerprint) :
    (cache.forget fingerprint).entries = cache.entries.filter (·.1 ≠ fingerprint) := by
  unfold forget
  split
  · rename_i hnone
    refine (List.filter_eq_self.mpr fun pair hpair => ?_).symm
    have hne := List.lookup_eq_none_iff.mp hnone pair hpair
    exact decide_eq_true (bne_iff_ne.mp hne).symm
  · rfl

@[simp] theorem settings_remove (cache : Cache) (fs : FileSystem) (fingerprint : Fingerprint) :
    (cache.remove fs fingerprint).2.1.settings = cache.settings := by
  rw [remove_cache]
  exact settings_forget cache fingerprint

@[simp] theorem settings_evict (rounds : Nat) (cache : Cache) (fs : FileSystem) :
    (evict rounds cache fs).1.settings = cache.settings :=
  evict_induct (motive := fun next _ => next.settings = cache.settings)
    (fun next _ victim _ h => (settings_forget next victim).trans h) rounds rfl

@[simp] theorem settings_enforceLimit (cache : Cache) (fs : FileSystem) :
    (cache.enforceLimit fs).1.settings = cache.settings :=
  settings_evict cache.size cache fs

@[simp] theorem settings_noteHit (cache : Cache) (fs : FileSystem) (fingerprint : Fingerprint)
    (size : Nat) : (cache.noteHit fs fingerprint size).1.settings = cache.settings := by
  simp only [noteHit]
  split <;> rfl

@[simp] theorem settings_lookup (cache : Cache) (fs : FileSystem) (fingerprint : Fingerprint)
    (engine : String) : (cache.lookup fs fingerprint engine).2.1.settings = cache.settings := by
  have hlookup := cache.looksUp fs fingerprint engine
  generalize cache.lookup fs fingerprint engine = result at hlookup ⊢
  cases hlookup with
  | finds _ => exact settings_noteHit cache fs fingerprint _
  | misses _ => exact settings_forget cache fingerprint
  | drops _ => exact settings_forget cache fingerprint

@[simp] theorem settings_store (cache : Cache) (fs : FileSystem) (fingerprint : Fingerprint)
    (engine : String) (bytecode : Bytes) :
    (cache.store fs fingerprint engine bytecode).1.settings = cache.settings := by
  have hstore := cache.stores fs fingerprint engine bytecode
  generalize cache.store fs fingerprint engine bytecode = result at hstore ⊢
  cases hstore with
  | skips _ => rfl
  | fails _ _ => rfl
  | writes _ _ => exact settings_enforceLimit _ _

@[simp] theorem settings_getOrCompile (cache : Cache) (fs : FileSystem) (source : Bytes)
    (engine : String) (options : CompileOptions)
    (compile : Bytes → CompileOptions → Except CompileError Bytes) :
    (cache.getOrCompile fs source engine options compile).2.1.settings = cache.settings := by
  have hlookup := settings_lookup cache fs (cache.fingerprintOf source engine options) engine
  have hobtains := cache.obtains fs source engine options compile
  generalize (cache.getOrCompile fs source engine options compile).2 = result at hobtains ⊢
  cases hobtains with
  | looksUp => exact hlookup
  | stores hl _ =>
      rw [hl] at hlookup
      exact (settings_store _ _ _ _ _).trans hlookup

@[simp] theorem settings_flush (cache : Cache) (fs : FileSystem) :
    (cache.flush fs).2.1.settings = cache.settings := by
  have hflush := cache.flushes fs
  generalize (cache.flush fs).2 = result at hflush ⊢
  cases hflush with
  | rests _ => rfl
  | writes _ _ => rfl

@[simp] theorem settings_clear (cache : Cache) (fs : FileSystem) :
    (cache.clear fs).2.1.settings = cache.settings :=
  settings_flush { cache with entries := [], currentSize := 0, dirty := true } _

/-- Nothing a cache does changes its settings. -/
@[simp] theorem settings_perform (cache : Cache) (fs : FileSystem) (action : Action) :
    (cache.perform fs action).1.settings = cache.settings := by
  cases action with
  | lookup source engine options => simp [perform]
  | store fingerprint engine bytecode => simp [perform]
  | getOrCompile source engine options compile => simp [perform]
  | remove fingerprint => simp [perform]
  | clear => simp [perform]
  | flush => simp [perform]

/-! ## Opening -/

/-- The cache an opening starts from, over the files with the directory made. -/
def fresh (config : CacheConfig) (made : FileSystem) : Cache :=
  { directory := config.directory
    portableRoot := if config.portable then config.portableRoot <|> made.workingPath? else none
    sizeLimit := config.sizeLimit }

/-- Opening makes the directory, scans it and evicts what is too much. -/
theorem of_openAt {config : CacheConfig} {after : FileSystem}
    (h : openAt config fs = (.ok cache, after)) : ∃ made scanned middle,
      fs.makeDirectories config.directory = (.ok (), made) ∧
        (fresh config made).scan made = .ok (scanned, middle) ∧
          scanned.enforceLimit middle = (cache, after) := by
  unfold openAt at h
  split at h
  · cases h
  · rename_i made hmade
    simp only at h
    split at h
    · cases h
    · rename_i scanned middle hscan
      cases h
      exact ⟨made, scanned, middle, hmade, hscan, rfl⟩

/-- An opening evicts from what a scan found. -/
theorem openAt_of_scan {config : CacheConfig} {made middle : FileSystem} {scanned : Cache}
    (hm : fs.makeDirectories config.directory = (.ok (), made))
    (hs : (fresh config made).scan made = .ok (scanned, middle)) :
    openAt config fs = (.ok (scanned.enforceLimit middle).1, (scanned.enforceLimit middle).2) := by
  unfold openAt
  rw [hm]
  simp only [fresh] at hs ⊢
  rw [hs]

/-- A cache is opened wherever its directory can be made and listed. -/
theorem openAt_eq_ok {config : CacheConfig} {made : FileSystem} {names : List Name}
    (hm : fs.makeDirectories config.directory = (.ok (), made))
    (hl : made.list config.directory = .ok names) :
    ∃ cache after, openAt config fs = (.ok cache, after) :=
  have hscan : (fresh config made).scan made = .ok _ := scan_of_list hl
  ⟨_, _, openAt_of_scan hm hscan⟩

theorem settings_scan {after : FileSystem} {found : Cache}
    (h : cache.scan fs = .ok (found, after)) : found.settings = cache.settings := by
  refine scan_induct (motive := fun next _ => next.settings = cache.settings) h rfl ?_
    fun _ _ _ hnext => hnext
  intro scan name next hscan htakes
  cases htakes with
  | deletes _ => exact hscan
  | passes => exact hscan
  | notes _ _ _ _ _ => exact hscan

/-- A cache that was opened has the settings it was given. -/
theorem settings_openAt {config : CacheConfig} {after : FileSystem}
    (h : openAt config fs = (.ok cache, after)) :
    cache.settings = (fresh config (fs.makeDirectories config.directory).2).settings := by
  obtain ⟨made, scanned, middle, hmade, hscan, henforce⟩ := of_openAt h
  have hsettings := settings_enforceLimit scanned middle
  rw [henforce] at hsettings
  rw [hsettings, settings_scan hscan, hmade]

/-! ## A single cache -/

/-- What happens to a cache. -/
inductive Event where
  | act (action : Action)
  /-- The files become others, by whatever hand. -/
  | change (files : FileSystem)

/-- The cache and the files after an event. -/
def undergo (cache : Cache) (fs : FileSystem) : Event → Cache × FileSystem
  | .act action => cache.perform fs action
  | .change files => (cache, files)

/-- The cache and the files after a list of events. -/
def undergoAll : List Event → Cache → FileSystem → Cache × FileSystem
  | [], cache, fs => (cache, fs)
  | event :: events, cache, fs =>
    let (cache, fs) := cache.undergo fs event
    undergoAll events cache fs

/-- A run keeps the settings. -/
@[simp] theorem settings_undergoAll (events : List Event) (cache : Cache) (fs : FileSystem) :
    (undergoAll events cache fs).1.settings = cache.settings := by
  induction events generalizing cache fs with
  | nil => rfl
  | cons event events ih =>
      rw [undergoAll, ih]
      cases event with
      | act action => exact settings_perform cache fs action
      | change files => rfl

/-! ## Several caches -/

/-- Caches over one file system. -/
structure World where
  fs : FileSystem
  /-- The caches that are open; the first was opened first. -/
  caches : List Cache := []

/-- What happens in a world. -/
inductive WorldEvent where
  | opened (config : CacheConfig)
  /-- One of the caches is asked to act. -/
  | acted (index : Nat) (action : Action)
  | closed (index : Nat)
  /-- The files become others, by whatever hand. -/
  | changed (files : FileSystem)

/-- The world after an event.  An event that names no open cache does nothing. -/
def World.after (world : World) : WorldEvent → World
  | .opened config =>
    match openAt config world.fs with
    | (.ok cache, fs) => { fs, caches := world.caches ++ [cache] }
    | (.error _, fs) => { world with fs }
  | .acted index action =>
    match world.caches[index]? with
    | some cache =>
      let (cache, fs) := cache.perform world.fs action
      { fs, caches := world.caches.set index cache }
    | none => world
  | .closed index =>
    match world.caches[index]? with
    | some cache => { fs := cache.close world.fs, caches := world.caches.eraseIdx index }
    | none => world
  | .changed files => { world with fs := files }

/-- The world after a list of events. -/
def World.afterAll (world : World) (events : List WorldEvent) : World :=
  events.foldl World.after world

theorem World.afterAll_append (world : World) (before events : List WorldEvent) :
    world.afterAll (before ++ events) = (world.afterAll before).afterAll events :=
  List.foldl_append

/-- What a cache that is open after an event is: it was open before, or the event opened
it, or it acted. -/
inductive World.Yields (world : World) : WorldEvent → Cache → Prop where
  | kept {event : WorldEvent} {cache : Cache} (h : cache ∈ world.caches) :
      Yields world event cache
  | opened {config : CacheConfig} {cache : Cache} {after : FileSystem}
      (h : openAt config world.fs = (.ok cache, after)) : Yields world (.opened config) cache
  | acted {index : Nat} {acting : Cache} (action : Action)
      (h : world.caches[index]? = some acting) :
      Yields world (.acted index action) (acting.perform world.fs action).1

theorem World.yields_of_mem {world : World} {event : WorldEvent} {cache : Cache}
    (h : cache ∈ (world.after event).caches) : world.Yields event cache := by
  cases event with
  | opened config =>
      rw [World.after] at h
      split at h
      · rename_i opened after hopen
        rcases List.mem_append.mp h with hold | hnew
        · exact .kept hold
        · rw [List.mem_singleton.mp hnew]
          exact .opened hopen
      · exact .kept h
  | acted index action =>
      rw [World.after] at h
      split at h
      · rename_i acting hacting
        rcases List.mem_or_eq_of_mem_set h with hold | rfl
        · exact .kept hold
        · exact .acted action hacting
      · exact .kept h
  | closed index =>
      rw [World.after] at h
      split at h
      · exact .kept (List.mem_of_mem_eraseIdx h)
      · exact .kept h
  | changed files => exact .kept h

theorem World.after_opened {world : World} {config : CacheConfig} {cache : Cache}
    {after : FileSystem} (h : openAt config world.fs = (.ok cache, after)) :
    world.after (.opened config) = { fs := after, caches := world.caches ++ [cache] } := by
  rw [World.after, h]

theorem World.after_acted {world : World} {index : Nat} {acting : Cache} (action : Action)
    (h : world.caches[index]? = some acting) :
    world.after (.acted index action) =
      { fs := (acting.perform world.fs action).2
        caches := world.caches.set index (acting.perform world.fs action).1 } := by
  rw [World.after, h]

theorem World.after_closed {world : World} {index : Nat} {closing : Cache}
    (h : world.caches[index]? = some closing) :
    world.after (.closed index) =
      { fs := closing.close world.fs, caches := world.caches.eraseIdx index } := by
  rw [World.after, h]

/-- A cache that is opened is there afterwards. -/
theorem World.mem_after_opened {world : World} {config : CacheConfig} {cache : Cache}
    {after : FileSystem} (h : openAt config world.fs = (.ok cache, after)) :
    cache ∈ (world.after (.opened config)).caches := by
  rw [World.after_opened h]
  exact List.mem_append_right _ (List.mem_singleton_self _)

/-- So is one that acts. -/
theorem World.mem_after_acted {world : World} {index : Nat} {acting : Cache} {action : Action}
    (h : world.caches[index]? = some acting) :
    (acting.perform world.fs action).1 ∈ (world.after (.acted index action)).caches := by
  rw [World.after_acted action h]
  exact List.mem_set (List.getElem?_eq_some_iff.mp h).1 _

/-! ## A directory without entries -/

/-- An empty directory. -/
def emptyDirectory : FileSystem :=
  { FileSystem.empty with nodes := [([Bytes.ofText "c"], .directory)] }

/-- A cache on that directory. -/
def limitedConfig (sizeLimit : Nat) : CacheConfig :=
  { directory := .ofString "/c", sizeLimit }

/-- The cache as it is opened. -/
def limitedCache (sizeLimit : Nat) : Cache :=
  { directory := .ofString "/c", portableRoot := none, sizeLimit }

theorem makeDirectories_emptyDirectory :
    emptyDirectory.makeDirectories (.ofString "/c") = (.ok (), emptyDirectory) := by
  rfl

theorem list_emptyDirectory : emptyDirectory.list (.ofString "/c") = .ok [] := by
  cbv

theorem openAt_emptyDirectory (sizeLimit : Nat) :
    openAt (limitedConfig sizeLimit) emptyDirectory =
      (.ok (limitedCache sizeLimit), emptyDirectory) := by
  have hread : emptyDirectory.read ((Path.ofString "/c").join (.ofString indexName)) =
      .error .notFound := by
    rfl
  simp only [openAt, limitedConfig, makeDirectories_emptyDirectory, scan, indexPath, hread,
    list_emptyDirectory]
  rfl

end ScriptModules.Cache
