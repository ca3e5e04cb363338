import Mathlib
import ScriptModules.Proofs.Cache.Naming
import ScriptModules.Proofs.Cache.Transparency
import ScriptModules.Proofs.Files.Shelf

/-!
# A cache alone with its directory

Where nobody else writes to the directory of a cache, the directory is a table of files
(`FileSystem.Shelf`), and whatever the cache is asked comes to few kinds of moves on the table
and on what the cache knows (`Keeping.Moves`): it forgets an entry and its file, notes a hit,
notes an entry that it wrote, writes its index, or clears all.  So a property of the cache and
its files has to be checked for each move only.

A journal goes along.  It tells what was last written under each fingerprint, and how often
entries were accessed.
-/

namespace ScriptModules.Cache

open FileSystem (Files Shelf)
open ScriptModules.Path (IsPiece)
open Relation (ReflTransGen)

/-! ## Names -/

/-- The name of the file of an entry. -/
abbrev nameOf (fingerprint : Fingerprint) : Name :=
  Bytes.ofText (entryName fingerprint)

/-- The name of the file of the index. -/
abbrev indexFile : Name :=
  Bytes.ofText indexName

theorem isPiece_indexFile : IsPiece indexFile := by
  constructor <;> decide +kernel

theorem indexFile_ne (fingerprint : Fingerprint) : indexFile ≠ nameOf fingerprint := by
  intro heq
  have hlength : indexFile.length = 68 := heq ▸ length_entryName fingerprint
  exact absurd hlength (by decide +kernel)

theorem fingerprintOfName?_indexFile : fingerprintOfName? indexFile = none := by
  decide +kernel

/-- No name of an entry, and not that of the index, is that of a temporary file. -/
theorem not_isTemporary {name : Name}
    (h : name = indexFile ∨ ∃ fingerprint, name = nameOf fingerprint) :
    ¬ (Bytes.ofText temporaryPrefix).isPrefixOf name = true := by
  intro htemporary
  have hpoint : name.head? = some 0x2E := by
    obtain ⟨rest, rfl⟩ := List.isPrefixOf_iff_prefix.mp htemporary
    rfl
  rcases h with rfl | ⟨fingerprint, rfl⟩
  · exact absurd hpoint (by decide +kernel)
  · have hdigits := Digest.ofText_toHex fingerprint
    have hsplit : nameOf fingerprint = _ := ofText_entryName fingerprint
    rw [hsplit, List.head?_append] at hpoint
    cases hhex : Bytes.ofText fingerprint.toHex with
    | nil =>
        rw [hhex] at hdigits
        cases hdigits.1
    | cons digit rest =>
        rw [hhex] at hpoint hdigits
        obtain rfl : digit = 0x2E := by simpa using hpoint
        exact absurd (hdigits.2 _ List.mem_cons_self) (by decide)

/-! ## The journal -/

/-- What a cache has done: the engine and the bytecode last written under each fingerprint, and
the number of accesses. -/
structure Journal where
  written : Fingerprint → Option (String × Bytes) := fun _ => none
  accesses : Nat := 0

/-- What an action writes, if it writes. -/
def Action.brings? (cache : Cache) : Action → Option (Fingerprint × String × Bytes)
  | .store fingerprint engine bytecode => some (fingerprint, engine, bytecode)
  | .getOrCompile source engine options compile =>
    match compile source options with
    | .ok bytecode => some (cache.fingerprintOf source engine options, engine, bytecode)
    | .error _ => none
  | .lookup .. | .remove _ | .clear | .flush => none

/-- The journal after something was done that may have brought bytecode.  The counters tell
whether it was written. -/
def Journal.after (journal : Journal) (brought : Option (Fingerprint × String × Bytes))
    (before after : CacheCounters) : Journal :=
  { written := match brought with
      | some (fingerprint, entry) =>
        if before.writes < after.writes then
          Function.update journal.written fingerprint (some entry)
        else journal.written
      | none => journal.written
    accesses := journal.accesses + (after.hits - before.hits) + (after.writes - before.writes) }

/-! ## Moves -/

/-- A cache with the files of its directory and the journal. -/
structure Keeping where
  cache : Cache
  files : Files
  journal : Journal

/-- What a cache alone with its directory can do, while the clock reads at most `limit`. -/
inductive Keeping.Moves (limit : Nat) : Keeping → Keeping → Prop where
  | counts (k : Keeping) (counters : CacheCounters) :
      Moves limit k { k with cache := { k.cache with counters } }
  | forgets (k : Keeping) (fingerprint : Fingerprint) :
      Moves limit k
        { k with
          cache := k.cache.forget fingerprint
          files := Function.update k.files (nameOf fingerprint) none }
  | hits (k : Keeping) {fs : FileSystem} (hc : fs.clock < limit) {fingerprint : Fingerprint}
      {file : Bytes} {time : Timestamp} (hf : k.files (nameOf fingerprint) = some (file, time)) :
      Moves limit k
        { k with
          cache := (k.cache.noteHit fs fingerprint file.length).1
          journal := { k.journal with accesses := k.journal.accesses + 1 } }
  | stores (k : Keeping) {fs : FileSystem} (hc : fs.clock < limit) (fingerprint : Fingerprint)
      (engine : String) (bytecode : Bytes) (time : Timestamp)
      (hle : (Entry.encode sha256 fingerprint engine bytecode).length ≤ k.cache.sizeLimit) :
      Moves limit k
        { cache := (k.cache.noteStored fs fingerprint
            (Entry.encode sha256 fingerprint engine bytecode).length).1
          files := Function.update k.files (nameOf fingerprint)
            (some (Entry.encode sha256 fingerprint engine bytecode, time))
          journal :=
            { written := Function.update k.journal.written fingerprint (some (engine, bytecode))
              accesses := k.journal.accesses + 1 } }
  | indexes (k : Keeping) (time : Timestamp) (hd : k.cache.dirty = true) :
      Moves limit k
        { k with
          cache := { k.cache with dirty := false }
          files := Function.update k.files indexFile
            (some (Bytes.ofText k.cache.index.render, time)) }
  | clears (k : Keeping) :
      Moves limit k
        { k with
          cache := { k.cache with entries := [], currentSize := 0, dirty := true }
          files := fun name => if (fingerprintOfName? name).isSome then none else k.files name }

/-- The clock may read more. -/
theorem Keeping.Moves.mono {limit more : Nat} (hle : limit ≤ more) {k k' : Keeping}
    (h : k.Moves limit k') : k.Moves more k' := by
  cases h with
  | counts counters => exact .counts k counters
  | forgets fingerprint => exact .forgets k fingerprint
  | hits hc hf => exact .hits k (Nat.lt_of_lt_of_le hc hle) hf
  | stores hc fingerprint engine bytecode time hfits =>
      exact .stores k (Nat.lt_of_lt_of_le hc hle) fingerprint engine bytecode time hfits
  | indexes time hd => exact .indexes k time hd
  | clears => exact .clears k

/-- No move changes the settings. -/
theorem Keeping.Moves.settings {limit : Nat} {k k' : Keeping} (h : k.Moves limit k') :
    k'.cache.settings = k.cache.settings := by
  cases h with
  | counts counters => rfl
  | forgets fingerprint => exact settings_forget k.cache fingerprint
  | hits hc hf => exact settings_noteHit k.cache _ _ _
  | stores hc fingerprint engine bytecode time hfits => rfl
  | indexes time hd => rfl
  | clears => rfl

theorem settings_of_moves {limit : Nat} {k k' : Keeping}
    (h : ReflTransGen (Keeping.Moves limit) k k') : k'.cache.settings = k.cache.settings := by
  induction h with
  | refl => rfl
  | tail _ hmove ih => exact hmove.settings.trans ih

theorem moves_mono {limit more : Nat} (hle : limit ≤ more) {k k' : Keeping}
    (h : ReflTransGen (Keeping.Moves limit) k k') : ReflTransGen (Keeping.Moves more) k k' := by
  induction h with
  | refl => exact .refl
  | tail _ hmove ih => exact ih.tail (hmove.mono hle)

/-- Forgetting an entry without a file is a move. -/
theorem Keeping.Moves.forgets_of_none {limit : Nat} {cache : Cache} {files : Files}
    {journal : Journal} {fingerprint : Fingerprint} (h : files (nameOf fingerprint) = none) :
    Keeping.Moves limit ⟨cache, files, journal⟩ ⟨cache.forget fingerprint, files, journal⟩ := by
  have hsame : Function.update files (nameOf fingerprint) none = files := by
    rw [← h, Function.update_eq_self]
  have hmove : Keeping.Moves limit ⟨cache, files, journal⟩
      ⟨cache.forget fingerprint, Function.update files (nameOf fingerprint) none, journal⟩ :=
    .forgets ⟨cache, files, journal⟩ fingerprint
  rwa [hsame] at hmove

/-! ## Turns -/

/-- A cache over a file system, and its journal. -/
structure Site where
  cache : Cache
  fs : FileSystem
  journal : Journal

/-- Seen from its directory, a cache does moves only, and what could be written still can. -/
structure Site.Turns (directory : Path) (place : Location) (site next : Site) : Prop where
  clock : site.fs.clock ≤ next.fs.clock
  moves : site.cache.directory = directory → ∀ files, Shelf directory place files site.fs →
    ∃ others, Shelf directory place others next.fs ∧
      (∀ name, site.fs.Admits directory place name → next.fs.Admits directory place name) ∧
        ReflTransGen (Keeping.Moves next.fs.clock) ⟨site.cache, files, site.journal⟩
          ⟨next.cache, others, next.journal⟩

variable {directory : Path} {place : Location} {cache : Cache} {fs after : FileSystem}
  {journal : Journal}

theorem Site.Turns.refl (site : Site) : site.Turns directory place site :=
  ⟨Nat.le_refl _, fun _ files hs => ⟨files, hs, fun _ => id, .refl⟩⟩

theorem Site.Turns.trans {site middle next : Site} (h : site.Turns directory place middle)
    (h' : middle.Turns directory place next) : site.Turns directory place next := by
  refine ⟨h.clock.trans h'.clock, fun hd files hs => ?_⟩
  obtain ⟨others, hs, hadmits, hmoves⟩ := h.moves hd files hs
  have hsettings := settings_of_moves hmoves
  have hd' : middle.cache.directory = directory := (place_eq_of_settings_eq hsettings).1.trans hd
  obtain ⟨last, hs, hadmits', hmoves'⟩ := h'.moves hd' others hs
  exact ⟨last, hs, fun name ha => hadmits' name (hadmits name ha),
    (moves_mono h'.clock hmoves).trans hmoves'⟩

/-- Counting is a move. -/
theorem turns_counts (counters : CacheCounters) :
    Site.Turns directory place ⟨cache, fs, journal⟩ ⟨{ cache with counters }, fs, journal⟩ :=
  ⟨Nat.le_refl _, fun _ files hs => ⟨files, hs, fun _ => id,
    .single (.counts ⟨cache, files, journal⟩ counters)⟩⟩

/-! ## Removing -/

theorem clock_of_removeFile {path : Path} (h : fs.removeFile path = .ok after) :
    after.clock = fs.clock := by
  obtain ⟨location, -, -, rfl⟩ := FileSystem.removeFile_eq_ok h
  rfl

theorem turns_remove (fingerprint : Fingerprint) : Site.Turns directory place
    ⟨cache, fs, journal⟩
    ⟨cache.forget fingerprint, (cache.remove fs fingerprint).2.2, journal⟩ := by
  have hname := isPiece_entryName fingerprint
  cases hremove : fs.removeFile (cache.entryPath fingerprint) with
  | ok after =>
      simp only [remove, hremove]
      refine ⟨(clock_of_removeFile hremove).ge, fun hd files hs => ?_⟩
      rw [entryPath, hd] at hremove
      obtain ⟨hs', hadmits⟩ := hs.removeFile hname hremove
      exact ⟨_, hs', hadmits, .single (.forgets ⟨cache, files, journal⟩ fingerprint)⟩
  | error e =>
      simp only [remove, hremove]
      refine ⟨Nat.le_refl _, fun hd files hs => ?_⟩
      have hnone : files (nameOf fingerprint) = none := by
        by_contra hsome
        obtain ⟨after, hok⟩ := (hs.exists_removeFile_iff hname).mpr hsome
        have herror : fs.removeFile (directory.join ⟨nameOf fingerprint⟩) = .error e := hd ▸ hremove
        exact absurd (herror.symm.trans hok) (by simp)
      exact ⟨files, hs, fun _ => id, .single (.forgets_of_none hnone)⟩

theorem turns_evict (rounds : Nat) (cache : Cache) (fs : FileSystem) :
    Site.Turns directory place ⟨cache, fs, journal⟩
      ⟨(evict rounds cache fs).1, (evict rounds cache fs).2, journal⟩ :=
  evict_induct (motive := fun next files =>
      Site.Turns directory place ⟨cache, fs, journal⟩ ⟨next, files, journal⟩)
    (fun _ _ victim _ h => h.trans ((turns_remove victim).trans (turns_counts _))) rounds (.refl _)

theorem turns_enforceLimit (cache : Cache) (fs : FileSystem) :
    Site.Turns directory place ⟨cache, fs, journal⟩
      ⟨(cache.enforceLimit fs).1, (cache.enforceLimit fs).2, journal⟩ :=
  turns_evict cache.size cache fs

/-! ## Counters -/

/-- Evicting neither hits nor writes. -/
theorem counters_evict (rounds : Nat) (cache : Cache) (fs : FileSystem) :
    (evict rounds cache fs).1.counters.hits = cache.counters.hits ∧
      (evict rounds cache fs).1.counters.writes = cache.counters.writes :=
  evict_induct (motive := fun next _ => next.counters.hits = cache.counters.hits ∧
      next.counters.writes = cache.counters.writes)
    (fun _ _ _ _ h => h) rounds ⟨rfl, rfl⟩

/-- What is neither a hit nor a write leaves the journal. -/
theorem Journal.after_of_eq (journal : Journal)
    (brought : Option (Fingerprint × String × Bytes)) {before counters : CacheCounters}
    (hh : counters.hits = before.hits) (hw : counters.writes = before.writes) :
    journal.after brought before counters = journal := by
  unfold Journal.after
  rw [hh, hw, Nat.sub_self, Nat.sub_self]
  cases brought with
  | none => rfl
  | some brought => simp

/-! ## Looking up -/

theorem readFile_eq_bytecode {fingerprint : Fingerprint} {engine : String} {payload : Bytes}
    {size : Nat} (h : cache.readFile fs fingerprint engine = .bytecode payload size) :
    ∃ file, fs.read (cache.entryPath fingerprint) = .ok file ∧ file.length = size := by
  unfold readFile at h
  split at h
  · cases h
  · cases h
  · rename_i file hread
    split at h
    · cases h
      exact ⟨file, hread, rfl⟩
    · cases h

theorem read_ne_ok_of_missing {fingerprint : Fingerprint} {engine : String}
    (h : cache.readFile fs fingerprint engine = .missing) (file : Bytes) :
    fs.read (cache.entryPath fingerprint) ≠ .ok file := by
  intro hread
  unfold readFile at h
  rw [hread] at h
  simp only at h
  split at h <;> cases h

theorem turns_lookup (fingerprint : Fingerprint) (engine : String) : Site.Turns directory place
    ⟨cache, fs, journal⟩
    ⟨(cache.lookup fs fingerprint engine).2.1, (cache.lookup fs fingerprint engine).2.2,
      journal.after none cache.counters (cache.lookup fs fingerprint engine).2.1.counters⟩ := by
  have hname := isPiece_entryName fingerprint
  have hlookup := cache.looksUp fs fingerprint engine
  generalize cache.lookup fs fingerprint engine = result at hlookup ⊢
  cases hlookup with
  | finds hreading =>
      obtain ⟨file, hread, rfl⟩ := readFile_eq_bytecode hreading
      have hjournal : journal.after none cache.counters
          { cache.counters with hits := cache.counters.hits + 1 } =
            { journal with accesses := journal.accesses + 1 } := by
        simp [Journal.after]
      simp only [hjournal]
      refine ⟨Nat.le_succ _, fun hd files hs => ?_⟩
      rw [entryPath, hd] at hread
      obtain ⟨time, hfile⟩ := hs.of_read hname hread
      refine ⟨files, hs.tick.1, hs.tick.2, ?_⟩
      have hmove : Keeping.Moves fs.tick.2.clock ⟨cache, files, journal⟩
          ⟨(cache.noteHit fs fingerprint file.length).1, files,
            { journal with accesses := journal.accesses + 1 }⟩ :=
        .hits ⟨cache, files, journal⟩ (Nat.lt_succ_self fs.clock) hfile
      exact .tail (.single hmove) (.counts _ _)
  | misses hreading =>
      rw [Journal.after_of_eq _ _ (by rfl) (by rfl)]
      refine ⟨Nat.le_refl _, fun hd files hs => ?_⟩
      have hnone : files (nameOf fingerprint) = none := by
        by_contra hsome
        obtain ⟨⟨file, time⟩, hfile⟩ := Option.ne_none_iff_exists'.mp hsome
        have hread := hs.read hfile
        refine read_ne_ok_of_missing hreading file ?_
        rw [entryPath, hd]
        exact hread
      exact ⟨files, hs, fun _ => id, .tail (.single (.forgets_of_none hnone)) (.counts _ _)⟩
  | drops hreading =>
      rw [Journal.after_of_eq _ _ (by rfl) (by rfl)]
      exact (turns_remove fingerprint).trans (turns_counts _)

/-! ## Storing -/

theorem clock_of_replaceFile {parent path : Path} {content : Bytes}
    (h : fs.replaceFile parent path content = .ok after) : after.clock = fs.clock + 1 := by
  unfold FileSystem.replaceFile at h
  split at h
  · cases h
  · split at h
    · cases h
    · split at h
      · rename_i hrename
        cases h
        obtain ⟨there, -, hrest⟩ := Outcome.of_bind_eq_ok hrename
        cases there with
        | directory => cases hrest
        | child parent name =>
            obtain ⟨-, heq⟩ := Outcome.of_guard_eq_ok hrest
            cases heq
            rfl
      · cases h
    · cases h

theorem turns_store (fingerprint : Fingerprint) (engine : String) (bytecode : Bytes) :
    Site.Turns directory place ⟨cache, fs, journal⟩
      ⟨(cache.store fs fingerprint engine bytecode).1,
        (cache.store fs fingerprint engine bytecode).2,
        journal.after (some (fingerprint, engine, bytecode)) cache.counters
          (cache.store fs fingerprint engine bytecode).1.counters⟩ := by
  have hname := isPiece_entryName fingerprint
  have hstore := cache.stores fs fingerprint engine bytecode
  generalize cache.store fs fingerprint engine bytecode = result at hstore ⊢
  cases hstore with
  | skips _ =>
      rw [Journal.after_of_eq _ _ (by rfl) (by rfl)]
      exact .refl _
  | fails _ _ =>
      rw [Journal.after_of_eq _ _ (by rfl) (by rfl)]
      exact turns_counts _
  | @writes written hfits hreplace =>
      have hwrites := counters_evict (cache.noteStored written fingerprint
        (Entry.encode sha256 fingerprint engine bytecode).length).1.size
        (cache.noteStored written fingerprint
          (Entry.encode sha256 fingerprint engine bytecode).length).1 written.tick.2
      have hjournal : journal.after (some (fingerprint, engine, bytecode)) cache.counters
          ((cache.noteStored written fingerprint
            (Entry.encode sha256 fingerprint engine bytecode).length).1.enforceLimit
              written.tick.2).1.counters =
            { written := Function.update journal.written fingerprint (some (engine, bytecode))
              accesses := journal.accesses + 1 } := by
        simp only [Journal.after, enforceLimit, hwrites.1, hwrites.2]
        simp [noteStored, note, tick]
      rw [hjournal]
      refine .trans ?_ (turns_enforceLimit _ _)
      have hclock := clock_of_replaceFile hreplace
      refine ⟨?_, fun hd files hs => ?_⟩
      · show fs.clock ≤ written.clock + 1
        omega
      · rw [entryPath, hd] at hreplace
        obtain ⟨hs', hadmits⟩ := hs.replaceFile hname hreplace
        exact ⟨_, hs'.tick.1, fun name ha => hs'.tick.2 name (hadmits name ha),
          .single (.stores ⟨cache, files, journal⟩ (Nat.lt_succ_self written.clock) fingerprint
            engine bytecode fs.tick.1 hfits)⟩

/-! ## Compiling -/

/-- Where nothing is written, it does not matter what would have been. -/
theorem Journal.after_of_writes_eq (journal : Journal)
    (brought : Option (Fingerprint × String × Bytes)) {before counters : CacheCounters}
    (hw : counters.writes = before.writes) :
    journal.after brought before counters = journal.after none before counters := by
  cases brought with
  | none => rfl
  | some brought => simp [Journal.after, hw]

/-- Only the counts of hits and writes before matter. -/
theorem Journal.after_congr (journal : Journal)
    (brought : Option (Fingerprint × String × Bytes)) {before other : CacheCounters}
    (counters : CacheCounters) (hh : before.hits = other.hits) (hw : before.writes = other.writes) :
    journal.after brought before counters = journal.after brought other counters := by
  unfold Journal.after
  rw [hh, hw]

/-- Looking up writes nothing, and counts as a hit only what it finds. -/
theorem counters_lookup (cache : Cache) (fs : FileSystem) (fingerprint : Fingerprint)
    (engine : String) :
    (cache.lookup fs fingerprint engine).2.1.counters.writes = cache.counters.writes ∧
      ((cache.lookup fs fingerprint engine).1 = none →
        (cache.lookup fs fingerprint engine).2.1.counters.hits = cache.counters.hits) := by
  have hlookup := cache.looksUp fs fingerprint engine
  generalize cache.lookup fs fingerprint engine = result at hlookup ⊢
  cases hlookup with
  | finds _ => exact ⟨rfl, nofun⟩
  | misses _ => exact ⟨rfl, fun _ => rfl⟩
  | drops _ => exact ⟨rfl, fun _ => rfl⟩

theorem turns_getOrCompile (source : Bytes) (engine : String) (options : CompileOptions)
    (compile : Bytes → CompileOptions → Except CompileError Bytes) :
    Site.Turns directory place ⟨cache, fs, journal⟩
      ⟨(cache.getOrCompile fs source engine options compile).2.1,
        (cache.getOrCompile fs source engine options compile).2.2,
        journal.after ((Action.getOrCompile source engine options compile).brings? cache)
          cache.counters (cache.getOrCompile fs source engine options compile).2.1.counters⟩ := by
  have hlookup := @turns_lookup directory place cache fs journal
    (cache.fingerprintOf source engine options) engine
  have hcounters := counters_lookup cache fs (cache.fingerprintOf source engine options) engine
  have hobtains := cache.obtains fs source engine options compile
  generalize (cache.getOrCompile fs source engine options compile).2 = result at hobtains ⊢
  cases hobtains with
  | looksUp =>
      rw [Journal.after_of_writes_eq _ _ hcounters.1]
      exact hlookup
  | @stores missed middle bytecode hl hcompile =>
      rw [hl] at hlookup hcounters
      have hsame : journal.after none cache.counters missed.counters = journal :=
        Journal.after_of_eq _ _ (hcounters.2 rfl) hcounters.1
      simp only [hsame] at hlookup
      refine hlookup.trans ?_
      have hstore := @turns_store directory place missed middle journal
        (cache.fingerprintOf source engine options) engine bytecode
      rw [Journal.after_congr _ _ _ (hcounters.2 rfl) hcounters.1] at hstore
      simpa only [Action.brings?, hcompile] using hstore

/-! ## Writing the index -/

theorem counters_flush (cache : Cache) (fs : FileSystem) :
    (cache.flush fs).2.1.counters = cache.counters := by
  have hflush := cache.flushes fs
  generalize (cache.flush fs).2 = result at hflush ⊢
  cases hflush with
  | rests _ => rfl
  | writes _ _ => rfl

theorem turns_flush (cache : Cache) (fs : FileSystem) : Site.Turns directory place
    ⟨cache, fs, journal⟩ ⟨(cache.flush fs).2.1, (cache.flush fs).2.2, journal⟩ := by
  have hflush := cache.flushes fs
  generalize (cache.flush fs).2 = result at hflush ⊢
  cases hflush with
  | rests _ => exact .refl _
  | writes hdirty hreplace =>
      refine ⟨by have hclock := clock_of_replaceFile hreplace; simp only; omega,
        fun hd files hs => ?_⟩
      rw [indexPath, hd] at hreplace
      obtain ⟨hs', hadmits⟩ := hs.replaceFile isPiece_indexFile hreplace
      exact ⟨_, hs', hadmits, .single (.indexes ⟨cache, files, journal⟩ fs.tick.1 hdirty)⟩

/-! ## Clearing -/

/-- Files without those of a list that are named like entries. -/
def cleared (names : List Name) (files : Files) : Files := fun name =>
  if name ∈ names ∧ (fingerprintOfName? name).isSome then none else files name

theorem cleared_cons {name : Name} (names : List Name) (files : Files)
    (h : (fingerprintOfName? name).isSome = true) :
    cleared (name :: names) files =
      cleared names (Function.update files name none) := by
  funext other
  by_cases heq : other = name
  · subst heq
    simp [cleared, h]
  · simp [cleared, heq]

theorem cleared_cons_of_not {name : Name} (names : List Name) (files : Files)
    (h : ¬ (fingerprintOfName? name).isSome = true) :
    cleared (name :: names) files = cleared names files := by
  funext other
  by_cases heq : other = name
  · subst heq
    simp [cleared, h]
  · simp [cleared, heq]

/-- Clearing takes the files away that are named like entries. -/
theorem shelf_clearNames {files : Files} (names : List Name)
    (hs : Shelf directory place files fs) (hd : cache.directory = directory)
    (hn : ∀ name ∈ names, IsPiece name) :
    Shelf directory place (cleared names files) (cache.clearNames names fs).2 ∧
      ∀ name, fs.Admits directory place name →
        (cache.clearNames names fs).2.Admits directory place name := by
  induction names generalizing fs files with
  | nil =>
      have hall : cleared [] files = files := by
        funext name
        simp [cleared]
      exact ⟨hall.symm ▸ hs, fun _ => id⟩
  | cons name names ih =>
      obtain ⟨hname, hrest⟩ := List.forall_mem_cons.mp hn
      unfold clearNames
      split
      · rename_i hentry
        rw [cleared_cons names files hentry]
        split
        · rename_i after hremove
          rw [hd] at hremove
          obtain ⟨hs', hadmits⟩ := hs.removeFile hname hremove
          obtain ⟨hclear, hkept⟩ := ih hs' hrest
          exact ⟨hclear, fun other ha => hkept other (hadmits other ha)⟩
        · -- There was no such file.
          rename_i e hremove
          have hnone : files name = none := by
            by_contra hsome
            obtain ⟨after, hok⟩ := (hs.exists_removeFile_iff hname).mpr hsome
            rw [hd, hok] at hremove
            cases hremove
          rw [← hnone, Function.update_eq_self]
          exact ih hs hrest
      · rename_i hother
        rw [cleared_cons_of_not names files hother]
        exact ih hs hrest

theorem clock_clearNames (cache : Cache) (names : List Name) (fs : FileSystem) :
    (cache.clearNames names fs).2.clock = fs.clock :=
  clearNames_induct (motive := fun files => files.clock = fs.clock)
    (fun _ _ _ hremove h => (clock_of_removeFile hremove).trans h) names rfl

theorem turns_clear (cache : Cache) (fs : FileSystem) : Site.Turns directory place
    ⟨cache, fs, journal⟩ ⟨(cache.clear fs).2.1, (cache.clear fs).2.2, journal⟩ := by
  simp only [clear]
  refine .trans ?_ (turns_flush _ _)
  constructor
  · split
    · exact (clock_clearNames _ _ _).ge
    · exact Nat.le_refl _
  · intro hd files hs
    obtain ⟨names, hlist, -, hmem⟩ := hs.list
    have hlist' : fs.list cache.directory = .ok names := hd ▸ hlist
    simp only [hlist']
    obtain ⟨hcleared, hadmits⟩ := @shelf_clearNames directory place cache fs files names hs hd
      fun name hname => (hs.admits name ((hmem name).mp hname)).isPiece
    have hall : cleared names files =
        fun name => if (fingerprintOfName? name).isSome then none else files name := by
      funext name
      by_cases hnone : files name = none
      · simp [cleared, hnone]
      · simp [cleared, (hmem name).mpr hnone]
    rw [hall] at hcleared
    exact ⟨_, hcleared, hadmits, .single (.clears ⟨cache, files, journal⟩)⟩

/-! ## All actions -/

theorem counters_clear (cache : Cache) (fs : FileSystem) :
    (cache.clear fs).2.1.counters = cache.counters :=
  counters_flush { cache with entries := [], currentSize := 0, dirty := true } _

/-- Whatever a cache is asked, it does moves only. -/
theorem turns_perform (cache : Cache) (fs : FileSystem) (action : Action) :
    Site.Turns directory place ⟨cache, fs, journal⟩
      ⟨(cache.perform fs action).1, (cache.perform fs action).2,
        journal.after (action.brings? cache) cache.counters
          (cache.perform fs action).1.counters⟩ := by
  have hsame : ∀ other : Cache, other.counters = cache.counters →
      journal.after none cache.counters other.counters = journal := fun other h =>
    Journal.after_of_eq _ _ (by rw [h]) (by rw [h])
  cases action with
  | lookup source engine options =>
      simp only [perform, Action.brings?]
      exact turns_lookup (cache.fingerprintOf source engine options) engine
  | store fingerprint engine bytecode =>
      simp only [perform, Action.brings?]
      exact turns_store fingerprint engine bytecode
  | getOrCompile source engine options compile =>
      simp only [perform]
      exact turns_getOrCompile source engine options compile
  | remove fingerprint =>
      have hjournal := hsame (cache.forget fingerprint) (counters_forget cache fingerprint)
      simp only [perform, Action.brings?, remove_cache, hjournal]
      exact turns_remove fingerprint
  | clear =>
      have hjournal := hsame (cache.clear fs).2.1 (counters_clear cache fs)
      simp only [perform, Action.brings?, hjournal]
      exact turns_clear cache fs
  | flush =>
      have hjournal := hsame (cache.flush fs).2.1 (counters_flush cache fs)
      simp only [perform, Action.brings?, hjournal]
      exact turns_flush cache fs

end ScriptModules.Cache
