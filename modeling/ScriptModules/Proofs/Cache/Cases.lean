import ScriptModules.Cache.Basic

/-!
# What the operations of a cache come to

Each operation of a cache ends in one of a few ways, and they are told apart here, once for each
of them.  A lookup finds bytecode, or the entry is forgotten (`LooksUp`).  A store is skipped, or
fails, or notes what it wrote and evicts what is too much (`Stores`).  Asking for the bytecode of
a source is a lookup, after which a store may follow (`Obtains`).  The index is left as it is or
written (`Flushes`).

Eviction, clearing and scanning go on entry by entry.  What one entry leaves as it is, they leave
as it is (`evict_induct`, `clearNames_induct`, `scan_induct`).  A scan takes the names of the
directory in order, and what it comes to is built up along the entry files among them
(`scanNames_induct`).
-/

namespace ScriptModules.Cache

variable {cache : Cache} {fs : FileSystem} {fingerprint : Fingerprint} {engine : String}

/-! ## Removing -/

theorem counters_forget (cache : Cache) (fingerprint : Fingerprint) :
    (cache.forget fingerprint).counters = cache.counters := by
  unfold forget
  split <;> rfl

/-- The cache after a removal, whether or not a file could be deleted. -/
theorem remove_cache (cache : Cache) (fs : FileSystem) (fingerprint : Fingerprint) :
    (cache.remove fs fingerprint).2.1 = cache.forget fingerprint := by
  unfold remove
  split <;> rfl

/-- What holds of a cache and its files, and goes on holding when an entry is removed, holds after
evicting.  The induction is on the rounds. -/
theorem evict_induct {motive : Cache → FileSystem → Prop}
    (removes : ∀ cache fs victim evictions, motive cache fs →
      motive { cache.forget victim with counters := { cache.counters with evictions } }
        (cache.remove fs victim).2.2)
    (rounds : Nat) (h : motive cache fs) :
    motive (evict rounds cache fs).1 (evict rounds cache fs).2 := by
  induction rounds generalizing cache fs with
  | zero => exact h
  | succ rounds ih =>
      rw [evict]
      split
      · exact h
      · split
        · exact h
        · rename_i victim _
          have hremoved := removes cache fs victim
            ((cache.remove fs victim).2.1.counters.evictions +
              if (cache.remove fs victim).1 then 1 else 0) h
          rw [← counters_forget cache victim, ← remove_cache cache fs victim] at hremoved
          exact ih hremoved

/-- Clearing deletes files one after the other. -/
theorem clearNames_induct {motive : FileSystem → Prop}
    (removes : ∀ fs after path, fs.removeFile path = .ok after → motive fs → motive after)
    (names : List Name) (h : motive fs) : motive (cache.clearNames names fs).2 := by
  induction names generalizing fs with
  | nil => exact h
  | cons name names ih =>
      rw [clearNames]
      split
      · split
        · rename_i after hremove
          exact ih (removes fs after _ hremove h)
        · exact ih h
      · exact ih h

/-! ## Looking up -/

theorem counters_noteHit (cache : Cache) (fs : FileSystem) (fingerprint : Fingerprint)
    (size : Nat) : (cache.noteHit fs fingerprint size).1.counters = cache.counters := by
  simp only [noteHit]
  split <;> rfl

theorem noteHit_files (cache : Cache) (fs : FileSystem) (fingerprint : Fingerprint)
    (size : Nat) : (cache.noteHit fs fingerprint size).2 = fs.tick.2 := by
  simp only [noteHit]
  split <;> rfl

/-- What a lookup comes to. -/
inductive LooksUp (cache : Cache) (fs : FileSystem) (fingerprint : Fingerprint)
    (engine : String) : Option Bytes × Cache × FileSystem → Prop where
  | finds {payload : Bytes} {size : Nat}
      (h : cache.readFile fs fingerprint engine = .bytecode payload size) :
      LooksUp cache fs fingerprint engine (some payload,
        { (cache.noteHit fs fingerprint size).1 with
          counters := { cache.counters with hits := cache.counters.hits + 1 } }, fs.tick.2)
  | misses (h : cache.readFile fs fingerprint engine = .missing) :
      LooksUp cache fs fingerprint engine (none,
        { cache.forget fingerprint with
          counters := { cache.counters with misses := cache.counters.misses + 1 } }, fs)
  /-- A file that cannot be used is deleted. -/
  | drops (h : cache.readFile fs fingerprint engine = .unusable) :
      LooksUp cache fs fingerprint engine (none,
        { cache.forget fingerprint with
          counters :=
            { cache.counters with
              misses := cache.counters.misses + 1
              errors := cache.counters.errors + 1 } }, (cache.remove fs fingerprint).2.2)

theorem looksUp (cache : Cache) (fs : FileSystem) (fingerprint : Fingerprint) (engine : String) :
    LooksUp cache fs fingerprint engine (cache.lookup fs fingerprint engine) := by
  unfold lookup
  split
  · rename_i payload size hread
    simp only [counters_noteHit, noteHit_files]
    exact .finds hread
  · rename_i hread
    simp only [counters_forget]
    exact .misses hread
  · rename_i hread
    simp only [remove_cache, counters_forget]
    exact .drops hread

/-! ## Storing -/

/-- What a store comes to. -/
inductive Stores (cache : Cache) (fs : FileSystem) (fingerprint : Fingerprint) (engine : String)
    (bytecode : Bytes) : Cache × FileSystem → Prop where
  /-- The file would be larger than the limit. -/
  | skips (h : cache.sizeLimit < (Entry.encode sha256 fingerprint engine bytecode).length) :
      Stores cache fs fingerprint engine bytecode (cache, fs)
  | fails {e : FileSystem.ReplaceError}
      (hf : (Entry.encode sha256 fingerprint engine bytecode).length ≤ cache.sizeLimit)
      (hr : fs.replaceFile cache.directory (cache.entryPath fingerprint)
        (Entry.encode sha256 fingerprint engine bytecode) = .error e) :
      Stores cache fs fingerprint engine bytecode
        ({ cache with counters.errors := cache.counters.errors + 1 }, fs)
  | writes {written : FileSystem}
      (hf : (Entry.encode sha256 fingerprint engine bytecode).length ≤ cache.sizeLimit)
      (hr : fs.replaceFile cache.directory (cache.entryPath fingerprint)
        (Entry.encode sha256 fingerprint engine bytecode) = .ok written) :
      Stores cache fs fingerprint engine bytecode
        ((cache.noteStored written fingerprint
          (Entry.encode sha256 fingerprint engine bytecode).length).1.enforceLimit written.tick.2)

theorem stores (cache : Cache) (fs : FileSystem) (fingerprint : Fingerprint) (engine : String)
    (bytecode : Bytes) : Stores cache fs fingerprint engine bytecode
      (cache.store fs fingerprint engine bytecode) := by
  simp only [store]
  split
  · rename_i hlarge
    exact .skips hlarge
  · rename_i hfits
    split
    · rename_i hreplace
      exact .fails (Nat.le_of_not_lt hfits) hreplace
    · rename_i written hreplace
      exact .writes (Nat.le_of_not_lt hfits) hreplace

/-- What asking for the bytecode of a source leaves behind. -/
inductive Obtains (cache : Cache) (fs : FileSystem) (source : Bytes) (engine : String)
    (options : CompileOptions) (compile : Bytes → CompileOptions → Except CompileError Bytes) :
    Cache × FileSystem → Prop where
  | looksUp : Obtains cache fs source engine options compile
      (cache.lookup fs (cache.fingerprintOf source engine options) engine).2
  /-- Nothing was found, and what the compiler made is stored. -/
  | stores {missed : Cache} {files : FileSystem} {bytecode : Bytes}
      (hl : cache.lookup fs (cache.fingerprintOf source engine options) engine =
        (none, missed, files))
      (hc : compile source options = .ok bytecode) :
      Obtains cache fs source engine options compile
        (missed.store files (cache.fingerprintOf source engine options) engine bytecode)

theorem obtains (cache : Cache) (fs : FileSystem) (source : Bytes) (engine : String)
    (options : CompileOptions) (compile : Bytes → CompileOptions → Except CompileError Bytes) :
    Obtains cache fs source engine options compile
      (cache.getOrCompile fs source engine options compile).2 := by
  have hlooksUp : Obtains cache fs source engine options compile _ := .looksUp
  unfold getOrCompile
  simp only
  split
  · rename_i hfound
    rw [hfound] at hlooksUp
    exact hlooksUp
  · rename_i hmissed
    rw [hmissed] at hlooksUp
    split
    · exact hlooksUp
    · rename_i bytecode hcompile
      exact .stores hmissed hcompile

/-! ## Writing the index -/

/-- What writing the index leaves behind. -/
inductive Flushes (cache : Cache) (fs : FileSystem) : Cache × FileSystem → Prop where
  /-- The index is up to date, or it cannot be written. -/
  | rests (h : cache.dirty = true → ∀ written, fs.replaceFile cache.directory cache.indexPath
      (Bytes.ofText cache.index.render) ≠ .ok written) : Flushes cache fs (cache, fs)
  | writes {written : FileSystem} (hd : cache.dirty = true)
      (hr : fs.replaceFile cache.directory cache.indexPath (Bytes.ofText cache.index.render) =
        .ok written) : Flushes cache fs ({ cache with dirty := false }, written)

theorem flushes (cache : Cache) (fs : FileSystem) : Flushes cache fs (cache.flush fs).2 := by
  unfold flush
  split
  · rename_i hclean
    exact .rests fun hdirty => by simp [hdirty] at hclean
  · rename_i hdirty
    simp only
    split
    · rename_i written hreplace
      exact .writes (by simpa using hdirty) hreplace
    all_goals
      rename_i hfails
      exact .rests fun _ written hreplace => by cases hfails.symm.trans hreplace

/-! ## Opening -/

/-- What taking in one file of the directory comes to. -/
inductive TakesIn (index : Index) (scan : Scan) (name : Name) : Scan → Prop where
  /-- What a broken write left behind is deleted. -/
  | deletes {after : FileSystem}
      (h : scan.fs.removeFile (scan.cache.directory.join ⟨name⟩) = .ok after) :
      TakesIn index scan name { scan with fs := after }
  | passes : TakesIn index scan name scan
  /-- An entry is noted, as the index has it or as its file says. -/
  | notes {fingerprint : Fingerprint} {status : FileSystem.Status} (entry : EntryMeta)
      (dirty : Bool) (hn : fingerprintOfName? name = some fingerprint)
      (hs : scan.fs.status (scan.cache.directory.join ⟨name⟩) = some status)
      (he : index.lookup fingerprint.toHex = some entry ∨ entry.sequence = 0) :
      TakesIn index scan name
        { cache :=
            { scan.cache.note fingerprint entry with
              clock := max scan.cache.clock entry.sequence
              currentSize := scan.cache.currentSize + status.size
              dirty }
          fs := scan.fs
          found := fingerprint.toHex :: scan.found }

theorem takesIn (index : Index) (scan : Scan) (name : Name) :
    TakesIn index scan name (scanName index scan name) := by
  simp only [scanName]
  split
  · cases hremove : scan.fs.removeFile (scan.cache.directory.join ⟨name⟩) with
    | ok after => exact .deletes hremove
    | error e => exact .passes
  · split
    · rename_i fingerprint status hname hstatus
      refine .notes _ _ hname hstatus ?_
      cases hindexed : (if scan.found.contains fingerprint.toHex then none
          else index.lookup fingerprint.toHex) with
      | none => exact Or.inr rfl
      | some entry =>
          rw [Option.filter_some]
          split
          · split at hindexed
            · cases hindexed
            · exact Or.inl hindexed
          · exact Or.inr rfl
    · exact .passes

/-- The entry files a scan comes upon, as it finds them. -/
def sightings (directory : Path) :
    List Name → FileSystem → List (Fingerprint × FileSystem.Status)
  | [], _ => []
  | name :: names, fs =>
    let path := directory.join ⟨name⟩
    if (Bytes.ofText temporaryPrefix).isPrefixOf name then
      sightings directory names ((fs.removeFile path).toOption.getD fs)
    else match fingerprintOfName? name, fs.status path with
      | some fingerprint, some status => (fingerprint, status) :: sightings directory names fs
      | _, _ => sightings directory names fs

/-- A scan takes in the entry files of its list, in order.  The induction is on the names left;
`seen` holds what was taken in before. -/
theorem scanNames_induct {motive : List (Fingerprint × FileSystem.Status) → Scan → Prop}
    (index : Index)
    (deletes : ∀ seen scan after, motive seen scan → motive seen { scan with fs := after })
    (notes : ∀ seen scan name fingerprint status, motive seen scan →
      ¬ (Bytes.ofText temporaryPrefix).isPrefixOf name →
        fingerprintOfName? name = some fingerprint →
          scan.fs.status (scan.cache.directory.join ⟨name⟩) = some status →
            motive ((fingerprint, status) :: seen) (scanName index scan name))
    (names : List Name) {scan : Scan} {seen : List (Fingerprint × FileSystem.Status)}
    (h : motive seen scan) :
    motive ((sightings scan.cache.directory names scan.fs).reverse ++ seen)
      (names.foldl (scanName index) scan) := by
  induction names generalizing scan seen with
  | nil => exact h
  | cons name names ih =>
      rw [List.foldl_cons, sightings]
      by_cases ht : (Bytes.ofText temporaryPrefix).isPrefixOf name
      · have hnext : scanName index scan name = { scan with
            fs :=
              (scan.fs.removeFile (scan.cache.directory.join ⟨name⟩)).toOption.getD scan.fs } := by
          rw [scanName, if_pos ht]
        have hall := ih (deletes seen scan
          ((scan.fs.removeFile (scan.cache.directory.join ⟨name⟩)).toOption.getD scan.fs) h)
        rw [if_pos ht, hnext]
        exact hall
      · rw [if_neg ht]
        cases hn : fingerprintOfName? name with
        | none =>
            have hnext : scanName index scan name = scan := by rw [scanName, if_neg ht, hn]
            rw [hnext]
            exact ih h
        | some fingerprint =>
            cases hs : scan.fs.status (scan.cache.directory.join ⟨name⟩) with
            | none =>
                have hnext : scanName index scan name = scan := by rw [scanName, if_neg ht, hn, hs]
                rw [hnext]
                exact ih h
            | some status =>
                have hkept : (scanName index scan name).cache.directory = scan.cache.directory ∧
                    (scanName index scan name).fs = scan.fs := by
                  rw [scanName, if_neg ht, hn, hs]
                  exact ⟨rfl, rfl⟩
                have hall := ih (notes seen scan name fingerprint status h ht hn hs)
                rw [hkept.1, hkept.2] at hall
                rw [List.reverse_cons, List.append_assoc]
                exact hall

/-- The index in a directory; an empty one if it cannot be read. -/
def indexAt (directory : Path) (fs : FileSystem) : Index :=
  match fs.read (directory.join (.ofString indexName)) with
  | .ok content => Index.read content
  | .error _ => []

/-- What a scan comes to, where the directory can be listed. -/
theorem scan_of_list {names : List Name} (hl : fs.list cache.directory = .ok names) :
    let scan := names.foldl (scanName (indexAt cache.directory fs)) { cache, fs, found := [] }
    cache.scan fs = .ok
      ({ scan.cache with
          dirty := scan.cache.dirty || (indexAt cache.directory fs).holdsBesides scan.found },
        scan.fs) := by
  unfold scan
  rw [hl]
  rfl

theorem list_of_scan {found : Cache} {after : FileSystem}
    (h : cache.scan fs = .ok (found, after)) : ∃ names, fs.list cache.directory = .ok names := by
  cases hl : fs.list cache.directory with
  | ok names => exact ⟨names, rfl⟩
  | error cause =>
      unfold scan at h
      rw [hl] at h
      cases h

/-- What holds before a scan, and goes on holding when a file is taken in, holds of what the scan
finds. -/
theorem scan_induct {motive : Cache → FileSystem → Prop} {found : Cache} {after : FileSystem}
    (h : cache.scan fs = .ok (found, after)) (start : motive cache fs)
    (takesIn : ∀ scan name next, motive scan.cache scan.fs →
      TakesIn (indexAt cache.directory fs) scan name next → motive next.cache next.fs)
    (dirty : ∀ cache fs dirty, motive cache fs → motive { cache with dirty } fs) :
    motive found after := by
  obtain ⟨names, hl⟩ := list_of_scan h
  rw [scan_of_list hl] at h
  have hall : ∀ (names : List Name) (scan : Scan), motive scan.cache scan.fs →
      motive (names.foldl (scanName (indexAt cache.directory fs)) scan).cache
        (names.foldl (scanName (indexAt cache.directory fs)) scan).fs := by
    intro names
    induction names with
    | nil => exact fun scan hscan => hscan
    | cons name names ih =>
        exact fun scan hscan => ih _ (takesIn scan name _ hscan (Cache.takesIn _ scan name))
  cases h
  exact dirty _ _ _ (hall names { cache, fs, found := [] } start)

end ScriptModules.Cache
