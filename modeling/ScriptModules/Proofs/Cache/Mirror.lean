import Mathlib
import ScriptModules.Proofs.Cache.Bound
import ScriptModules.Proofs.Cache.Recall
import ScriptModules.Proofs.Cache.Solitude

/-!
# What a cache knows and what its directory holds

A cache that nobody else disturbs knows exactly the entries whose files are in its directory,
each with the length of its file (`Mirrors`), and each file is the one that was last written
under its name (`Stocked`).  Every move keeps both, and a scan brings about the first from the
second.
-/

namespace ScriptModules.Cache

open FileSystem (Files Shelf)

variable {directory : Path} {place : Location} {cache : Cache} {fs : FileSystem}
  {journal : Journal} {files : Files} {fingerprint : Fingerprint}

/-! ## What is known of entries -/

theorem meta?_forget (cache : Cache) (fingerprint other : Fingerprint) :
    (cache.forget fingerprint).meta? other =
      if other = fingerprint then none else cache.meta? other := by
  have hfilter := Association.lookup_filter cache.entries (fun key => decide (key ≠ fingerprint))
    other
  rw [meta?, entries_forget, hfilter]
  by_cases heq : other = fingerprint <;> simp [meta?, heq]

theorem meta?_of_entries_eq_note {entry : EntryMeta} {after : Cache}
    (h : after.entries = (cache.note fingerprint entry).entries) (other : Fingerprint) :
    after.meta? other = if other = fingerprint then some entry else cache.meta? other := by
  have hentries : after.entries =
      cache.entries.filter (·.1 ≠ fingerprint) ++ [(fingerprint, entry)] := h
  have hfilter := Association.lookup_filter cache.entries (fun key => decide (key ≠ fingerprint))
    other
  rw [meta?, hentries, List.lookup_append, hfilter]
  by_cases heq : other = fingerprint
  · simp [heq]
  · have hne : (other == fingerprint) = false := beq_eq_false_iff_ne.mpr heq
    simp [heq, List.lookup_cons, hne, meta?]

/-- A hit leaves the size of a known entry, and gives it a number and a time. -/
theorem entries_noteHit (cache : Cache) (fs : FileSystem) (fingerprint : Fingerprint)
    (size : Nat) : ∃ entry : EntryMeta,
      (cache.noteHit fs fingerprint size).1.entries = (cache.note fingerprint entry).entries ∧
        entry.size = ((cache.meta? fingerprint).map (·.size)).getD size ∧
          entry.sequence = cache.tick.1 ∧ entry.lastAccess = fs.tick.1 := by
  simp only [noteHit]
  have hticked : cache.tick.2.meta? fingerprint = cache.meta? fingerprint := rfl
  split
  · rename_i entry hmeta
    rw [← hticked, hmeta]
    exact ⟨_, rfl, rfl, rfl, rfl⟩
  · rename_i hmeta
    rw [← hticked, hmeta]
    exact ⟨_, rfl, rfl, rfl, rfl⟩

theorem entries_noteStored (cache : Cache) (fs : FileSystem) (fingerprint : Fingerprint)
    (size : Nat) : (cache.noteStored fs fingerprint size).1.entries =
      (cache.note fingerprint
        { size, lastAccess := fs.tick.1, sequence := cache.tick.1, hits := 0 }).entries :=
  rfl

/-! ## Stock -/

/-- Every file is one that a cache writes, and that of an entry is what was last written under
its fingerprint. -/
structure Stocked (journal : Journal) (files : Files) : Prop where
  onlyKept : OnlyKept files
  content : ∀ fingerprint file, files (nameOf fingerprint) = some file →
    ∃ engine bytecode, journal.written fingerprint = some (engine, bytecode) ∧
      file.1 = Entry.encode sha256 fingerprint engine bytecode ∧ file.1.length < 2 ^ 64

/-- An entry's file has the size that is known of the entry, and all sizes are counted. -/
structure Mirrors (k : Keeping) : Prop where
  limit : k.cache.sizeLimit < 2 ^ 64
  stocked : Stocked k.journal k.files
  accounted : Accounted 0 k.cache
  sizes : ∀ fingerprint, (k.cache.meta? fingerprint).map (·.size) =
    (k.files (nameOf fingerprint)).map (·.1.length)

theorem OnlyKept.update (h : OnlyKept files) {name : Name}
    (hn : name = indexFile ∨ ∃ fingerprint, name = nameOf fingerprint)
    (file : Option (Bytes × Timestamp)) : OnlyKept (Function.update files name file) := by
  intro other hother
  by_cases heq : other = name
  · exact heq ▸ hn
  · rw [Function.update_of_ne heq] at hother
    exact h other hother

theorem update_nameOf (files : Files) (fingerprint other : Fingerprint)
    (file : Option (Bytes × Timestamp)) :
    Function.update files (nameOf fingerprint) file (nameOf other) =
      if other = fingerprint then file else files (nameOf other) := by
  by_cases heq : other = fingerprint
  · rw [if_pos heq, heq, Function.update_self]
  · rw [if_neg heq, Function.update_of_ne fun h => heq (entryName_inj h)]

theorem update_indexFile (files : Files) (fingerprint : Fingerprint)
    (file : Option (Bytes × Timestamp)) :
    Function.update files indexFile file (nameOf fingerprint) = files (nameOf fingerprint) :=
  Function.update_of_ne (indexFile_ne fingerprint).symm _ _

theorem Stocked.forget (h : Stocked journal files) (fingerprint : Fingerprint) :
    Stocked journal (Function.update files (nameOf fingerprint) none) := by
  refine ⟨h.onlyKept.update (Or.inr ⟨fingerprint, rfl⟩) none, fun other file hfile => ?_⟩
  rw [update_nameOf] at hfile
  split at hfile
  · cases hfile
  · exact h.content other file hfile

theorem Stocked.store (h : Stocked journal files) (fingerprint : Fingerprint) (engine : String)
    (bytecode : Bytes) (time : Timestamp) (accesses : Nat)
    (hl : (Entry.encode sha256 fingerprint engine bytecode).length < 2 ^ 64) :
    Stocked { written := Function.update journal.written fingerprint (some (engine, bytecode))
              accesses }
      (Function.update files (nameOf fingerprint)
        (some (Entry.encode sha256 fingerprint engine bytecode, time))) := by
  refine ⟨h.onlyKept.update (Or.inr ⟨fingerprint, rfl⟩) _, fun other file hfile => ?_⟩
  rw [update_nameOf] at hfile
  split at hfile
  · rename_i heq
    cases hfile
    subst heq
    exact ⟨engine, bytecode, Function.update_self .., rfl, hl⟩
  · rename_i hne
    obtain ⟨before, old, hwritten, hrest⟩ := h.content other file hfile
    exact ⟨before, old, (Function.update_of_ne hne ..).trans hwritten, hrest⟩

theorem Stocked.index (h : Stocked journal files) (file : Bytes × Timestamp) :
    Stocked journal (Function.update files indexFile (some file)) := by
  refine ⟨h.onlyKept.update (Or.inl rfl) _, fun fingerprint entry hentry => ?_⟩
  rw [update_indexFile] at hentry
  exact h.content fingerprint entry hentry

theorem Stocked.clear (h : Stocked journal files) :
    Stocked journal fun name => if (fingerprintOfName? name).isSome then none else files name := by
  constructor
  · intro name hname
    beta_reduce at hname
    split at hname
    · exact absurd rfl hname
    · exact h.onlyKept name hname
  · intro fingerprint file hfile
    rw [fingerprintOfName?_entryName] at hfile
    cases hfile

/-! ## What every move keeps -/

theorem Mirrors.move {now : Nat} {k k' : Keeping} (h : Mirrors k)
    (hm : Keeping.Moves now k k') : Mirrors k' := by
  have hlimit : k'.cache.sizeLimit < 2 ^ 64 := by
    have hsame : k'.cache.sizeLimit = k.cache.sizeLimit := congrArg (·.2.2) hm.settings
    exact hsame ▸ h.limit
  cases hm with
  | counts counters => exact ⟨hlimit, h.stocked, h.accounted.of_eq rfl rfl, h.sizes⟩
  | forgets fingerprint =>
      refine ⟨hlimit, h.stocked.forget fingerprint, h.accounted.forget fingerprint,
        fun other => ?_⟩
      simp only [meta?_forget, update_nameOf]
      split
      · rfl
      · exact h.sizes other
  | @hits fs _ fingerprint file time hfile =>
      refine ⟨hlimit, ⟨h.stocked.onlyKept, h.stocked.content⟩,
        h.accounted.noteHit fingerprint file.length, fun other => ?_⟩
      obtain ⟨entry, hentries, hsize, -⟩ := entries_noteHit k.cache fs fingerprint file.length
      simp only [meta?_of_entries_eq_note hentries other]
      split
      · rename_i heq
        subst heq
        rw [h.sizes, hfile] at hsize
        simp only [hfile, Option.map_some, hsize, Option.getD_some]
      · exact h.sizes other
  | @stores fs _ fingerprint engine bytecode time hfits =>
      refine ⟨hlimit, h.stocked.store fingerprint engine bytecode time _
        (Nat.lt_of_le_of_lt hfits h.limit), h.accounted.noteStored fingerprint _, fun other => ?_⟩
      have hentries := entries_noteStored k.cache fs fingerprint
        (Entry.encode sha256 fingerprint engine bytecode).length
      simp only [meta?_of_entries_eq_note hentries other, update_nameOf]
      split
      · rfl
      · exact h.sizes other
  | indexes time hd =>
      refine ⟨hlimit, h.stocked.index _, h.accounted.of_eq rfl rfl, fun other => ?_⟩
      simp only [update_indexFile]
      exact h.sizes other
  | clears =>
      refine ⟨hlimit, h.stocked.clear, ⟨List.nodup_nil, rfl⟩, fun other => ?_⟩
      simp only [fingerprintOfName?_entryName, Option.isSome_some, if_true]
      rfl

/-! ## What a scan brings about -/

theorem meta?_afterScan (cache : Cache) (index : Index) (files : Files)
    (fingerprints : List Fingerprint) (fingerprint : Fingerprint) :
    (cache.afterScan index files fingerprints).meta? fingerprint =
      if fingerprint ∈ fingerprints then some (notedOf index files fingerprint) else none := by
  have hlookup : (fingerprints.map fun other => (other, notedOf index files other)).lookup
      fingerprint =
        if fingerprint ∈ fingerprints then some (notedOf index files fingerprint) else none := by
    induction fingerprints with
    | nil => rfl
    | cons first rest ih =>
        rw [List.map_cons, List.lookup_cons]
        by_cases heq : fingerprint = first
        · subst heq
          simp
        · have hne : (fingerprint == first) = false := beq_eq_false_iff_ne.mpr heq
          simp only [hne, ih, List.mem_cons, heq, false_or]
  exact hlookup

theorem accounted_afterScan (cache : Cache) (index : Index) (files : Files)
    {fingerprints : List Fingerprint} (hn : fingerprints.Nodup) :
    Accounted 0 (cache.afterScan index files fingerprints) := by
  constructor
  · have hkeys : (cache.afterScan index files fingerprints).entries.map (·.1) = fingerprints := by
      simp [afterScan, holding, Function.comp_def]
    rw [hkeys]
    exact hn
  · simp [recordedSize, afterScan, holding, size_notedOf, Function.comp_def]

theorem Stocked.mirrors_afterScan (h : Stocked journal files) (hl : cache.sizeLimit < 2 ^ 64)
    {fingerprints : List Fingerprint} (hn : fingerprints.Nodup)
    (hf : ∀ fingerprint, fingerprint ∈ fingerprints ↔ files (nameOf fingerprint) ≠ none)
    (index : Index) :
    Mirrors ⟨cache.afterScan index files fingerprints, files, journal⟩ := by
  refine ⟨hl, h, accounted_afterScan cache index files hn, fun fingerprint => ?_⟩
  simp only [meta?_afterScan, hf]
  cases hfile : files (nameOf fingerprint) with
  | none => simp
  | some file => simp [size_notedOf, lengthOf, hfile]

/-- The stock lasts while no cache is open, and a cache that is open mirrors it. -/
theorem isLasting_mirrors (directory : Path) :
    IsLasting directory (fun _ k => Mirrors k) fun _ journal files => Stocked journal files where
  onlyKept h := h.onlyKept
  start _ := ⟨fun _ hne => absurd rfl hne, fun _ _ hnever => nomatch hnever⟩
  waits _ h := h
  rests _ h := h
  scans h hl hn hf := h.mirrors_afterScan hl hn hf _
  moves h hm := h.move hm
  closes _ h _ := h.stocked

/-! ## Limits -/

/-- A cache that mirrors its files takes in no entry of another cache. -/
theorem Mirrors.not_exceeds {files : Files} (h : Mirrors ⟨cache, files, journal⟩)
    (hs : Shelf directory place files fs) (hd : cache.directory = directory) (action : Action) :
    ¬ action.Exceeds cache fs := by
  have hnone : ∀ fingerprint engine, ¬ cache.Adopts fs fingerprint engine := by
    rintro fingerprint engine ⟨hunknown, payload, size, hreading, -⟩
    obtain ⟨file, hread, -⟩ := readFile_eq_bytecode hreading
    rw [entryPath, hd] at hread
    obtain ⟨time, hfile⟩ := hs.of_read (isPiece_entryName fingerprint) hread
    have hsizes := h.sizes fingerprint
    simp only [hunknown, hfile] at hsizes
    cases hsizes
  cases action with
  | lookup source engine options => exact hnone _ engine
  | getOrCompile source engine options compile => exact hnone _ engine
  | store | remove | clear | flush => exact not_false

/-- So a cache that is alone stays within its limit. -/
theorem World.SolitaryRun.isWithin {start : FileSystem} {world : World}
    (he : IsEmptyDirectory start directory)
    (h : World.SolitaryRun directory start journal world) : world.IsWithin := by
  induction h with
  | start => exact fun cache hcache => nomatch hcache
  | @opened journal world h hn config hd hl ih =>
      obtain ⟨place, files, hs, hstocked⟩ := ((isLasting_mirrors directory).holds he h).isShut hn
      obtain ⟨fingerprints, hnodup, -, hopen⟩ := openAt_eq hs hstocked.onlyKept hd
      intro cache hcache
      rw [World.after_opened hopen, hn] at hcache
      rw [List.mem_singleton.mp hcache]
      exact (isWithin_enforceLimit_iff (accounted_afterScan _ _ _ hnodup)).mpr (Nat.zero_le _)
  | @acted journal world h cache hc action ih =>
      obtain ⟨place, files, hs, hd, hmirrors⟩ := ((isLasting_mirrors directory).holds he h).isOpen hc
      have hthere : world.caches[0]? = some cache := by rw [hc]; rfl
      have hwithin := ih cache (hc ▸ List.mem_singleton_self cache)
      intro after hafter
      rw [World.after_acted action hthere, hc] at hafter
      rw [List.mem_singleton.mp hafter]
      exact (hmirrors.accounted.isWithin_perform_iff hwithin action).mpr
        (hmirrors.not_exceeds hs hd action)
  | @closed journal world h cache hc ih =>
      have hthere : world.caches[0]? = some cache := by rw [hc]; rfl
      intro after hafter
      rw [World.after_closed hthere, hc] at hafter
      cases hafter
  | changed _ _ ih => exact ih

/-! ## Runs -/

/-- The names of a directory are those of an index and of entries, every entry is the one that
was last written, and a cache that is open knows all entries and no others, by their sizes. -/
structure World.InStep (directory : Path) (journal : Journal) (names : List Name)
    (world : World) : Prop where
  listed : world.fs.list directory = .ok names
  onlyKept : ∀ name ∈ names, name = indexFile ∨ ∃ fingerprint, name = nameOf fingerprint
  noTemporary : ∀ name ∈ names, ¬ (Bytes.ofText temporaryPrefix).isPrefixOf name = true
  decodes : ∀ fingerprint, nameOf fingerprint ∈ names →
    ∃ engine bytecode file, journal.written fingerprint = some (engine, bytecode) ∧
      world.fs.read (directory.join ⟨nameOf fingerprint⟩) = .ok file ∧
        ((Bytes.ofText engine).length ≤ 65535 →
          Entry.decode sha256 fingerprint engine file = .ok bytecode)
  contains : ∀ cache ∈ world.caches, ∀ fingerprint,
    cache.contains fingerprint = true ↔ nameOf fingerprint ∈ names
  sizes : ∀ cache ∈ world.caches, ∀ fingerprint entry, cache.meta? fingerprint = some entry →
    ∃ file, world.fs.read (directory.join ⟨nameOf fingerprint⟩) = .ok file ∧
      file.length = entry.size

/-- A file of the stock is accepted as what it was written for. -/
theorem Stocked.decode (h : Stocked journal files) {file : Bytes × Timestamp}
    (hf : files (nameOf fingerprint) = some file) :
    ∃ engine bytecode, journal.written fingerprint = some (engine, bytecode) ∧
      ((Bytes.ofText engine).length ≤ 65535 →
        Entry.decode sha256 fingerprint engine file.1 = .ok bytecode) := by
  obtain ⟨engine, bytecode, hwritten, hencoded, hlength⟩ := h.content fingerprint file hf
  refine ⟨engine, bytecode, hwritten, fun hengine => ?_⟩
  have hfits : Entry.Fits engine bytecode := by
    rw [hencoded, length_encode] at hlength
    unfold Entry.Fits Entry.engineLimit Entry.lengthLimit
    omega
  rw [hencoded]
  exact Entry.decode_encode hfits

/-- Along every run of one cache at a time on a directory that was empty at first and where
nobody else writes, the cache knows what the directory holds. -/
theorem World.SolitaryRun.inStep {start : FileSystem} {world : World}
    (he : IsEmptyDirectory start directory)
    (h : World.SolitaryRun directory start journal world) :
    ∃ names, world.InStep directory journal names := by
  obtain ⟨place, files, hs, hholds⟩ := (isLasting_mirrors directory).holds he h
  obtain ⟨names, hlist, -, hmem⟩ := hs.list
  have hstocked : Stocked journal files := by
    rcases hholds with ⟨-, hstocked⟩ | ⟨cache, -, -, hmirrors⟩
    · exact hstocked
    · exact hmirrors.stocked
  have hmirrors : ∀ cache ∈ world.caches, Mirrors ⟨cache, files, journal⟩ := by
    intro cache hcache
    rcases hholds with ⟨hnone, -⟩ | ⟨open', hopen, -, hmirrors⟩
    · rw [hnone] at hcache
      cases hcache
    · rw [hopen] at hcache
      exact List.mem_singleton.mp hcache ▸ hmirrors
  have hkept : ∀ name ∈ names, name = indexFile ∨ ∃ fingerprint, name = nameOf fingerprint :=
    fun name hname => hstocked.onlyKept name ((hmem name).mp hname)
  refine ⟨names, hlist, hkept, fun name hname => not_isTemporary (hkept name hname), ?_, ?_, ?_⟩
  · intro fingerprint hname
    obtain ⟨file, hfile⟩ := Option.ne_none_iff_exists'.mp ((hmem _).mp hname)
    obtain ⟨engine, bytecode, hwritten, hdecode⟩ := hstocked.decode hfile
    exact ⟨engine, bytecode, file.1, hwritten, hs.read hfile, hdecode⟩
  · intro cache hcache fingerprint
    have hsizes := congrArg Option.isSome ((hmirrors cache hcache).sizes fingerprint)
    simp only [Option.isSome_map] at hsizes
    rw [hmem, Cache.contains, hsizes, Option.isSome_iff_ne_none]
  · intro cache hcache fingerprint entry hentry
    have hsizes := (hmirrors cache hcache).sizes fingerprint
    simp only [hentry, Option.map_some] at hsizes
    obtain ⟨file, hfile, hlength⟩ := Option.map_eq_some_iff.mp hsizes.symm
    exact ⟨file.1, hs.read hfile, hlength⟩

theorem isEmptyDirectory_emptyDirectory : IsEmptyDirectory emptyDirectory (.ofString "/c") := by
  refine ⟨FileSystem.grounded_of_root rfl, [Bytes.ofText "c"], rfl, fun name rest => ?_⟩
  simp [emptyDirectory, FileSystem.node?, FileSystem.empty, List.lookup_cons]

/-- So it is after a cache was opened, has stored an entry, and was closed. -/
theorem inStep_after_storing : ∃ names,
    (({ fs := emptyDirectory } : World).afterAll [.opened (limitedConfig 1000),
        .acted 0 (.store Entry.zeroDigest "1" [0x61]), .closed 0]).InStep
      (.ofString "/c")
      (Journal.after {} (some (Entry.zeroDigest, "1", [0x61])) {}
        ((limitedCache 1000).store emptyDirectory Entry.zeroDigest "1" [0x61]).1.counters)
      names := by
  have hopened : ({ fs := emptyDirectory } : World).after (.opened (limitedConfig 1000)) =
      { fs := emptyDirectory, caches := [limitedCache 1000] } :=
    World.after_opened (openAt_emptyDirectory 1000)
  have hrun : World.SolitaryRun (.ofString "/c") emptyDirectory {}
      { fs := emptyDirectory, caches := [limitedCache 1000] } :=
    hopened ▸ World.SolitaryRun.start.opened rfl (limitedConfig 1000) rfl (by decide)
  have hstored := World.SolitaryRun.acted hrun rfl (.store Entry.zeroDigest "1" [0x61])
  have hclosed := World.SolitaryRun.closed hstored rfl
  have hall := World.SolitaryRun.inStep isEmptyDirectory_emptyDirectory hclosed
  simp only [World.afterAll, List.foldl_cons, List.foldl_nil, hopened]
  simp only [perform, Action.brings?] at hall
  exact hall

end ScriptModules.Cache
