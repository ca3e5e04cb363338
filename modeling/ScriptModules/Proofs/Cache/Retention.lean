import ScriptModules.Proofs.Cache.LastAccesses

/-!
# What a cache keeps

A cache that is alone with its directory keeps what it has just stored.  For that it gives up
the entries that were accessed longest ago, and no more of them than it takes (`Retains`).
Opening it with a smaller limit is like that (`Reduces`), though all it has then is the files
and what the index says of the accesses.
-/

namespace ScriptModules.Cache

open FileSystem (Files Shelf)

variable {directory : Path} {place : Location} {cache : Cache} {fs start written : FileSystem}
  {files : Files} {journal : Journal} {world : World} {fingerprint : Fingerprint}
  {log order : List Fingerprint} {known kept : Fingerprint → Option EntryMeta}
  {besides limit : Nat} {engine : String} {bytecode : Bytes}

/-! ## The last of an order -/

/-- What is known of all entries but one. -/
def exceptFor (fingerprint : Fingerprint) (known : Fingerprint → Option EntryMeta)
    (other : Fingerprint) : Option EntryMeta :=
  if other = fingerprint then none else known other

/-- One that stays may as well be counted with what stays. -/
theorem mem_mayGo_append_singleton {sizeOf : Fingerprint → Nat} {last : Fingerprint} {count : Nat}
    (hl : besides + sizeOf last ≤ limit) (hc : count ≤ order.length) :
    count ∈ mayGo (order ++ [last]) sizeOf besides limit ↔
      count ∈ mayGo order sizeOf (besides + sizeOf last) limit := by
  simp only [mayGo, Set.mem_ofPred_eq, List.drop_append_of_le_length hc, List.map_append,
    List.map_singleton, List.sum_append, List.sum_singleton, List.length_append,
    List.length_singleton]
  by_cases hall : order.length ≤ count
  · have hnil : order.drop count = [] := List.drop_eq_nil_iff.mpr hall
    simp only [hnil, List.map_nil, List.sum_nil]
    omega
  · omega

/-- What comes up last stays if it fits, and of the others as few go as it takes. -/
theorem Sheds.keeps_last {last : Fingerprint} (h : Sheds known kept (order ++ [last]) besides limit)
    (hl : besides + sizeIn known last ≤ limit) (hn : last ∉ order) :
    kept last = known last ∧
      Sheds (exceptFor last known) (exceptFor last kept) order (besides + sizeIn known last)
        limit := by
  obtain ⟨count, ⟨hmay, hleast⟩, hkept⟩ := h
  have hlength : order.length ∈ mayGo order (sizeIn known) (besides + sizeIn known last) limit :=
    Or.inr (Nat.le_refl _)
  have hle : count ≤ order.length :=
    hleast ((mem_mayGo_append_singleton hl (Nat.le_refl _)).mpr hlength)
  have htake : (order ++ [last]).take count = order.take count :=
    List.take_append_of_le_length hle
  have hnot : last ∉ order.take count := fun hmem => hn (List.mem_of_mem_take hmem)
  rw [htake] at hkept
  refine ⟨(hkept last).trans (if_neg hnot), count, ?_, fun fingerprint => ?_⟩
  · have hsizes : ∀ fingerprint ∈ order,
        sizeIn (exceptFor last known) fingerprint = sizeIn known fingerprint := by
      intro fingerprint hmem
      have hne : fingerprint ≠ last := fun heq => hn (heq ▸ hmem)
      rw [sizeIn, sizeIn, exceptFor, if_neg hne]
    rw [mayGo_congr hsizes]
    refine ⟨(mem_mayGo_append_singleton hl hle).mp hmay, fun other hother => ?_⟩
    rcases Nat.le_total order.length other with hmore | hless
    · exact hle.trans hmore
    · exact hleast ((mem_mayGo_append_singleton hl hless).mpr hother)
  · rw [exceptFor, exceptFor, hkept]
    by_cases heq : fingerprint = last
    · simp [heq]
    · simp [heq]

/-! ## Storing -/

/-- What a store has to leave behind: the entry with its file, within the limit, and of the other
entries all but those that were accessed longest ago, as few of these as it takes. -/
structure Retains (log : List Fingerprint) (cache : Cache) (fingerprint : Fingerprint)
    (file : Bytes) (after : Cache) (fs : FileSystem) : Prop where
  size : (after.meta? fingerprint).map (·.size) = some file.length
  content : fs.read (after.entryPath fingerprint) = .ok file
  within : after.currentSize ≤ after.sizeLimit
  sheds : Sheds (exceptFor fingerprint cache.meta?) (exceptFor fingerprint after.meta?)
    (byLastAccess (exceptFor fingerprint cache.meta?) log) file.length cache.sizeLimit

/-- What was accessed last comes up last. -/
theorem byLastAccess_append_singleton {entry : EntryMeta}
    (hk : ∀ other, kept other = if other = fingerprint then some entry else known other) :
    byLastAccess kept (log ++ [fingerprint]) =
      byLastAccess (exceptFor fingerprint known) log ++ [fingerprint] := by
  have hself : (kept fingerprint).isSome = true := by rw [hk, if_pos rfl]; rfl
  rw [byLastAccess, dedup_append_singleton, List.filter_append, List.filter_filter,
    List.filter_singleton, hself, cond_true, byLastAccess]
  congr 1
  refine List.filter_congr fun other _ => ?_
  rw [hk, exceptFor]
  by_cases heq : other = fingerprint
  · simp [heq]
  · simp [heq]

theorem not_mem_byLastAccess_exceptFor (fingerprint : Fingerprint)
    (known : Fingerprint → Option EntryMeta) (log : List Fingerprint) :
    fingerprint ∉ byLastAccess (exceptFor fingerprint known) log := by
  simp [byLastAccess, exceptFor]

/-- A store that writes its file says so in the journal. -/
theorem written_store (journal : Journal)
    (hf : (Entry.encode sha256 fingerprint engine bytecode).length ≤ cache.sizeLimit)
    (hr : fs.replaceFile cache.directory (cache.entryPath fingerprint)
      (Entry.encode sha256 fingerprint engine bytecode) = .ok written) :
    (journal.after (some (fingerprint, engine, bytecode)) cache.counters
      (cache.store fs fingerprint engine bytecode).1.counters).written fingerprint =
        some (engine, bytecode) := by
  have hwrites := writes_enforceLimit_noteStored cache written written.tick.2 fingerprint
    (Entry.encode sha256 fingerprint engine bytecode).length
  rw [store_of_replaceFile hf hr]
  have hlt : cache.counters.writes < cache.counters.writes + 1 := Nat.lt_succ_self _
  simp only [Journal.after, hwrites, if_pos hlt, Function.update_self]

/-- The file of an entry that is stored and stays is what was written. -/
theorem Mirrors.read_store (h : Mirrors ⟨cache, files, journal⟩)
    (hs : Shelf directory place files fs) (hd : cache.directory = directory)
    (hf : (Entry.encode sha256 fingerprint engine bytecode).length ≤ cache.sizeLimit)
    (hr : fs.replaceFile cache.directory (cache.entryPath fingerprint)
      (Entry.encode sha256 fingerprint engine bytecode) = .ok written)
    (hk : (cache.store fs fingerprint engine bytecode).1.meta? fingerprint ≠ none) :
    (cache.store fs fingerprint engine bytecode).2.read (cache.entryPath fingerprint) =
      .ok (Entry.encode sha256 fingerprint engine bytecode) := by
  obtain ⟨others, hs', -, hmirrors, -⟩ := (isLasting_mirrors directory).turns
    (@turns_store directory place cache fs journal fingerprint engine bytecode) hd hs h
  have hsize : ((cache.store fs fingerprint engine bytecode).1.meta? fingerprint).map (·.size) =
      (others (nameOf fingerprint)).map (·.1.length) := hmirrors.sizes fingerprint
  obtain ⟨entry, hentry⟩ := Option.ne_none_iff_exists'.mp hk
  rw [hentry] at hsize
  obtain ⟨file, hfile, -⟩ := Option.map_eq_some_iff.mp hsize.symm
  obtain ⟨engine', bytecode', hwritten, hencoded, -⟩ :=
    hmirrors.stocked.content fingerprint file hfile
  have hsame : (journal.after (some (fingerprint, engine, bytecode)) cache.counters
      (cache.store fs fingerprint engine bytecode).1.counters).written fingerprint =
        some (engine', bytecode') := hwritten
  rw [written_store journal hf hr] at hsame
  cases hsame
  rw [← hencoded, entryPath, hd]
  exact hs'.read hfile

/-- A store that writes its file retains what it should, where the numbers go along with the
log. -/
theorem Tidy.retains_store {now : Nat} (h : Tidy now ⟨cache, files, journal⟩)
    (hs : Shelf directory place files fs) (hd : cache.directory = directory)
    (ht : InTurn log cache.meta?) (ha : journal.accesses + 1 < 2 ^ 64)
    (hf : (Entry.encode sha256 fingerprint engine bytecode).length ≤ cache.sizeLimit)
    (hr : fs.replaceFile cache.directory (cache.entryPath fingerprint)
      (Entry.encode sha256 fingerprint engine bytecode) = .ok written) :
    Retains log cache fingerprint (Entry.encode sha256 fingerprint engine bytecode)
      (cache.store fs fingerprint engine bytecode).1
      (cache.store fs fingerprint engine bytecode).2 := by
  have hread := h.mirrors.read_store hs hd hf hr
  have hstore := store_of_replaceFile hf hr
  have hsettings := settings_store cache fs fingerprint engine bytecode
  generalize hfile : Entry.encode sha256 fingerprint engine bytecode = file at *
  have hentries := entries_noteStored cache written fingerprint file.length
  have haccounted : Accounted 0 (cache.noteStored written fingerprint file.length).1 :=
    h.mirrors.accounted.noteStored fingerprint file.length
  have hmeta := meta?_of_entries_eq_note hentries
  have hturn := h.ranked.inTurn_note ht (h.timed.ne_lastNumber ha) rfl hentries
  -- The stored entry comes up last, and the others as the log says.
  have horder := hturn.order_eq ((evictionOrder_perm haccounted.nodup).nodup_iff.mpr haccounted.nodup)
    (fun _ => mem_evictionOrder_iff haccounted.nodup) (pairwise_evictionOrder haccounted.nodup)
  rw [byLastAccess_append_singleton hmeta] at horder
  have hsheds := @Accounted.enforceLimit_sheds _ written.tick.2 _ haccounted
  rw [horder] at hsheds
  have hself := (hmeta fingerprint).trans (if_pos rfl)
  have hsize : sizeIn (cache.noteStored written fingerprint file.length).1.meta? fingerprint =
      file.length := by
    rw [sizeIn, hself]
    rfl
  have hothers : exceptFor fingerprint (cache.noteStored written fingerprint file.length).1.meta? =
      exceptFor fingerprint cache.meta? := by
    funext other
    rw [exceptFor, exceptFor, hmeta]
    split <;> rfl
  obtain ⟨hstays, hothersShed⟩ := hsheds.keeps_last (by rw [hsize, Nat.zero_add]; exact hf)
    (not_mem_byLastAccess_exceptFor fingerprint cache.meta? log)
  rw [hself] at hstays
  rw [hothers, hsize, Nat.zero_add] at hothersShed
  rw [hstore] at hread hsettings ⊢
  have hplace : ((cache.noteStored written fingerprint file.length).1.enforceLimit
      written.tick.2).1.entryPath fingerprint = cache.entryPath fingerprint := by
    rw [entryPath, entryPath, (place_eq_of_settings_eq hsettings).1]
  have hlimit : ((cache.noteStored written fingerprint file.length).1.enforceLimit
      written.tick.2).1.sizeLimit = cache.sizeLimit := congrArg (·.2.2) hsettings
  refine ⟨by rw [hstays]; rfl, ?_, ?_, hothersShed⟩
  · rw [hplace]
    exact hread (by rw [hstays]; exact Option.some_ne_none _)
  · rw [hlimit]
    exact haccounted.enforceLimit_le.trans (Nat.max_le.mpr ⟨Nat.le_refl _, Nat.zero_le _⟩)

/-! ## Opening -/

/-- What an opening has to leave behind of a directory: of the entries whose files are there all
but those that were accessed longest ago, as few of these as it takes. -/
structure Reduces (log : List Fingerprint) (directory : Path) (fs : FileSystem) (limit : Nat)
    (cache : Cache) : Prop where
  sizes : ∀ fingerprint, (seenAt directory fs fingerprint).map (·.size) =
    (fs.read (directory.join ⟨nameOf fingerprint⟩)).toOption.map List.length
  within : cache.currentSize ≤ limit
  sheds : Sheds (seenAt directory fs) cache.meta? (byLastAccess (seenAt directory fs) log) 0 limit

/-- The files of a shelf are what can be read. -/
theorem toOption_read (hs : Shelf directory place files fs) (fingerprint : Fingerprint) :
    (fs.read (directory.join ⟨nameOf fingerprint⟩)).toOption =
      (files (nameOf fingerprint)).map (·.1) := by
  cases hfile : files (nameOf fingerprint) with
  | some file =>
      rw [hs.read hfile]
      rfl
  | none =>
      cases hread : fs.read (directory.join ⟨nameOf fingerprint⟩) with
      | error e => rfl
      | ok content =>
          obtain ⟨time, hsome⟩ := hs.of_read (isPiece_entryName fingerprint) hread
          rw [hfile] at hsome
          cases hsome

/-- Nothing is counted twice where only caches have written. -/
theorem overcountAt_of_onlyKept (hs : Shelf directory place files fs) (hk : OnlyKept files) :
    overcountAt directory fs = 0 := by
  obtain ⟨fingerprints, hnodup, -, hscan⟩ := @scan_eq directory place (fresh { directory } fs) fs
    files hs hk rfl (fresh_eq_holding { directory } fs _ _)
  have htwice := (accounted_scan rfl rfl hscan).currentSize
  have honce :=
    (accounted_afterScan (fresh { directory } fs) (indexOf files) files hnodup).currentSize
  have hsame : (fresh { directory } fs).directory = directory := rfl
  rw [hsame] at htwice
  omega

/-- An opening of a directory that was left tidy retains what it should. -/
theorem Tidy.reduces_openAt {now : Nat} {closed : Cache} (h : Tidy now ⟨closed, files, journal⟩)
    (hc : closed.dirty = false) (hs : Shelf directory place files fs)
    (ht : InTurn log (seenAt directory fs)) {config : CacheConfig}
    (hd : config.directory = directory) :
    ∃ opened after, openAt config fs = (.ok opened, after) ∧
      Reduces log directory fs config.sizeLimit opened := by
  obtain ⟨fingerprints, hnodup, -, hopen⟩ := openAt_eq hs h.mirrors.stocked.onlyKept hd
  have hmade : fs.makeDirectories config.directory = (.ok (), fs) :=
    FileSystem.makeDirectories_of_isDirectory (by rw [FileSystem.isDirectory, hd, hs.found])
  obtain ⟨order, hn, hmem, hpairwise, hsheds⟩ := openAt_sheds hopen
  obtain ⟨opened, after, hopened, hshed⟩ := hsheds config.sizeLimit
  rw [hmade, hd] at hmem hpairwise hshed
  rw [ht.order_eq hn hmem hpairwise, overcountAt_of_onlyKept hs h.mirrors.stocked.onlyKept] at hshed
  have hsame := hopen.symm.trans hopened
  refine ⟨opened, after, hopened, ⟨fun fingerprint => ?_, ?_, hshed⟩⟩
  · have hsize : (closed.meta? fingerprint).map (·.size) =
        (files (nameOf fingerprint)).map (·.1.length) := h.mirrors.sizes fingerprint
    rw [h.seenAt_eq hc hs, hsize, toOption_read hs, Option.map_map]
    rfl
  · have haccounted := accounted_afterScan (fresh config fs) (indexOf files) files hnodup
    have hwithin := @Accounted.enforceLimit_le _ fs _ haccounted
    cases hsame
    exact hwithin.trans (Nat.max_le.mpr ⟨Nat.le_refl _, Nat.zero_le _⟩)

/-! ## All along a run -/

/-- The directory with the file of one entry. -/
def oneFile (file : Bytes) : FileSystem :=
  emptyDirectory.tick.2.setNode [Bytes.ofText "c", nameOf (uniform 0xAA)]
    (.file file emptyDirectory.tick.1)

theorem replaceFile_emptyDirectory (file : Bytes) :
    emptyDirectory.replaceFile (limitedCache 100).directory
      ((limitedCache 100).entryPath (uniform 0xAA)) file = .ok (oneFile file) := by
  rfl

theorem replaceFile_oneFile (file other : Bytes) : ∃ written,
    (oneFile file).tick.2.replaceFile (limitedCache 100).directory
      ((limitedCache 100).entryPath (uniform 0xBB)) other = .ok written := by
  exact ⟨_, rfl⟩

theorem length_encode_one (fingerprint : Fingerprint) (byte : UInt8) :
    (Entry.encode sha256 fingerprint "1" [byte]).length = 82 := by
  rw [length_encode]
  rfl

/-- An entry is stored. -/
def storingOne : Action := .store (uniform 0xAA) "1" [0x61]

theorem perform_storingOne : (limitedCache 100).perform emptyDirectory storingOne =
    ((limitedCache 100).noteStored (oneFile (Entry.encode sha256 (uniform 0xAA) "1" [0x61]))
      (uniform 0xAA) 82) := by
  have hfits : (Entry.encode sha256 (uniform 0xAA) "1" [0x61]).length ≤ (limitedCache 100).sizeLimit := by
    rw [length_encode_one]
    decide
  rw [storingOne, perform, store_of_replaceFile hfits (replaceFile_emptyDirectory _), length_encode_one]
  exact enforceLimit_of_le (by decide)

theorem run_storingOne : World.LoggedRun (.ofString "/c") emptyDirectory
    (Journal.after {} (storingOne.brings? (limitedCache 100)) {}
      ((limitedCache 100).perform emptyDirectory storingOne).1.counters)
    [uniform 0xAA]
    { fs := ((limitedCache 100).perform emptyDirectory storingOne).2
      caches := [((limitedCache 100).perform emptyDirectory storingOne).1] } := by
  have hopened : ({ fs := emptyDirectory } : World).after (.opened (limitedConfig 100)) =
      { fs := emptyDirectory, caches := [limitedCache 100] } :=
    World.after_opened (openAt_emptyDirectory 100)
  have hrun : World.LoggedRun (.ofString "/c") emptyDirectory {} []
      { fs := emptyDirectory, caches := [limitedCache 100] } :=
    hopened ▸ World.LoggedRun.start.opened rfl (limitedConfig 100) rfl (by decide)
  have hfits : (Entry.encode sha256 (uniform 0xAA) "1" [0x61]).length ≤
      (limitedCache 100).sizeLimit := by
    rw [length_encode_one]
    decide
  have haccess : (limitedCache 100).access? emptyDirectory storingOne = some (uniform 0xAA) :=
    access?_store hfits (replaceFile_emptyDirectory _)
  have hstored := World.LoggedRun.acted hrun rfl storingOne
  rw [haccess] at hstored
  exact hstored

end ScriptModules.Cache
