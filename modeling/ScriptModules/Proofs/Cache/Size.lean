import ScriptModules.Proofs.Association
import ScriptModules.Proofs.Cache.World

/-!
# What a cache says of its size

A cache counts the bytes its entries take.  Every operation moves the counter by
the sizes it notes and forgets, so the counter stays a fixed amount above the sum
of the recorded sizes (`Accounted`).

The amount is what opening leaves behind.  Two files may be named by one
fingerprint, as its digits may be written in either case.  A scan adds the size of
both but keeps an entry for the later one only.  So the amount is the size of the
files whose entries were replaced (`overcount`), and it stays until the cache is
cleared.
-/

namespace ScriptModules.Cache

/-! ## The sum of the recorded sizes -/

/-- The bytes all entries of a cache take, by what is recorded of them. -/
def recordedSize (cache : Cache) : Nat :=
  (cache.entries.map (·.2.size)).sum

/-- The recorded size of an entry; nothing for one that is not known. -/
def recordedSizeOf (cache : Cache) (fingerprint : Fingerprint) : Nat :=
  ((cache.meta? fingerprint).map (·.size)).getD 0

/-- Entries have fingerprints of their own, and the counter is `surplus` above the sum
of their sizes. -/
structure Accounted (surplus : Nat) (cache : Cache) : Prop where
  nodup : (cache.entries.map (·.1)).Nodup
  currentSize : cache.currentSize = cache.recordedSize + surplus

variable {cache : Cache} {fs : FileSystem} {surplus : Nat}

/-- Only entries and counter matter. -/
theorem Accounted.of_eq {other : Cache} (h : Accounted surplus cache)
    (he : other.entries = cache.entries) (hs : other.currentSize = cache.currentSize) :
    Accounted surplus other := by
  refine ⟨?_, ?_⟩
  · rw [he]
    exact h.nodup
  · have hr : other.recordedSize = cache.recordedSize := by rw [recordedSize, recordedSize, he]
    rw [hs, hr]
    exact h.currentSize

/-- The entries besides one take what all take, less its size. -/
theorem recordedSize_filter (hn : (cache.entries.map (·.1)).Nodup) (fingerprint : Fingerprint) :
    ((cache.entries.filter (·.1 ≠ fingerprint)).map (·.2.size)).sum + cache.recordedSizeOf fingerprint =
      cache.recordedSize :=
  Association.sum_filter_add_lookup EntryMeta.size fingerprint hn

/-- A counter is never below the size of an entry. -/
theorem Accounted.recordedSizeOf_le (h : Accounted surplus cache) (fingerprint : Fingerprint) :
    cache.recordedSizeOf fingerprint ≤ cache.currentSize := by
  have hsum := recordedSize_filter h.nodup fingerprint
  rw [h.currentSize]
  omega

/-- Noting an entry is accounted for once the counter gives up the size of what the
entry replaces and takes in its own. -/
theorem Accounted.note (h : Accounted surplus cache) (fingerprint : Fingerprint)
    (entry : EntryMeta) {other : Cache} (he : other.entries = (cache.note fingerprint entry).entries)
    (hs : other.currentSize + cache.recordedSizeOf fingerprint = cache.currentSize + entry.size) :
    Accounted surplus other := by
  have hentries : other.entries = cache.entries.filter (·.1 ≠ fingerprint) ++
      [(fingerprint, entry)] := he
  have hsum := recordedSize_filter h.nodup fingerprint
  have hcounter := h.currentSize
  refine ⟨?_, ?_⟩
  · rw [hentries]
    exact Association.nodup_filter_append fingerprint entry h.nodup
  · rw [recordedSize, hentries, List.map_append, List.sum_append]
    simp only [List.map_cons, List.map_nil, List.sum_cons, List.sum_nil]
    omega

/-! ## Forgetting and removing -/

/-- What is forgotten no longer counts. -/
theorem Accounted.forget (h : Accounted surplus cache) (fingerprint : Fingerprint) :
    Accounted surplus (cache.forget fingerprint) := by
  unfold Cache.forget
  split
  · exact h
  · rename_i entry hmeta
    have hsum := recordedSize_filter h.nodup fingerprint
    have hsize : cache.recordedSizeOf fingerprint = entry.size := by rw [recordedSizeOf, hmeta]; rfl
    have hcounter := h.currentSize
    refine ⟨Association.nodup_filter _ h.nodup, ?_⟩
    show cache.currentSize - entry.size =
      ((cache.entries.filter (·.1 ≠ fingerprint)).map (·.2.size)).sum + surplus
    omega

theorem Accounted.remove (h : Accounted surplus cache) (fingerprint : Fingerprint) :
    Accounted surplus (cache.remove fs fingerprint).2.1 := by
  rw [remove_cache]
  exact h.forget fingerprint

/-! ## Evicting -/

/-- The earlier one of two entries, the first if neither is. -/
def earlier (a b : Fingerprint × EntryMeta) : Fingerprint × EntryMeta :=
  if accessedBefore b.2 a.2 then b else a

theorem foldl_earlier_mem (rest : List (Fingerprint × EntryMeta))
    (first : Fingerprint × EntryMeta) : rest.foldl earlier first ∈ first :: rest := by
  induction rest generalizing first with
  | nil => exact List.mem_singleton_self first
  | cons next rest ih =>
      rw [List.foldl_cons]
      rcases List.mem_cons.mp (ih (earlier first next)) with heq | hmem
      · rw [heq, earlier]
        split
        · exact List.mem_cons_of_mem _ List.mem_cons_self
        · exact List.mem_cons_self
      · exact List.mem_cons_of_mem _ (List.mem_cons_of_mem _ hmem)

theorem oldest?_eq_foldl {first : Fingerprint × EntryMeta}
    {rest : List (Fingerprint × EntryMeta)} (h : cache.entries = first :: rest) :
    cache.oldest? = some (rest.foldl earlier first).1 := by
  rw [oldest?, h]
  rfl

/-- The entry accessed longest ago is an entry. -/
theorem mem_of_oldest? {victim : Fingerprint} (h : cache.oldest? = some victim) :
    victim ∈ cache.entries.map (·.1) := by
  cases hentries : cache.entries with
  | nil =>
      rw [oldest?, hentries] at h
      cases h
  | cons first rest =>
      rw [oldest?_eq_foldl hentries] at h
      cases h
      exact List.mem_map_of_mem (foldl_earlier_mem rest first)

theorem oldest?_eq_none (h : cache.oldest? = none) : cache.entries = [] := by
  unfold oldest? at h
  split at h
  · assumption
  · cases h

/-- Forgetting a known entry leaves fewer of them. -/
theorem size_forget_lt {fingerprint : Fingerprint} (h : fingerprint ∈ cache.entries.map (·.1)) :
    (cache.forget fingerprint).size < cache.size := by
  obtain ⟨pair, hpair, rfl⟩ := List.mem_map.mp h
  have hlt : (cache.entries.filter (·.1 ≠ pair.1)).length < cache.entries.length := by
    refine Nat.lt_of_le_of_ne (List.length_filter_le _ _) fun heq => ?_
    have hall := List.length_filter_eq_length_iff.mp heq pair hpair
    simp at hall
  rw [size, entries_forget]
  exact hlt

theorem Accounted.evict (rounds : Nat) (h : Accounted surplus cache) :
    Accounted surplus (Cache.evict rounds cache fs).1 :=
  evict_induct (motive := fun next _ => Accounted surplus next)
    (fun _ _ victim _ hnext => (hnext.forget victim).of_eq rfl rfl) rounds h

/-- Eviction ends within the limit or with nothing left to evict. -/
theorem evict_le_or_nil (rounds : Nat) (cache : Cache) (fs : FileSystem)
    (hr : cache.size ≤ rounds) :
    (evict rounds cache fs).1.currentSize ≤ cache.sizeLimit ∨
      (evict rounds cache fs).1.entries = [] := by
  induction rounds generalizing cache fs with
  | zero => exact Or.inr (List.eq_nil_of_length_eq_zero (Nat.le_zero.mp hr))
  | succ rounds ih =>
      unfold evict
      split
      · rename_i hle
        exact Or.inl hle
      · split
        · rename_i hnone
          exact Or.inr (oldest?_eq_none hnone)
        · rename_i victim hvictim
          have hfewer := size_forget_lt (mem_of_oldest? hvictim)
          rw [← remove_cache cache fs victim] at hfewer
          have hlimit : (cache.remove fs victim).2.1.sizeLimit = cache.sizeLimit :=
            congrArg (·.2.2) (settings_remove cache fs victim)
          rw [← hlimit]
          refine ih _ _ ?_
          show (cache.remove fs victim).2.1.size ≤ rounds
          omega

theorem Accounted.enforceLimit (h : Accounted surplus cache) :
    Accounted surplus (cache.enforceLimit fs).1 :=
  h.evict cache.size

/-- What eviction cannot get rid of is the surplus. -/
theorem Accounted.enforceLimit_le (h : Accounted surplus cache) :
    (cache.enforceLimit fs).1.currentSize ≤ max cache.sizeLimit surplus := by
  rcases evict_le_or_nil cache.size cache fs (Nat.le_refl _) with hle | hnil
  · exact Nat.le_trans hle (Nat.le_max_left _ _)
  · have hcounter : (cache.enforceLimit fs).1.currentSize =
        (cache.enforceLimit fs).1.recordedSize + surplus := h.enforceLimit.currentSize
    rw [recordedSize, Cache.enforceLimit, hnil] at hcounter
    rw [Cache.enforceLimit, hcounter]
    simp only [List.map_nil, List.sum_nil, Nat.zero_add]
    exact Nat.le_max_right _ _

/-! ## Looking up and storing -/

theorem Accounted.noteHit (h : Accounted surplus cache) (fingerprint : Fingerprint) (size : Nat) :
    Accounted surplus (cache.noteHit fs fingerprint size).1 := by
  unfold Cache.noteHit
  have hticked : Accounted surplus cache.tick.2 := h.of_eq rfl rfl
  simp only
  split
  · rename_i entry hmeta
    have hsize : cache.recordedSizeOf fingerprint = entry.size := by
      rw [recordedSizeOf, show cache.meta? fingerprint = some entry from hmeta]
      rfl
    refine hticked.note fingerprint _ rfl ?_
    show cache.currentSize + cache.recordedSizeOf fingerprint = cache.currentSize + entry.size
    rw [hsize]
  · rename_i hmeta
    have hsize : cache.recordedSizeOf fingerprint = 0 := by
      rw [recordedSizeOf, show cache.meta? fingerprint = none from hmeta]
      rfl
    refine hticked.note fingerprint _ rfl ?_
    show cache.currentSize + size + cache.recordedSizeOf fingerprint = cache.currentSize + size
    rw [hsize, Nat.add_zero]

theorem Accounted.noteStored (h : Accounted surplus cache) (fingerprint : Fingerprint)
    (size : Nat) : Accounted surplus (cache.noteStored fs fingerprint size).1 := by
  have hticked : Accounted surplus cache.tick.2 := h.of_eq rfl rfl
  have hle := h.recordedSizeOf_le fingerprint
  refine hticked.note fingerprint
    { size, lastAccess := fs.tick.1, sequence := cache.tick.1, hits := 0 } rfl ?_
  show cache.currentSize - cache.recordedSizeOf fingerprint + size +
    cache.recordedSizeOf fingerprint = cache.currentSize + size
  omega

theorem Accounted.lookup (h : Accounted surplus cache) (fingerprint : Fingerprint)
    (engine : String) : Accounted surplus (cache.lookup fs fingerprint engine).2.1 := by
  have hlookup := cache.looksUp fs fingerprint engine
  generalize cache.lookup fs fingerprint engine = result at hlookup ⊢
  cases hlookup with
  | finds _ => exact (h.noteHit fingerprint _).of_eq rfl rfl
  | misses _ => exact (h.forget fingerprint).of_eq rfl rfl
  | drops _ => exact (h.forget fingerprint).of_eq rfl rfl

theorem Accounted.store (h : Accounted surplus cache) (fingerprint : Fingerprint)
    (engine : String) (bytecode : Bytes) :
    Accounted surplus (cache.store fs fingerprint engine bytecode).1 := by
  have hstore := cache.stores fs fingerprint engine bytecode
  generalize cache.store fs fingerprint engine bytecode = result at hstore ⊢
  cases hstore with
  | skips _ => exact h
  | fails _ _ => exact h.of_eq rfl rfl
  | writes _ _ => exact (h.noteStored fingerprint _).enforceLimit

theorem Accounted.getOrCompile (h : Accounted surplus cache) (source : Bytes) (engine : String)
    (options : CompileOptions) (compile : Bytes → CompileOptions → Except CompileError Bytes) :
    Accounted surplus (cache.getOrCompile fs source engine options compile).2.1 := by
  have hlookup : Accounted surplus
      (cache.lookup fs (cache.fingerprintOf source engine options) engine).2.1 := h.lookup _ engine
  have hobtains := cache.obtains fs source engine options compile
  generalize (cache.getOrCompile fs source engine options compile).2 = result at hobtains ⊢
  cases hobtains with
  | looksUp => exact hlookup
  | stores hl _ =>
      rw [hl] at hlookup
      exact hlookup.store _ engine _

/-! ## Flushing and clearing -/

/-- Writing the index changes no entry. -/
theorem flush_entries (cache : Cache) (fs : FileSystem) :
    (cache.flush fs).2.1.entries = cache.entries ∧
      (cache.flush fs).2.1.currentSize = cache.currentSize := by
  have hflush := cache.flushes fs
  generalize (cache.flush fs).2 = result at hflush ⊢
  cases hflush with
  | rests _ => exact ⟨rfl, rfl⟩
  | writes _ _ => exact ⟨rfl, rfl⟩

theorem Accounted.flush (h : Accounted surplus cache) :
    Accounted surplus (cache.flush fs).2.1 := by
  obtain ⟨hentries, hcounter⟩ := flush_entries cache fs
  exact h.of_eq hentries hcounter

/-- Clearing settles the account. -/
theorem accounted_clear (cache : Cache) (fs : FileSystem) :
    Accounted 0 (cache.clear fs).2.1 := by
  have hempty : Accounted 0 { cache with entries := [], currentSize := 0, dirty := true } :=
    ⟨List.nodup_nil, rfl⟩
  exact hempty.flush

/-! ## Actions -/

/-- Whether an action clears the cache. -/
def Action.isClear : Action → Bool
  | .clear => true
  | .lookup .. | .store .. | .getOrCompile .. | .remove _ | .flush => false

/-- The surplus an action leaves behind. -/
def Action.surplusAfter (action : Action) (surplus : Nat) : Nat :=
  if action.isClear then 0 else surplus

/-- Clearing alone does away with a surplus. -/
theorem Accounted.perform (h : Accounted surplus cache) (action : Action) :
    Accounted (action.surplusAfter surplus) (cache.perform fs action).1 := by
  cases action with
  | lookup source engine options =>
      rw [Cache.perform]
      exact h.lookup (cache.fingerprintOf source engine options) engine
  | store fingerprint engine bytecode =>
      rw [Cache.perform]
      exact h.store fingerprint engine bytecode
  | getOrCompile source engine options compile =>
      rw [Cache.perform]
      exact h.getOrCompile source engine options compile
  | remove fingerprint =>
      rw [Cache.perform]
      exact h.remove fingerprint
  | clear =>
      rw [Cache.perform]
      exact accounted_clear cache fs
  | flush =>
      rw [Cache.perform]
      exact h.flush

/-! ## Opening -/

/-- The entry files a scan comes upon, with the sizes it finds.  The temporary files it
deletes on the way may be what links lead to. -/
def entryFiles (directory : Path) : List Name → FileSystem → List (Fingerprint × Nat)
  | [], _ => []
  | name :: names, fs =>
    let path := directory.join ⟨name⟩
    if (Bytes.ofText temporaryPrefix).isPrefixOf name then
      entryFiles directory names ((fs.removeFile path).toOption.getD fs)
    else match fingerprintOfName? name, fs.status path with
      | some fingerprint, some status =>
        (fingerprint, status.size) :: entryFiles directory names fs
      | _, _ => entryFiles directory names fs

/-- What is counted twice over: the sizes of entries that another file of the same
fingerprint takes the place of.  Files are listed the latest first. -/
def overcount : List (Fingerprint × Nat) → Nat
  | [] => 0
  | (fingerprint, _) :: before => (before.lookup fingerprint).getD 0 + overcount before

/-- Nothing is counted twice where every file has a fingerprint of its own. -/
theorem overcount_eq_zero {files : List (Fingerprint × Nat)} (hn : (files.map (·.1)).Nodup) :
    overcount files = 0 := by
  induction files with
  | nil => rfl
  | cons file before ih =>
      obtain ⟨fingerprint, size⟩ := file
      rw [List.map_cons, List.nodup_cons] at hn
      have hnone : before.lookup fingerprint = none := by
        rw [List.lookup_eq_none_iff]
        intro pair hpair
        rw [bne_iff_ne]
        intro heq
        exact hn.1 (List.mem_map.mpr ⟨pair, hpair, heq.symm⟩)
      rw [overcount, hnone, ih hn.2]
      rfl

/-- What a scan has taken in so far: the entries have the sizes of the `seen` files, and
what these count twice is the surplus. -/
structure Scanned (seen : List (Fingerprint × Nat)) (cache : Cache) : Prop where
  accounted : Accounted (overcount seen) cache
  sizes : ∀ fingerprint, (cache.meta? fingerprint).map (·.size) = seen.lookup fingerprint

/-- One file more is taken in, its entry with the size it has. -/
theorem Scanned.note {seen : List (Fingerprint × Nat)} (h : Scanned seen cache)
    (fingerprint : Fingerprint) (entry : EntryMeta) {other : Cache}
    (he : other.entries = (cache.note fingerprint entry).entries)
    (hs : other.currentSize = cache.currentSize + entry.size) :
    Scanned ((fingerprint, entry.size) :: seen) other := by
  have hbefore : cache.recordedSizeOf fingerprint = (seen.lookup fingerprint).getD 0 := by
    rw [recordedSizeOf, h.sizes]
  have hsum := recordedSize_filter h.accounted.nodup fingerprint
  have hcounter := h.accounted.currentSize
  have hentries : other.entries = cache.entries.filter (·.1 ≠ fingerprint) ++
      [(fingerprint, entry)] := he
  refine ⟨⟨?_, ?_⟩, ?_⟩
  · rw [hentries]
    exact Association.nodup_filter_append fingerprint entry h.accounted.nodup
  · rw [overcount, recordedSize, hentries, List.map_append, List.sum_append]
    simp only [List.map_cons, List.map_nil, List.sum_cons, List.sum_nil]
    omega
  · intro key
    rw [meta?, hentries, List.lookup_append, Association.lookup_filter cache.entries
      (fun other => decide (other ≠ fingerprint)) key]
    by_cases heq : key = fingerprint
    · subst heq
      simp
    · have hne : (key == fingerprint) = false := beq_eq_false_iff_ne.mpr heq
      have hsame := h.sizes key
      rw [meta?] at hsame
      rw [List.lookup_cons, List.lookup_cons, hne, ← hsame]
      simp [heq]

/-- An entry of the index counts only if it has the size of the file. -/
theorem size_getD_filter (indexed : Option EntryMeta) {fresh : EntryMeta} {size : Nat}
    (hf : fresh.size = size) :
    ((indexed.filter fun entry => entry.size == size).getD fresh).size = size := by
  cases indexed with
  | none => exact hf
  | some entry =>
      by_cases heq : entry.size = size
      · simp [Option.filter, heq]
      · simp [Option.filter, heq, hf]

/-- What a scan does with a file that is named like an entry. -/
theorem scanName_entry (index : Index) {scan : Scan} {name : Name}
    {fingerprint : Fingerprint} {status : FileSystem.Status}
    (ht : ¬ (Bytes.ofText temporaryPrefix).isPrefixOf name)
    (hn : fingerprintOfName? name = some fingerprint)
    (hs : scan.fs.status (scan.cache.directory.join ⟨name⟩) = some status) :
    ∃ entry, entry.size = status.size ∧
      (scanName index scan name).cache.entries = (scan.cache.note fingerprint entry).entries ∧
      (scanName index scan name).cache.currentSize = scan.cache.currentSize + status.size := by
  rw [scanName, if_neg ht, hn, hs]
  exact ⟨_, size_getD_filter _ rfl, rfl, rfl⟩

/-- The sizes of files. -/
def sizesOf (seen : List (Fingerprint × FileSystem.Status)) : List (Fingerprint × Nat) :=
  seen.map fun (fingerprint, status) => (fingerprint, status.size)

theorem entryFiles_eq_sizesOf (directory : Path) (names : List Name) (fs : FileSystem) :
    entryFiles directory names fs = sizesOf (sightings directory names fs) := by
  induction names generalizing fs with
  | nil => rfl
  | cons name names ih =>
      simp only [entryFiles, sightings]
      split
      · exact ih _
      · cases fingerprintOfName? name with
        | none => exact ih fs
        | some fingerprint =>
            cases fs.status (directory.join ⟨name⟩) with
            | none => exact ih fs
            | some status => exact congrArg _ (ih fs)

/-- A scan takes in the entry files of its list, in order. -/
theorem Scanned.scanNames (index : Index) (names : List Name) {scan : Scan}
    (h : Scanned [] scan.cache) :
    Scanned (entryFiles scan.cache.directory names scan.fs).reverse
      (names.foldl (scanName index) scan).cache := by
  have hall : Scanned (sizesOf ((sightings scan.cache.directory names scan.fs).reverse ++ []))
      (names.foldl (scanName index) scan).cache := by
    refine scanNames_induct (motive := fun seen scan => Scanned (sizesOf seen) scan.cache) index
      (fun _ _ _ hseen => hseen) ?_ names h
    intro seen scan name fingerprint status hseen ht hn hs
    obtain ⟨entry, hsize, hentries, hcounter⟩ := scanName_entry index ht hn hs
    rw [← hsize] at hcounter
    show Scanned ((fingerprint, status.size) :: sizesOf seen) _
    rw [← hsize]
    exact hseen.note fingerprint entry hentries hcounter
  rwa [List.append_nil, sizesOf, List.map_reverse, ← sizesOf, ← entryFiles_eq_sizesOf] at hall

/-- What opening a cache counts twice. -/
def overcountAt (directory : Path) (fs : FileSystem) : Nat :=
  match fs.list directory with
  | .ok names => overcount (entryFiles directory names fs).reverse
  | .error _ => 0

/-- Entry files have the fingerprints of their names. -/
theorem entryFiles_sublist (directory : Path) (names : List Name) (fs : FileSystem) :
    ((entryFiles directory names fs).map (·.1)).Sublist (names.filterMap fingerprintOfName?) := by
  induction names generalizing fs with
  | nil => exact List.Sublist.refl []
  | cons name names ih =>
      have hskip : (names.filterMap fingerprintOfName?).Sublist
          ((name :: names).filterMap fingerprintOfName?) :=
        (List.sublist_cons_self name names).filterMap _
      rw [entryFiles]
      split
      · exact (ih _).trans hskip
      · split
        · rename_i fingerprint status hn hs
          rw [List.map_cons, List.filterMap_cons_some hn]
          exact (ih fs).cons_cons fingerprint
        · exact (ih fs).trans hskip

/-- Nothing is counted twice where no two names are of one fingerprint. -/
theorem overcountAt_eq_zero {directory : Path}
    (h : ∀ names, fs.list directory = .ok names → (names.filterMap fingerprintOfName?).Nodup) :
    overcountAt directory fs = 0 := by
  unfold overcountAt
  split
  · rename_i names hl
    apply overcount_eq_zero
    rw [List.map_reverse, List.Nodup, List.pairwise_reverse]
    exact ((h names hl).sublist (entryFiles_sublist directory names fs)).imp Ne.symm
  · rfl

/-- A scan that succeeds counts twice what its directory holds twice. -/
theorem accounted_scan {after : FileSystem} {found : Cache} (he : cache.entries = [])
    (hc : cache.currentSize = 0) (h : cache.scan fs = .ok (found, after)) :
    Accounted (overcountAt cache.directory fs) found := by
  have hempty : Scanned [] cache := by
    refine ⟨⟨?_, ?_⟩, ?_⟩
    · rw [he]
      exact List.nodup_nil
    · rw [hc, recordedSize, he]
      rfl
    · intro fingerprint
      rw [meta?, he]
      rfl
  have hbefore : Scanned [] ({ cache, fs, found := [] } : Scan).cache := hempty
  obtain ⟨names, hl⟩ := list_of_scan h
  rw [scan_of_list hl] at h
  cases h
  have hnamed := hbefore.scanNames (indexAt cache.directory fs) names
  rw [overcountAt, hl]
  exact hnamed.accounted.of_eq rfl rfl

/-- What a cache counts twice when it is opened. -/
theorem accounted_openAt {config : CacheConfig} {after : FileSystem}
    (h : openAt config fs = (.ok cache, after)) :
    Accounted (overcountAt config.directory (fs.makeDirectories config.directory).2) cache := by
  obtain ⟨made, scanned, middle, hmade, hscan, henforce⟩ := of_openAt h
  have haccounted : Accounted (overcountAt config.directory made) (scanned.enforceLimit middle).1 :=
    (accounted_scan rfl rfl hscan).enforceLimit
  rw [henforce] at haccounted
  rw [hmade]
  exact haccounted

/-! ## Runs -/

/-- Whether an event clears the cache. -/
def Event.isClear : Event → Bool
  | .act action => action.isClear
  | .change _ => false

theorem Accounted.undergoAll (events : List Event) (h : Accounted surplus cache) :
    Accounted (if events.any Event.isClear then 0 else surplus)
      (undergoAll events cache fs).1 := by
  induction events generalizing cache fs surplus with
  | nil => exact h
  | cons event events ih =>
      rw [Cache.undergoAll, List.any_cons]
      cases event with
      | act action =>
          have hperformed : Accounted (action.surplusAfter surplus) (cache.perform fs action).1 :=
            h.perform action
          have hafter := @ih _ (cache.perform fs action).2 _ hperformed
          rw [Action.surplusAfter] at hafter
          cases hclear : action.isClear with
          | true =>
              rw [hclear, if_pos rfl, ite_self] at hafter
              rw [Event.isClear, hclear, Bool.true_or, if_pos rfl]
              exact hafter
          | false =>
              rw [hclear, if_neg Bool.false_ne_true] at hafter
              rw [Event.isClear, hclear, Bool.false_or]
              exact hafter
      | change files =>
          rw [Event.isClear, Bool.false_or]
          exact ih h

/-- After any run the counter is the sum of the recorded sizes, and above it, until the
cache is cleared, what was counted twice when it was opened.  So the counter is exact
just in case the cache was cleared or nothing was counted twice. -/
theorem currentSize_eq_recordedSize_iff {config : CacheConfig} {after : FileSystem}
    (h : openAt config fs = (.ok cache, after)) (events : List Event) :
    let final := (undergoAll events cache after).1
    let twice := overcountAt config.directory (fs.makeDirectories config.directory).2
    final.currentSize = final.recordedSize + (if events.any Event.isClear then 0 else twice) ∧
      (final.currentSize = final.recordedSize ↔ events.any Event.isClear ∨ twice = 0) := by
  have hcounter := (@Accounted.undergoAll _ after _ events (accounted_openAt h)).currentSize
  refine ⟨hcounter, ?_⟩
  rw [hcounter]
  split
  · rename_i hclear
    exact ⟨fun _ => Or.inl hclear, fun _ => rfl⟩
  · rename_i hkept
    constructor
    · intro heq
      exact Or.inr (by omega)
    · intro hor
      rcases hor with hclear | hzero
      · exact absurd hclear hkept
      · rw [hzero]
        rfl

/-! ## Two spellings of a fingerprint -/

/-- The names two files may have for one fingerprint. -/
def spelledNames : List Name :=
  [0x41, 0x61].map fun digit => List.replicate 64 digit ++ Bytes.ofText entrySuffix

/-- A directory with two files of four bytes, under both names. -/
def spelledTwice : FileSystem :=
  let files := spelledNames.map fun name =>
    ([Bytes.ofText "c", name], Node.file [1, 2, 3, 4] ⟨0, 0⟩)
  { FileSystem.empty with nodes := ([Bytes.ofText "c"], .directory) :: files }

/-- A cache on that directory. -/
def spelledConfig : CacheConfig := { directory := .ofString "/c" }

theorem makeDirectories_spelledTwice :
    spelledTwice.makeDirectories spelledConfig.directory = (.ok (), spelledTwice) := by
  rfl

theorem list_spelledTwice : spelledTwice.list spelledConfig.directory = .ok spelledNames := by
  cbv

/-- Opening the cache counts the four bytes of one file twice. -/
theorem overcountAt_spelledTwice :
    overcountAt spelledConfig.directory
      (spelledTwice.makeDirectories spelledConfig.directory).2 = 4 := by
  rw [makeDirectories_spelledTwice, overcountAt, list_spelledTwice]
  decide +kernel

/-- The counter need not be the sum of the recorded sizes. -/
theorem not_currentSize_eq_recordedSize :
    ¬ ∀ (config : CacheConfig) (fs after : FileSystem) (cache : Cache) (events : List Event),
      openAt config fs = (.ok cache, after) →
        (undergoAll events cache after).1.currentSize =
          (undergoAll events cache after).1.recordedSize := by
  intro hall
  obtain ⟨cache, after, hopen⟩ := openAt_eq_ok makeDirectories_spelledTwice list_spelledTwice
  have heq : cache.currentSize = cache.recordedSize := hall _ _ _ _ [] hopen
  have hcounter := (accounted_openAt hopen).currentSize
  rw [overcountAt_spelledTwice] at hcounter
  omega

/-- Whatever is done with that cache, four bytes too many stay counted until it is
cleared. -/
theorem currentSize_spelledTwice : ∃ cache after,
    openAt spelledConfig spelledTwice = (.ok cache, after) ∧
      ∀ events, (undergoAll events cache after).1.currentSize =
        (undergoAll events cache after).1.recordedSize +
          (if events.any Event.isClear then 0 else 4) := by
  obtain ⟨cache, after, hopen⟩ := openAt_eq_ok makeDirectories_spelledTwice list_spelledTwice
  refine ⟨cache, after, hopen, fun events => ?_⟩
  have hcounter := (currentSize_eq_recordedSize_iff hopen events).1
  rw [overcountAt_spelledTwice] at hcounter
  exact hcounter

end ScriptModules.Cache
