import ScriptModules.Proofs.Cache.Size

/-!
# How large caches get

A cache is to keep its size within its limit.  Opening and storing evict entries
until it does, and most of what else a cache does makes it no larger.  There are
two ways past the limit, and no others (`Exceeds`).  Opening may count files twice,
and what is counted twice cannot be evicted.  And a lookup may come upon an entry
that another cache wrote: it is counted, but nothing is evicted for it.
-/

namespace ScriptModules.Cache

/-! ## Limits -/

/-- The size of a cache is within its limit. -/
def IsWithin (cache : Cache) : Prop :=
  cache.currentSize ≤ cache.sizeLimit

/-- A read takes in an entry of another cache for which there is no room. -/
def Adopts (cache : Cache) (fs : FileSystem) (fingerprint : Fingerprint) (engine : String) :
    Prop :=
  cache.meta? fingerprint = none ∧ ∃ payload size,
    cache.readFile fs fingerprint engine = .bytecode payload size ∧
      cache.sizeLimit < cache.currentSize + size

/-- An action by which a cache gets past its limit. -/
def Action.Exceeds (cache : Cache) (fs : FileSystem) : Action → Prop
  | .lookup source engine options | .getOrCompile source engine options _ =>
    cache.Adopts fs (cache.fingerprintOf source engine options) engine
  | .store .. | .remove _ | .clear | .flush => False

variable {cache : Cache} {fs : FileSystem} {surplus : Nat}

/-- A surplus is part of the counter. -/
theorem Accounted.surplus_le (h : Accounted surplus cache) : surplus ≤ cache.currentSize := by
  rw [h.currentSize]
  exact Nat.le_add_left _ _

/-! ## Operations that keep the limit -/

/-- Evicting keeps a limit that the surplus keeps. -/
theorem isWithin_enforceLimit_iff (h : Accounted surplus cache) :
    (cache.enforceLimit fs).1.IsWithin ↔ surplus ≤ cache.sizeLimit := by
  have hle : (cache.enforceLimit fs).1.currentSize ≤ max cache.sizeLimit surplus := h.enforceLimit_le
  have hsurplus : surplus ≤ (cache.enforceLimit fs).1.currentSize := h.enforceLimit.surplus_le
  have hlimit : (cache.enforceLimit fs).1.sizeLimit = cache.sizeLimit :=
    congrArg (·.2.2) (settings_enforceLimit cache fs)
  rw [IsWithin, hlimit]
  constructor
  · intro hwithin
    exact Nat.le_trans hsurplus hwithin
  · intro hfits
    rwa [Nat.max_eq_left hfits] at hle

theorem IsWithin.forget (h : cache.IsWithin) (fingerprint : Fingerprint) :
    (cache.forget fingerprint).IsWithin := by
  have hlimit : (cache.forget fingerprint).sizeLimit = cache.sizeLimit :=
    congrArg (·.2.2) (settings_forget cache fingerprint)
  rw [IsWithin, hlimit]
  refine Nat.le_trans ?_ h
  unfold Cache.forget
  split
  · exact Nat.le_refl _
  · exact Nat.sub_le _ _

theorem IsWithin.remove (h : cache.IsWithin) (fingerprint : Fingerprint) :
    (cache.remove fs fingerprint).2.1.IsWithin := by
  rw [remove_cache]
  exact h.forget fingerprint

theorem IsWithin.flush (h : cache.IsWithin) : (cache.flush fs).2.1.IsWithin := by
  obtain ⟨-, hcounter⟩ := flush_entries cache fs
  have hlimit : (cache.flush fs).2.1.sizeLimit = cache.sizeLimit :=
    congrArg (·.2.2) (settings_flush cache fs)
  rw [IsWithin, hcounter, hlimit]
  exact h

theorem isWithin_clear (cache : Cache) (fs : FileSystem) : (cache.clear fs).2.1.IsWithin := by
  have hempty : IsWithin { cache with entries := [], currentSize := 0, dirty := true } :=
    Nat.zero_le _
  exact hempty.flush

/-- Storing evicts, unless nothing is stored. -/
theorem Accounted.isWithin_store (ha : Accounted surplus cache) (h : cache.IsWithin)
    (fingerprint : Fingerprint) (engine : String) (bytecode : Bytes) :
    (cache.store fs fingerprint engine bytecode).1.IsWithin := by
  have hsurplus := Nat.le_trans ha.surplus_le h
  have hstore := cache.stores fs fingerprint engine bytecode
  generalize cache.store fs fingerprint engine bytecode = result at hstore ⊢
  cases hstore with
  | skips _ => exact h
  | fails _ _ => exact h
  | writes _ _ => exact (isWithin_enforceLimit_iff (ha.noteStored fingerprint _)).mpr hsurplus

/-! ## Reading -/

/-- Noting a hit makes a cache larger only by an entry that was not known. -/
theorem isWithin_noteHit_iff (h : cache.IsWithin) (fingerprint : Fingerprint) (size : Nat) :
    (cache.noteHit fs fingerprint size).1.IsWithin ↔
      ¬ (cache.meta? fingerprint = none ∧ cache.sizeLimit < cache.currentSize + size) := by
  have hticked : cache.tick.2.meta? fingerprint = cache.meta? fingerprint := rfl
  unfold Cache.noteHit
  simp only [hticked]
  cases hmeta : cache.meta? fingerprint with
  | some entry =>
      refine iff_of_true h ?_
      intro hadopts
      cases hadopts.1
  | none =>
      constructor
      · intro hwithin hadopts
        exact Nat.not_le_of_lt hadopts.2 hwithin
      · intro hfits
        exact Nat.le_of_not_lt fun hlt => hfits ⟨rfl, hlt⟩

theorem adopts_iff_of_bytecode {fingerprint : Fingerprint} {engine : String} {payload : Bytes}
    {size : Nat} (hread : cache.readFile fs fingerprint engine = .bytecode payload size) :
    cache.Adopts fs fingerprint engine ↔
      cache.meta? fingerprint = none ∧ cache.sizeLimit < cache.currentSize + size := by
  unfold Adopts
  simp only [hread, Reading.bytecode.injEq]
  constructor
  · rintro ⟨hnew, _, _, ⟨rfl, rfl⟩, hlt⟩
    exact ⟨hnew, hlt⟩
  · rintro ⟨hnew, hlt⟩
    exact ⟨hnew, payload, size, ⟨rfl, rfl⟩, hlt⟩

theorem not_adopts_of_ne {fingerprint : Fingerprint} {engine : String}
    (hread : ∀ payload size, cache.readFile fs fingerprint engine ≠ .bytecode payload size) :
    ¬ cache.Adopts fs fingerprint engine := by
  rintro ⟨-, payload, size, heq, -⟩
  exact hread payload size heq

/-- A lookup passes the limit only by an entry it takes in. -/
theorem isWithin_lookup_iff (h : cache.IsWithin) (fingerprint : Fingerprint) (engine : String) :
    (cache.lookup fs fingerprint engine).2.1.IsWithin ↔
      ¬ cache.Adopts fs fingerprint engine := by
  have hlookup := cache.looksUp fs fingerprint engine
  generalize cache.lookup fs fingerprint engine = result at hlookup ⊢
  cases hlookup with
  | finds hread =>
      rw [adopts_iff_of_bytecode hread]
      exact isWithin_noteHit_iff h fingerprint _
  | misses hread =>
      refine iff_of_true (h.forget fingerprint) (not_adopts_of_ne fun payload size => ?_)
      rw [hread]
      exact fun heq => Reading.noConfusion heq
  | drops hread =>
      refine iff_of_true (h.forget fingerprint) (not_adopts_of_ne fun payload size => ?_)
      rw [hread]
      exact fun heq => Reading.noConfusion heq

/-- So does asking for bytecode; what is compiled then is stored. -/
theorem Accounted.isWithin_getOrCompile_iff (ha : Accounted surplus cache) (h : cache.IsWithin)
    (source : Bytes) (engine : String) (options : CompileOptions)
    (compile : Bytes → CompileOptions → Except CompileError Bytes) :
    (cache.getOrCompile fs source engine options compile).2.1.IsWithin ↔
      ¬ cache.Adopts fs (cache.fingerprintOf source engine options) engine := by
  have hlookup := @isWithin_lookup_iff cache fs h (cache.fingerprintOf source engine options) engine
  have haccounted : Accounted surplus
      (cache.lookup fs (cache.fingerprintOf source engine options) engine).2.1 :=
    ha.lookup _ engine
  have hobtains := cache.obtains fs source engine options compile
  generalize (cache.getOrCompile fs source engine options compile).2 = result at hobtains ⊢
  cases hobtains with
  | looksUp => exact hlookup
  | stores hl _ =>
      have hnone : ¬ cache.Adopts fs (cache.fingerprintOf source engine options) engine := by
        refine not_adopts_of_ne fun payload size hread => ?_
        rw [Cache.lookup, hread] at hl
        cases congrArg Prod.fst hl
      rw [hl] at hlookup haccounted
      exact iff_of_true (haccounted.isWithin_store (hlookup.mpr hnone) _ engine _) hnone

/-- What an action does to the limit. -/
theorem Accounted.isWithin_perform_iff (ha : Accounted surplus cache) (h : cache.IsWithin)
    (action : Action) :
    (cache.perform fs action).1.IsWithin ↔ ¬ action.Exceeds cache fs := by
  cases action with
  | lookup source engine options =>
      rw [Cache.perform, Action.Exceeds]
      exact isWithin_lookup_iff h (cache.fingerprintOf source engine options) engine
  | store fingerprint engine bytecode =>
      rw [Cache.perform, Action.Exceeds]
      exact iff_of_true (ha.isWithin_store h fingerprint engine bytecode) not_false
  | getOrCompile source engine options compile =>
      rw [Cache.perform, Action.Exceeds]
      exact ha.isWithin_getOrCompile_iff h source engine options compile
  | remove fingerprint =>
      rw [Cache.perform, Action.Exceeds]
      exact iff_of_true (h.remove fingerprint) not_false
  | clear =>
      rw [Cache.perform, Action.Exceeds]
      exact iff_of_true (isWithin_clear cache fs) not_false
  | flush =>
      rw [Cache.perform, Action.Exceeds]
      exact iff_of_true h.flush not_false

/-! ## Opening -/

/-- A cache that was opened is within its limit if what was counted twice is. -/
theorem isWithin_openAt_iff {config : CacheConfig} {after : FileSystem}
    (h : openAt config fs = (.ok cache, after)) :
    cache.IsWithin ↔
      overcountAt config.directory (fs.makeDirectories config.directory).2 ≤ config.sizeLimit := by
  obtain ⟨made, scanned, middle, hmade, hscan, henforce⟩ := of_openAt h
  have hiff : (scanned.enforceLimit middle).1.IsWithin ↔
      overcountAt config.directory made ≤ scanned.sizeLimit :=
    isWithin_enforceLimit_iff (accounted_scan rfl rfl hscan)
  have hlimit : scanned.sizeLimit = config.sizeLimit := congrArg (·.2.2) (settings_scan hscan)
  rw [henforce, hlimit] at hiff
  rw [hmade]
  exact hiff

/-! ## Worlds -/

/-- All caches of a world are within their limits. -/
def World.IsWithin (world : World) : Prop :=
  ∀ cache ∈ world.caches, cache.IsWithin

/-- An event by which some cache gets past its limit: one is opened on a directory where
too much is counted twice, or one takes in what it has no room for. -/
def World.Exceeds (world : World) : WorldEvent → Prop
  | .opened config =>
    (∃ cache, (openAt config world.fs).1 = .ok cache) ∧
      config.sizeLimit <
        overcountAt config.directory (world.fs.makeDirectories config.directory).2
  | .acted index action =>
    ∃ cache, world.caches[index]? = some cache ∧ action.Exceeds cache world.fs
  | .closed _ | .changed _ => False

/-- All caches of a world are accounted for, each with a surplus of its own. -/
def World.IsAccounted (world : World) : Prop :=
  ∀ cache ∈ world.caches, ∃ surplus, Accounted surplus cache

variable {world : World}

/-- Every event keeps caches accounted for. -/
theorem World.IsAccounted.after (h : world.IsAccounted) (event : WorldEvent) :
    (world.after event).IsAccounted := by
  intro cache hcache
  cases World.yields_of_mem hcache with
  | kept hold => exact h cache hold
  | opened hopen => exact ⟨_, accounted_openAt hopen⟩
  | acted action hacting =>
      obtain ⟨surplus, haccounted⟩ := h _ (List.mem_of_getElem? hacting)
      exact ⟨_, haccounted.perform action⟩

/-- A cache that acts keeps within its limit just in case the action does not exceed. -/
theorem World.IsAccounted.isWithin_perform_iff (ha : world.IsAccounted) (h : world.IsWithin)
    {index : Nat} {acting : Cache} (hacting : world.caches[index]? = some acting)
    (action : Action) :
    (acting.perform world.fs action).1.IsWithin ↔ ¬ action.Exceeds acting world.fs := by
  have hmem := List.mem_of_getElem? hacting
  obtain ⟨surplus, haccounted⟩ := ha acting hmem
  exact haccounted.isWithin_perform_iff (h acting hmem) action

/-- From a world within its limits an event leads past one just in case it exceeds. -/
theorem World.isWithin_after_iff (ha : world.IsAccounted) (h : world.IsWithin)
    (event : WorldEvent) : (world.after event).IsWithin ↔ ¬ world.Exceeds event := by
  constructor
  · intro hall hexceeds
    cases event with
    | opened config =>
        obtain ⟨⟨cache, hopened⟩, hlt⟩ := hexceeds
        have hopen : openAt config world.fs = (.ok cache, (openAt config world.fs).2) := by
          rw [← hopened]
        have hfits := (isWithin_openAt_iff hopen).mp (hall cache (mem_after_opened hopen))
        exact Nat.not_le_of_lt hlt hfits
    | acted index action =>
        obtain ⟨acting, hacting, hpassed⟩ := hexceeds
        have hwithin := hall _ (mem_after_acted hacting)
        exact (ha.isWithin_perform_iff h hacting action).mp hwithin hpassed
    | closed index => exact hexceeds
    | changed files => exact hexceeds
  · intro hfits cache hcache
    cases World.yields_of_mem hcache with
    | kept hold => exact h cache hold
    | opened hopen =>
        refine (isWithin_openAt_iff hopen).mpr (Nat.le_of_not_lt fun hlt => hfits ⟨?_, hlt⟩)
        rw [hopen]
        exact ⟨cache, rfl⟩
    | acted action hacting =>
        refine (ha.isWithin_perform_iff h hacting action).mpr fun hpassed => ?_
        exact hfits ⟨_, hacting, hpassed⟩

/-! ## Runs -/

/-- A run from a world within its limits stays within them unless an event exceeds. -/
theorem World.isWithin_afterAll (ha : world.IsAccounted) (h : world.IsWithin)
    (events : List WorldEvent)
    (hnever : ∀ before event, before ++ [event] <+: events →
      ¬ (world.afterAll before).Exceeds event) : (world.afterAll events).IsWithin := by
  induction events generalizing world with
  | nil => exact h
  | cons event events ih =>
      have hfirst : ¬ world.Exceeds event := hnever [] event ⟨events, rfl⟩
      refine ih (ha.after event) ((isWithin_after_iff ha h event).mpr hfirst) ?_
      intro before next hprefix
      exact hnever (event :: before) next ((List.cons_prefix_cons).mpr ⟨rfl, hprefix⟩)

theorem World.IsAccounted.afterAll (ha : world.IsAccounted) (events : List WorldEvent) :
    (world.afterAll events).IsAccounted := by
  induction events generalizing world with
  | nil => exact ha
  | cons event events ih => exact ih (ha.after event)

/-- Caches are within their limits all through a run just in case no event of the run
exceeds. -/
theorem World.always_isWithin_iff (fs : FileSystem) (events : List WorldEvent) :
    (∀ before, before <+: events → (World.afterAll { fs } before).IsWithin) ↔
      ∀ before event, before ++ [event] <+: events →
        ¬ (World.afterAll { fs } before).Exceeds event := by
  have hstart : World.IsAccounted { fs } := fun _ hcache => nomatch hcache
  constructor
  · intro hall before event hprefix
    have hbefore := hall before ((List.prefix_append before [event]).trans hprefix)
    have hafter := hall _ hprefix
    rw [afterAll_append] at hafter
    exact (isWithin_after_iff (hstart.afterAll before) hbefore event).mp hafter
  · intro hnever before hprefix
    refine isWithin_afterAll hstart (fun _ hcache => nomatch hcache) before ?_
    intro earlier event hearlier
    exact hnever earlier event (hearlier.trans hprefix)

/-! ## An entry that is taken in -/

/-- Two caches that act in turn. -/
theorem afterAll_pair (first second : Cache) (fs : FileSystem) (write read : Action) :
    World.afterAll { fs, caches := [first, second] } [.acted 0 write, .acted 1 read] =
      { fs := (second.perform (first.perform fs write).2 read).2
        caches := [(first.perform fs write).1,
          (second.perform (first.perform fs write).2 read).1] } := by
  rfl

/-- A limit is passed when one cache writes an entry and another, for which it is too
large, reads it. -/
theorem not_always_isWithin :
    ¬ ∀ (fs : FileSystem) (events : List WorldEvent), (World.afterAll { fs } events).IsWithin := by
  intro hall
  let write : Action := .getOrCompile [0x61] "e" {} fun source _ => .ok source
  let read : Action := .lookup [0x61] "e" {}
  have hwithin := hall emptyDirectory ([.opened (limitedConfig 1000), .opened (limitedConfig 10)] ++
    [.acted 0 write, .acted 1 read])
  have hworld : World.afterAll { fs := emptyDirectory } [.opened (limitedConfig 1000),
      .opened (limitedConfig 10)] =
        { fs := emptyDirectory, caches := [limitedCache 1000, limitedCache 10] } := by
    simp only [World.afterAll, List.foldl_cons, List.foldl_nil, World.after, openAt_emptyDirectory]
    rfl
  rw [World.afterAll_append, hworld, afterAll_pair] at hwithin
  have hread := hwithin _ (List.mem_cons_of_mem _ (List.mem_singleton_self _))
  have hexceeds : ¬ ((limitedCache 10).perform
      ((limitedCache 1000).perform emptyDirectory write).2 read).1.IsWithin := by
    unfold IsWithin
    decide +kernel
  exact hexceeds hread

end ScriptModules.Cache
