import ScriptModules.Proofs.Cache.EvictionOrder
import ScriptModules.Proofs.Cache.Mirror

/-!
# Accesses of entries

An action accesses one entry at most: it finds a file that is good, or writes one.  Either is
counted (`Cache.access?`).  What an action does to the entries is said once (`Cache.Acts`): it
gives the number of a new access to the entry, and for the rest does away with entries only.
-/

namespace ScriptModules.Cache

variable {cache : Cache} {fs : FileSystem} {fingerprint : Fingerprint}

/-- The entry that an action is about, if it may access one. -/
def Action.entry? (cache : Cache) : Action → Option Fingerprint
  | .lookup source engine options | .getOrCompile source engine options _ =>
    some (cache.fingerprintOf source engine options)
  | .store fingerprint _ _ => some fingerprint
  | .remove _ | .clear | .flush => none

/-- Whether more hits or writes are counted. -/
def CountsAccess (before after : CacheCounters) : Prop :=
  before.hits < after.hits ∨ before.writes < after.writes

instance (before after : CacheCounters) : Decidable (CountsAccess before after) :=
  inferInstanceAs (Decidable (_ ∨ _))

/-- The entry that an action accesses. -/
def access? (cache : Cache) (fs : FileSystem) (action : Action) : Option Fingerprint :=
  if CountsAccess cache.counters (cache.perform fs action).1.counters then action.entry? cache
  else none

/-- What an action does to the entries and to the clock, with the entry it accesses. -/
inductive Acts (cache : Cache) : Option Fingerprint → Cache → Prop where
  | rests {next : Cache} (clock : next.clock = cache.clock)
      (entries : next.entries.Sublist cache.entries) : Acts cache none next
  | hits {next : Cache} {fingerprint : Fingerprint} (entry : EntryMeta)
      (sequence : entry.sequence = cache.tick.1) (clock : next.clock = cache.tick.1)
      (entries : next.entries = (cache.note fingerprint entry).entries) :
      Acts cache (some fingerprint) next
  | stores {noted : Cache} {fingerprint : Fingerprint} (entry : EntryMeta) (files : FileSystem)
      (sequence : entry.sequence = cache.tick.1) (clock : noted.clock = cache.tick.1)
      (entries : noted.entries = (cache.note fingerprint entry).entries) :
      Acts cache (some fingerprint) (noted.enforceLimit files).1

/-! ## Looking up -/

theorem clock_forget (cache : Cache) (fingerprint : Fingerprint) :
    (cache.forget fingerprint).clock = cache.clock := by
  unfold forget
  split <;> rfl

theorem not_counts_of_eq {before after : CacheCounters} (hh : after.hits = before.hits)
    (hw : after.writes = before.writes) : ¬ CountsAccess before after := by
  rintro (hlt | hlt)
  · exact absurd hh (Nat.ne_of_gt hlt)
  · exact absurd hw (Nat.ne_of_gt hlt)

/-- The action was about an entry, and accessed it if an access is counted. -/
structure ActsOn (cache : Cache) (entry : Option Fingerprint) (next : Cache) : Prop where
  counts : CountsAccess cache.counters next.counters → Acts cache entry next
  rests : ¬ CountsAccess cache.counters next.counters → Acts cache none next

theorem Acts.counted {next : Cache} {entry : Option Fingerprint} (h : Acts cache entry next)
    (hc : CountsAccess cache.counters next.counters) : ActsOn cache entry next :=
  ⟨fun _ => h, fun hnot => absurd hc hnot⟩

theorem Acts.uncounted {next : Cache} (h : Acts cache none next)
    (hc : ¬ CountsAccess cache.counters next.counters) (entry : Option Fingerprint) :
    ActsOn cache entry next :=
  ⟨fun hcounts => absurd hcounts hc, fun _ => h⟩

/-- A lookup that finds nothing does away with the entry. -/
structure Misses (cache : Cache) (fingerprint : Fingerprint) (missed : Cache) : Prop where
  entries : missed.entries = (cache.forget fingerprint).entries
  clock : missed.clock = cache.clock
  hits : missed.counters.hits = cache.counters.hits
  writes : missed.counters.writes = cache.counters.writes

/-- A lookup that finds something numbers an access. -/
structure Finds (cache : Cache) (fingerprint : Fingerprint) (found : Cache) : Prop where
  noted : ∃ entry : EntryMeta, entry.sequence = cache.tick.1 ∧
    found.entries = (cache.note fingerprint entry).entries
  clock : found.clock = cache.tick.1
  hits : found.counters.hits = cache.counters.hits + 1

theorem clock_noteHit_cache (cache : Cache) (fs : FileSystem) (fingerprint : Fingerprint)
    (size : Nat) : (cache.noteHit fs fingerprint size).1.clock = cache.tick.1 := by
  simp only [noteHit]
  split <;> rfl

theorem lookup_spec (cache : Cache) (fs : FileSystem) (fingerprint : Fingerprint)
    (engine : String) :
    (∃ payload, (cache.lookup fs fingerprint engine).1 = some payload ∧
      Finds cache fingerprint (cache.lookup fs fingerprint engine).2.1) ∨
    ((cache.lookup fs fingerprint engine).1 = none ∧
      Misses cache fingerprint (cache.lookup fs fingerprint engine).2.1) := by
  have hlookup := cache.looksUp fs fingerprint engine
  generalize cache.lookup fs fingerprint engine = result at hlookup ⊢
  cases hlookup with
  | @finds payload size _ =>
      obtain ⟨entry, hentries, -, hsequence, -⟩ := entries_noteHit cache fs fingerprint size
      exact Or.inl ⟨payload, rfl, ⟨entry, hsequence, hentries⟩,
        clock_noteHit_cache cache fs fingerprint size, rfl⟩
  | misses _ => exact Or.inr ⟨rfl, rfl, clock_forget cache fingerprint, rfl, rfl⟩
  | drops _ => exact Or.inr ⟨rfl, rfl, clock_forget cache fingerprint, rfl, rfl⟩

theorem Finds.actsOn {found : Cache} (h : Finds cache fingerprint found) :
    ActsOn cache (some fingerprint) found := by
  obtain ⟨⟨entry, hsequence, hentries⟩, hclock, hhits⟩ := h
  exact (Acts.hits entry hsequence hclock hentries).counted (Or.inl (hhits ▸ Nat.lt_succ_self _))

theorem Misses.actsOn {missed : Cache} (h : Misses cache fingerprint missed) :
    ActsOn cache (some fingerprint) missed := by
  have hsublist := entries_forget_sublist cache fingerprint
  exact (Acts.rests h.clock (h.entries ▸ hsublist)).uncounted (not_counts_of_eq h.hits h.writes) _

/-! ## Storing -/

/-- A store that writes the file of its entry notes it and keeps the limit. -/
theorem store_of_replaceFile {engine : String} {bytecode : Bytes} {written : FileSystem}
    (hf : (Entry.encode sha256 fingerprint engine bytecode).length ≤ cache.sizeLimit)
    (hr : fs.replaceFile cache.directory (cache.entryPath fingerprint)
      (Entry.encode sha256 fingerprint engine bytecode) = .ok written) :
    cache.store fs fingerprint engine bytecode =
      (cache.noteStored written fingerprint
        (Entry.encode sha256 fingerprint engine bytecode).length).1.enforceLimit written.tick.2 := by
  simp only [store, if_neg (Nat.not_lt_of_le hf), hr]
  rfl

theorem writes_enforceLimit_noteStored (cache : Cache) (written files : FileSystem)
    (fingerprint : Fingerprint) (size : Nat) :
    ((cache.noteStored written fingerprint size).1.enforceLimit files).1.counters.writes =
      cache.counters.writes + 1 :=
  (counters_evict _ _ _).2

/-- A store notes its entry in place of what was known of it, so it does not matter whether that
was forgotten before. -/
theorem acts_stores {before : Cache} (hc : before.clock = cache.clock)
    (he : before.entries.filter (·.1 ≠ fingerprint) = cache.entries.filter (·.1 ≠ fingerprint))
    (written files : FileSystem) (size : Nat) :
    Acts cache (some fingerprint)
      ((before.noteStored written fingerprint size).1.enforceLimit files).1 := by
  have htick : before.tick.1 = cache.tick.1 := congrArg (· + 1) hc
  refine .stores { size, lastAccess := written.tick.1, sequence := before.tick.1, hits := 0 } files
    htick htick ?_
  rw [entries_noteStored, note, note, he]

/-- What a store does, where the entry was forgotten at most before. -/
theorem actsOn_store {before : Cache} (hc : before.clock = cache.clock)
    (he : before.entries.filter (·.1 ≠ fingerprint) = cache.entries.filter (·.1 ≠ fingerprint))
    (hs : before.entries.Sublist cache.entries)
    (hh : before.counters.hits = cache.counters.hits)
    (hw : before.counters.writes = cache.counters.writes) (engine : String) (bytecode : Bytes) :
    ActsOn cache (some fingerprint) (before.store fs fingerprint engine bytecode).1 := by
  have hstore := before.stores fs fingerprint engine bytecode
  generalize before.store fs fingerprint engine bytecode = result at hstore ⊢
  cases hstore with
  | skips _ => exact (Acts.rests hc hs).uncounted (not_counts_of_eq hh hw) _
  | fails _ _ =>
      have hrests : Acts cache none
          { before with counters.errors := before.counters.errors + 1 } := .rests hc hs
      exact hrests.uncounted (not_counts_of_eq hh hw) _
  | @writes written _ _ =>
      have hwrites := writes_enforceLimit_noteStored before written written.tick.2 fingerprint
        (Entry.encode sha256 fingerprint engine bytecode).length
      exact (acts_stores hc he written _ _).counted (Or.inr (by omega))

/-! ## All actions -/

theorem actsOn_getOrCompile (source : Bytes) (engine : String) (options : CompileOptions)
    (compile : Bytes → CompileOptions → Except CompileError Bytes) :
    ActsOn cache (some (cache.fingerprintOf source engine options))
      (cache.getOrCompile fs source engine options compile).2.1 := by
  have hlookup := lookup_spec cache fs (cache.fingerprintOf source engine options) engine
  have hobtains := cache.obtains fs source engine options compile
  generalize (cache.getOrCompile fs source engine options compile).2 = result at hobtains ⊢
  cases hobtains with
  | looksUp =>
      rcases hlookup with ⟨-, -, hfinds⟩ | ⟨-, hmisses⟩
      · exact hfinds.actsOn
      · exact hmisses.actsOn
  | stores hl _ =>
      rw [hl] at hlookup
      rcases hlookup with ⟨payload, hnever, -⟩ | ⟨-, hmisses⟩
      · cases hnever
      · refine actsOn_store hmisses.clock ?_ ?_ hmisses.hits hmisses.writes engine _
        · rw [hmisses.entries, entries_forget, List.filter_filter]
          simp
        · rw [hmisses.entries]
          exact entries_forget_sublist cache _

theorem entries_clear (cache : Cache) (fs : FileSystem) : (cache.clear fs).2.1.entries = [] :=
  (flush_entries { cache with entries := [], currentSize := 0, dirty := true } _).1

theorem clock_flush (cache : Cache) (fs : FileSystem) :
    (cache.flush fs).2.1.clock = cache.clock := by
  have hflush := cache.flushes fs
  generalize (cache.flush fs).2 = result at hflush ⊢
  cases hflush with
  | rests _ => rfl
  | writes _ _ => rfl

theorem actsOn_perform (cache : Cache) (fs : FileSystem) (action : Action) :
    ActsOn cache (action.entry? cache) (cache.perform fs action).1 := by
  have hnone : ∀ next : Cache, next.counters = cache.counters → next.clock = cache.clock →
      next.entries.Sublist cache.entries → ActsOn cache none next :=
    fun next hcounters hclock hentries => (Acts.rests hclock hentries).uncounted
      (not_counts_of_eq (by rw [hcounters]) (by rw [hcounters])) none
  cases action with
  | lookup source engine options =>
      rw [perform, Action.entry?]
      rcases lookup_spec cache fs (cache.fingerprintOf source engine options) engine with
        ⟨payload, -, hfinds⟩ | ⟨-, hmisses⟩
      · exact hfinds.actsOn
      · exact hmisses.actsOn
  | store fingerprint engine bytecode =>
      rw [perform, Action.entry?]
      exact actsOn_store rfl rfl (List.Sublist.refl _) rfl rfl engine bytecode
  | getOrCompile source engine options compile =>
      rw [perform, Action.entry?]
      exact actsOn_getOrCompile source engine options compile
  | remove fingerprint =>
      rw [perform, remove_cache]
      exact hnone _ (counters_forget cache fingerprint) (clock_forget cache fingerprint)
        (entries_forget_sublist cache fingerprint)
  | clear =>
      have hclock : (cache.clear fs).2.1.clock = cache.clock :=
        clock_flush { cache with entries := [], currentSize := 0, dirty := true } _
      have hnil := entries_clear cache fs
      exact hnone _ (counters_clear cache fs) hclock (hnil ▸ List.nil_sublist _)
  | flush =>
      have hsame := (flush_entries cache fs).1
      exact hnone _ (counters_flush cache fs) (clock_flush cache fs) (hsame ▸ List.Sublist.refl _)

/-- An action does to the entries what its access says. -/
theorem acts_perform (cache : Cache) (fs : FileSystem) (action : Action) :
    Acts cache (cache.access? fs action) (cache.perform fs action).1 := by
  obtain ⟨hcounts, hrests⟩ := actsOn_perform cache fs action
  unfold access?
  split
  · rename_i hcounted
    exact hcounts hcounted
  · rename_i hnot
    exact hrests hnot

/-- A store that writes the file of its entry accesses it. -/
theorem access?_store {engine : String} {bytecode : Bytes} {written : FileSystem}
    (hf : (Entry.encode sha256 fingerprint engine bytecode).length ≤ cache.sizeLimit)
    (hr : fs.replaceFile cache.directory (cache.entryPath fingerprint)
      (Entry.encode sha256 fingerprint engine bytecode) = .ok written) :
    cache.access? fs (.store fingerprint engine bytecode) = some fingerprint := by
  have hwrites := writes_enforceLimit_noteStored cache written written.tick.2 fingerprint
    (Entry.encode sha256 fingerprint engine bytecode).length
  have hcounts : CountsAccess cache.counters
      (cache.perform fs (.store fingerprint engine bytecode)).1.counters := by
    rw [perform, store_of_replaceFile hf hr]
    exact Or.inr (by omega)
  rw [access?, if_pos hcounts, Action.entry?]

end ScriptModules.Cache
