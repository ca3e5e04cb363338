import ScriptModules.Proofs.Cache.Size

/-!
# The order of accesses

Entries are evicted in the order of their last access.  Accesses are numbered, so the
last access is the one with the highest number, and an entry that was just written is
evicted after all others.  This holds as long as the numbers do not run out: the one
after the largest is zero.  A cache starts from the largest number in its index and
takes at most one for each event (`Timed`).
-/

namespace ScriptModules.Cache

variable {cache : Cache} {fs : FileSystem}

/-! ## Before and after -/

theorem accessedBefore_iff {a b : EntryMeta} : accessedBefore a b = true ↔
    a.sequence < b.sequence ∨ a.sequence = b.sequence ∧
      (a.lastAccess.seconds < b.lastAccess.seconds ∨
        a.lastAccess.seconds = b.lastAccess.seconds ∧ a.lastAccess.nanos < b.lastAccess.nanos) := by
  simp [accessedBefore, Timestamp.before]

/-- Whatever stands beside two accesses comes after the first or before the second. -/
theorem accessedBefore_or {a b : EntryMeta} (h : accessedBefore a b = true) (c : EntryMeta) :
    accessedBefore a c = true ∨ accessedBefore c b = true := by
  simp only [accessedBefore_iff, UInt64.lt_iff_toNat_lt, ← UInt64.toNat_inj] at h ⊢
  omega

theorem not_accessedBefore_of_lt {a b : EntryMeta} (h : b.sequence < a.sequence) :
    ¬ accessedBefore a b = true := by
  simp only [accessedBefore_iff, UInt64.lt_iff_toNat_lt, ← UInt64.toNat_inj] at h ⊢
  omega

theorem not_accessedBefore_of_before {a b : EntryMeta} (h : accessedBefore a b = true) :
    ¬ accessedBefore b a = true := by
  simp only [accessedBefore_iff, UInt64.lt_iff_toNat_lt, ← UInt64.toNat_inj] at h ⊢
  omega

theorem not_accessedBefore_self (a : EntryMeta) : ¬ accessedBefore a a = true :=
  fun h => not_accessedBefore_of_before h h

/-- Neither of two entries was accessed before the earlier one. -/
theorem not_accessedBefore_earlier (a b : Fingerprint × EntryMeta) :
    ¬ accessedBefore a.2 (earlier a b).2 = true ∧ ¬ accessedBefore b.2 (earlier a b).2 = true := by
  unfold earlier
  split
  · rename_i hbefore
    exact ⟨not_accessedBefore_of_before hbefore, not_accessedBefore_self b.2⟩
  · rename_i hnot
    exact ⟨not_accessedBefore_self a.2, hnot⟩

/-- No entry of a list was accessed before the earliest one. -/
theorem not_accessedBefore_foldl (rest : List (Fingerprint × EntryMeta))
    (first : Fingerprint × EntryMeta) :
    ∀ pair ∈ first :: rest, ¬ accessedBefore pair.2 (rest.foldl earlier first).2 = true := by
  induction rest generalizing first with
  | nil =>
      intro pair hpair
      rw [List.mem_singleton.mp hpair]
      exact not_accessedBefore_self first.2
  | cons next rest ih =>
      have hleast := ih (earlier first next) (earlier first next) List.mem_cons_self
      obtain ⟨hfirst, hnext⟩ := not_accessedBefore_earlier first next
      -- What comes before the earliest would come before the earlier of the first two.
      have hthrough : ∀ pair : Fingerprint × EntryMeta,
          ¬ accessedBefore pair.2 (earlier first next).2 = true →
            ¬ accessedBefore pair.2 (rest.foldl earlier (earlier first next)).2 = true := by
        intro pair hnot hbefore
        rcases accessedBefore_or hbefore (earlier first next).2 with hpair | hlast
        · exact hnot hpair
        · exact hleast hlast
      rw [List.foldl_cons]
      intro pair hpair
      rcases List.mem_cons.mp hpair with rfl | hpair
      · exact hthrough pair hfirst
      · rcases List.mem_cons.mp hpair with rfl | hpair
        · exact hthrough pair hnext
        · exact ih (earlier first next) pair (List.mem_cons_of_mem _ hpair)

/-! ## The entry that was noted last -/

/-- An entry is noted behind the others.  It is the oldest only if all others were
accessed after it; else the oldest is one of those that were not. -/
theorem of_oldest? {others : List (Fingerprint × EntryMeta)} {fingerprint victim : Fingerprint}
    {entry : EntryMeta} (he : cache.entries = others ++ [(fingerprint, entry)])
    (h : cache.oldest? = some victim) :
    (victim = fingerprint ∧ ∀ pair ∈ others, accessedBefore entry pair.2 = true) ∨
      ∃ old, (victim, old) ∈ others ∧ ¬ accessedBefore entry old = true := by
  cases others with
  | nil =>
      rw [oldest?_eq_foldl he] at h
      exact Or.inl ⟨(Option.some.inj h).symm, fun pair hpair => nomatch hpair⟩
  | cons first rest =>
      rw [List.cons_append] at he
      rw [oldest?_eq_foldl he, List.foldl_append, List.foldl_cons, List.foldl_nil] at h
      have hmem := foldl_earlier_mem rest first
      have hleast := not_accessedBefore_foldl rest first
      generalize rest.foldl earlier first = oldest at h hmem hleast
      unfold earlier at h
      split at h
      · rename_i hbefore
        refine Or.inl ⟨(Option.some.inj h).symm, fun pair hpair => ?_⟩
        exact (accessedBefore_or hbefore pair.2).resolve_right (hleast pair hpair)
      · rename_i hnot
        obtain rfl := Option.some.inj h
        exact Or.inr ⟨oldest.2, hmem, hnot⟩

/-- The bytes of the entries that were accessed after an entry. -/
def sizeAfter (entry : EntryMeta) (others : List (Fingerprint × EntryMeta)) : Nat :=
  ((others.filter fun pair => accessedBefore entry pair.2).map (·.2.size)).sum

/-- They are among all entries. -/
theorem sizeAfter_le (entry : EntryMeta) (others : List (Fingerprint × EntryMeta)) :
    sizeAfter entry others ≤ (others.map (·.2.size)).sum :=
  (List.filter_sublist.map _).sum_le_sum fun _ _ => Nat.zero_le _

/-- They are all of them if every entry was accessed after it. -/
theorem sizeAfter_eq_sum {entry : EntryMeta} {others : List (Fingerprint × EntryMeta)}
    (h : ∀ pair ∈ others, accessedBefore entry pair.2 = true) :
    sizeAfter entry others = (others.map (·.2.size)).sum := by
  rw [sizeAfter, List.filter_eq_self.mpr h]

theorem sizeAfter_eq_zero {entry : EntryMeta} {others : List (Fingerprint × EntryMeta)}
    (h : ∀ pair ∈ others, ¬ accessedBefore entry pair.2 = true) : sizeAfter entry others = 0 := by
  rw [sizeAfter, List.filter_eq_nil_iff.mpr h]
  rfl

/-- An entry that was not accessed after it may go. -/
theorem sizeAfter_filter_ne {entry old : EntryMeta} {others : List (Fingerprint × EntryMeta)}
    {victim : Fingerprint} (hn : (others.map (·.1)).Nodup) (hmem : (victim, old) ∈ others)
    (hnot : ¬ accessedBefore entry old = true) :
    sizeAfter entry (others.filter (·.1 ≠ victim)) = sizeAfter entry others := by
  rw [sizeAfter, sizeAfter, List.filter_filter]
  congr 2
  refine List.filter_congr fun pair hpair => ?_
  by_cases heq : pair.1 = victim
  · have hold : pair.2 = old := by
      have hfound := Association.lookup_of_mem hn hpair
      rw [heq, Association.lookup_of_mem hn hmem] at hfound
      exact (Option.some.inj hfound).symm
    simp [heq, hold, hnot]
  · simp [heq]

/-! ## Numbers of accesses -/

/-- No access has a higher number than the last one, and this is at most `n`. -/
structure Timed (n : Nat) (cache : Cache) : Prop where
  clock : cache.clock.toNat ≤ n
  entries : ∀ pair ∈ cache.entries, pair.2.sequence ≤ cache.clock

variable {n : Nat}

theorem Timed.mono {m : Nat} (h : Timed n cache) (hle : n ≤ m) : Timed m cache :=
  ⟨Nat.le_trans h.clock hle, h.entries⟩

/-- Entries may be taken out. -/
theorem Timed.of_subset {other : Cache} (h : Timed n cache) (hc : other.clock = cache.clock)
    (he : other.entries ⊆ cache.entries) : Timed n other := by
  refine ⟨hc ▸ h.clock, fun pair hpair => ?_⟩
  rw [hc]
  exact h.entries pair (he hpair)

/-- The next access has the highest number, unless the numbers have run out. -/
theorem Timed.lt_tick (h : Timed n cache) (hn : n + 1 < 2 ^ 64) : cache.clock < cache.tick.1 ∧
    cache.tick.1.toNat ≤ n + 1 := by
  have hclock := h.clock
  have hnext : cache.tick.1.toNat = cache.clock.toNat + 1 := by
    show (cache.clock + 1).toNat = cache.clock.toNat + 1
    rw [UInt64.toNat_add, UInt64.toNat_one, Nat.mod_eq_of_lt (by omega)]
  rw [UInt64.lt_iff_toNat_lt, hnext]
  omega

/-- Noting an entry with the number of an access that is the last. -/
theorem Timed.note (h : Timed n cache) (hn : n + 1 < 2 ^ 64) {fingerprint : Fingerprint}
    {entry : EntryMeta} (hs : entry.sequence = cache.tick.1) {other : Cache}
    (hc : other.clock = cache.tick.1)
    (he : other.entries = (cache.note fingerprint entry).entries) : Timed (n + 1) other := by
  obtain ⟨hlt, hle⟩ := h.lt_tick hn
  refine ⟨hc ▸ hle, fun pair hpair => ?_⟩
  have hentries : other.entries = cache.entries.filter (·.1 ≠ fingerprint) ++
      [(fingerprint, entry)] := he
  rw [hc]
  rw [hentries] at hpair
  rcases List.mem_append.mp hpair with hold | hnew
  · exact UInt64.le_of_lt (UInt64.lt_of_le_of_lt (h.entries pair (List.mem_filter.mp hold).1) hlt)
  · rw [List.mem_singleton.mp hnew, hs]
    exact UInt64.le_refl _

theorem Timed.forget (h : Timed n cache) (fingerprint : Fingerprint) :
    Timed n (cache.forget fingerprint) := by
  unfold Cache.forget
  split
  · exact h
  · exact h.of_subset rfl (List.filter_subset_self _)

theorem Timed.remove (h : Timed n cache) (fingerprint : Fingerprint) :
    Timed n (cache.remove fs fingerprint).2.1 := by
  rw [remove_cache]
  exact h.forget fingerprint

theorem Timed.evict (rounds : Nat) (h : Timed n cache) :
    Timed n (Cache.evict rounds cache fs).1 :=
  evict_induct (motive := fun next _ => Timed n next)
    (fun _ _ victim _ hnext => (hnext.forget victim).of_subset rfl (List.Subset.refl _)) rounds h

theorem Timed.enforceLimit (h : Timed n cache) : Timed n (cache.enforceLimit fs).1 :=
  h.evict cache.size

theorem Timed.noteHit (h : Timed n cache) (hn : n + 1 < 2 ^ 64) (fingerprint : Fingerprint)
    (size : Nat) : Timed (n + 1) (cache.noteHit fs fingerprint size).1 := by
  unfold Cache.noteHit
  simp only
  split
  · exact h.note hn rfl rfl rfl
  · exact h.note hn rfl rfl rfl

theorem Timed.noteStored (h : Timed n cache) (hn : n + 1 < 2 ^ 64) (fingerprint : Fingerprint)
    (size : Nat) : Timed (n + 1) (cache.noteStored fs fingerprint size).1 := by
  have hentries : (cache.noteStored fs fingerprint size).1.entries = (cache.note fingerprint
      { size, lastAccess := fs.tick.1, sequence := cache.tick.1, hits := 0 }).entries := rfl
  exact h.note hn rfl rfl hentries

/-- A lookup numbers an access only if it finds something. -/
theorem Timed.lookup (h : Timed n cache) (hn : n + 1 < 2 ^ 64) (fingerprint : Fingerprint)
    (engine : String) :
    Timed (if (cache.lookup fs fingerprint engine).1.isSome then n + 1 else n)
      (cache.lookup fs fingerprint engine).2.1 := by
  have hlookup := cache.looksUp fs fingerprint engine
  generalize cache.lookup fs fingerprint engine = result at hlookup ⊢
  cases hlookup with
  | finds _ => exact (h.noteHit hn fingerprint _).of_subset rfl (List.Subset.refl _)
  | misses _ => exact (h.forget fingerprint).of_subset rfl (List.Subset.refl _)
  | drops _ => exact (h.forget fingerprint).of_subset rfl (List.Subset.refl _)

theorem Timed.store (h : Timed n cache) (hn : n + 1 < 2 ^ 64) (fingerprint : Fingerprint)
    (engine : String) (bytecode : Bytes) :
    Timed (n + 1) (cache.store fs fingerprint engine bytecode).1 := by
  have hstore := cache.stores fs fingerprint engine bytecode
  generalize cache.store fs fingerprint engine bytecode = result at hstore ⊢
  cases hstore with
  | skips _ => exact h.mono (Nat.le_succ n)
  | fails _ _ =>
      refine Timed.mono (n := n) ?_ (Nat.le_succ n)
      exact h.of_subset rfl (List.Subset.refl _)
  | writes _ _ => exact (h.noteStored hn fingerprint _).enforceLimit

theorem Timed.getOrCompile (h : Timed n cache) (hn : n + 1 < 2 ^ 64) (source : Bytes)
    (engine : String) (options : CompileOptions)
    (compile : Bytes → CompileOptions → Except CompileError Bytes) :
    Timed (n + 1) (cache.getOrCompile fs source engine options compile).2.1 := by
  have hlookup := @Timed.lookup cache fs n h hn (cache.fingerprintOf source engine options) engine
  have hobtains := cache.obtains fs source engine options compile
  generalize (cache.getOrCompile fs source engine options compile).2 = result at hobtains ⊢
  cases hobtains with
  | looksUp =>
      refine hlookup.mono ?_
      split <;> omega
  | stores hl _ =>
      rw [hl] at hlookup
      have hmissed : Timed n _ := hlookup
      exact hmissed.store hn _ engine _

theorem Timed.flush (h : Timed n cache) : Timed n (cache.flush fs).2.1 := by
  have hflush := cache.flushes fs
  generalize (cache.flush fs).2 = result at hflush ⊢
  cases hflush with
  | rests _ => exact h
  | writes _ _ => exact h.of_subset rfl (List.Subset.refl _)

theorem Timed.clear (h : Timed n cache) : Timed n (cache.clear fs).2.1 := by
  have hempty : Timed n { cache with entries := [], currentSize := 0, dirty := true } :=
    h.of_subset rfl (List.nil_subset _)
  exact hempty.flush

/-- An action takes one number at most. -/
theorem Timed.perform (h : Timed n cache) (hn : n + 1 < 2 ^ 64) (action : Action) :
    Timed (n + 1) (cache.perform fs action).1 := by
  cases action with
  | lookup source engine options =>
      rw [Cache.perform]
      refine (h.lookup hn (cache.fingerprintOf source engine options) engine).mono ?_
      split <;> omega
  | store fingerprint engine bytecode =>
      rw [Cache.perform]
      exact h.store hn fingerprint engine bytecode
  | getOrCompile source engine options compile =>
      rw [Cache.perform]
      exact h.getOrCompile hn source engine options compile
  | remove fingerprint =>
      rw [Cache.perform]
      exact (h.remove fingerprint).mono (Nat.le_succ n)
  | clear =>
      rw [Cache.perform]
      exact h.clear.mono (Nat.le_succ n)
  | flush =>
      rw [Cache.perform]
      exact h.flush.mono (Nat.le_succ n)

/-- So a run takes no more numbers than it has events. -/
theorem Timed.undergoAll (events : List Event) (h : Timed n cache)
    (hn : n + events.length < 2 ^ 64) :
    Timed (n + events.length) (Cache.undergoAll events cache fs).1 := by
  induction events generalizing cache fs n with
  | nil => exact h
  | cons event events ih =>
      rw [List.length_cons] at hn ⊢
      rw [Cache.undergoAll, show n + (events.length + 1) = n + 1 + events.length by omega]
      have hnext : Timed (n + 1) (cache.undergo fs event).1 := by
        cases event with
        | act action => exact h.perform (by omega) action
        | change files => exact h.mono (Nat.le_succ n)
      exact ih hnext (by omega)

/-! ## Opening -/

theorem le_max (a b : UInt64) : a ≤ max a b ∧ b ≤ max a b := by
  show a ≤ (if a ≤ b then b else a) ∧ b ≤ (if a ≤ b then b else a)
  simp only [UInt64.le_iff_toNat_le]
  split <;> omega

/-- A scan raises the clock to every number it comes upon. -/
theorem Timed.takesIn {index : Index} {scan next : Scan} {name : Name}
    (h : Timed scan.cache.clock.toNat scan.cache) (ht : TakesIn index scan name next) :
    Timed next.cache.clock.toNat next.cache := by
  refine ⟨Nat.le_refl _, ?_⟩
  cases ht with
  | deletes _ => exact h.entries
  | passes => exact h.entries
  | notes entry _ _ _ _ =>
      intro pair hpair
      rcases List.mem_append.mp hpair with hold | hnew
      · exact UInt64.le_trans (h.entries pair (List.mem_filter.mp hold).1) (le_max _ _).1
      · rw [List.mem_singleton.mp hnew]
        exact (le_max _ _).2

/-- A cache starts from the largest number in its index. -/
theorem timed_openAt {config : CacheConfig} {after : FileSystem}
    (h : openAt config fs = (.ok cache, after)) : Timed cache.clock.toNat cache := by
  obtain ⟨made, scanned, middle, -, hscan, henforce⟩ := of_openAt h
  have hscanned : Timed scanned.clock.toNat scanned := by
    refine scan_induct (motive := fun next _ => Timed next.clock.toNat next) hscan ?_
      (fun _ _ _ htimed htakes => htimed.takesIn htakes)
      fun _ _ _ htimed => htimed.of_subset rfl (List.Subset.refl _)
    exact ⟨Nat.le_refl _, fun pair hpair => nomatch hpair⟩
  have henforced : Timed scanned.clock.toNat (scanned.enforceLimit middle).1 :=
    hscanned.enforceLimit
  rw [henforce] at henforced
  exact ⟨Nat.le_refl _, henforced.entries⟩

end ScriptModules.Cache
