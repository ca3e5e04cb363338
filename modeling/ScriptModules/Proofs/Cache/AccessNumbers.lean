import ScriptModules.Proofs.Cache.Accesses
import ScriptModules.Proofs.Cache.OpeningOrder

/-!
# Whether the numbers of accesses grow

An access gets the number after the last one, and what is accessed last is to be evicted last.
A cache that was opened takes its clock from the index, where any number of 64 bits may stand.
Behind the largest number comes zero.

Until then every accessed entry outranks all others (`Ranked`).  So this goes wrong with the
first access that finds the clock at its end while other entries are there.
-/

namespace ScriptModules.Cache

variable {cache next : Cache} {fs : FileSystem} {fingerprint : Fingerprint}

/-! ## Accesses of a run -/

/-- The entry that is accessed in an event. -/
def accessIn? (cache : Cache) (fs : FileSystem) : Event → Option Fingerprint
  | .act action => cache.access? fs action
  | .change _ => none

/-- Something holds of every access in a run: of the cache before it, the entry that is
accessed, and the cache after it. -/
def EachAccess (P : Cache → Fingerprint → Cache → Prop) : List Event → Cache → FileSystem → Prop
  | [], _, _ => True
  | event :: events, cache, fs =>
    (∀ fingerprint, cache.accessIn? fs event = some fingerprint →
      P cache fingerprint (cache.undergo fs event).1) ∧
    EachAccess P events (cache.undergo fs event).1 (cache.undergo fs event).2

/-- An event does what an action does, or nothing. -/
theorem acts_undergo (cache : Cache) (fs : FileSystem) (event : Event) :
    Acts cache (cache.accessIn? fs event) (cache.undergo fs event).1 := by
  cases event with
  | act action => exact acts_perform cache fs action
  | change files => exact .rests rfl (List.Sublist.refl _)

/-- The number that an access gets is higher than those of all other entries, and its entry is
evicted only if no other is left. -/
structure Outranks (before : Cache) (fingerprint : Fingerprint) (after : Cache) : Prop where
  others : ∀ other entry, other ≠ fingerprint → before.meta? other = some entry →
    entry.sequence < before.tick.1
  number : ∀ entry, after.meta? fingerprint = some entry → entry.sequence = before.tick.1
  last : after.meta? fingerprint = none → after.entries = []

/-- The last number there is. -/
def lastNumber : UInt64 := 0xFFFFFFFFFFFFFFFF

/-- There is a number for the next access, or no other entry to compare it with. -/
def HasNumber (before : Cache) (fingerprint : Fingerprint) (_after : Cache) : Prop :=
  before.clock ≠ lastNumber ∨ ∀ other, other ≠ fingerprint → before.meta? other = none

/-! ## Ranks -/

/-- Entries are there once, and none has a number higher than that of the last access. -/
structure Ranked (cache : Cache) : Prop where
  nodup : (cache.entries.map (·.1)).Nodup
  numbers : ∀ pair ∈ cache.entries, pair.2.sequence ≤ cache.clock

/-- Before its end the clock goes up. -/
theorem lt_tick_iff : cache.clock < cache.tick.1 ↔ cache.clock ≠ lastNumber := by
  have hlt := cache.clock.toNat_lt
  have htick : cache.tick.1.toNat = (cache.clock.toNat + 1) % 2 ^ 64 := by
    show (cache.clock + 1).toNat = _
    rw [UInt64.toNat_add, UInt64.toNat_one]
  have hlast : lastNumber.toNat = 2 ^ 64 - 1 := rfl
  rw [UInt64.lt_iff_toNat_lt, htick, Ne, ← UInt64.toNat_inj, hlast]
  omega

theorem tick_of_eq_lastNumber (h : cache.clock = lastNumber) : cache.tick.1 = 0 := by
  show cache.clock + 1 = 0
  rw [h]
  rfl

/-- The number of an access is higher than the others just in case there is one for it. -/
theorem Ranked.lt_tick_iff (hr : Ranked cache) :
    (∀ other entry, other ≠ fingerprint → cache.meta? other = some entry →
      entry.sequence < cache.tick.1) ↔ HasNumber cache fingerprint next := by
  constructor
  · intro h
    by_cases hlast : cache.clock = lastNumber
    · refine Or.inr fun other hne => ?_
      by_contra hsome
      obtain ⟨entry, hentry⟩ := Option.ne_none_iff_exists'.mp hsome
      have hlt := h other entry hne hentry
      rw [tick_of_eq_lastNumber hlast] at hlt
      exact UInt64.not_lt_zero hlt
    · exact Or.inl hlast
  · rintro (hclock | hnone) other entry hne hentry
    · exact UInt64.lt_of_le_of_lt (hr.numbers _ (Association.mem_of_lookup hentry))
        (Cache.lt_tick_iff.mpr hclock)
    · rw [hnone other hne] at hentry
      cases hentry

/-! ## What an access keeps -/

section Noting

variable {noted : Cache} {entry : EntryMeta}

theorem Ranked.nodup_note (hr : Ranked cache)
    (he : noted.entries = (cache.note fingerprint entry).entries) :
    (noted.entries.map (·.1)).Nodup := by
  rw [he]
  exact Association.nodup_filter_append fingerprint entry hr.nodup

/-- A noted entry has the number of its access, and the others have lower ones. -/
theorem Ranked.note (hr : Ranked cache) (hs : entry.sequence = cache.tick.1)
    (hc : noted.clock = cache.tick.1)
    (he : noted.entries = (cache.note fingerprint entry).entries)
    (hh : HasNumber cache fingerprint next) : Ranked noted := by
  refine ⟨hr.nodup_note he, fun pair hpair => ?_⟩
  have hentries : noted.entries = cache.entries.filter (·.1 ≠ fingerprint) ++
      [(fingerprint, entry)] := he
  rw [hc]
  rw [hentries] at hpair
  rcases List.mem_append.mp hpair with hold | hnew
  · obtain ⟨hmem, hne⟩ := List.mem_filter.mp hold
    have hmeta : cache.meta? pair.1 = some pair.2 := Association.lookup_of_mem hr.nodup hmem
    exact UInt64.le_of_lt (hr.lt_tick_iff.mpr hh pair.1 pair.2 (of_decide_eq_true hne) hmeta)
  · rw [List.mem_singleton.mp hnew, hs]
    exact UInt64.le_refl _

/-- What has the highest number goes last. -/
theorem entries_enforceLimit_eq_nil (hn : (noted.entries.map (·.1)).Nodup)
    (hm : noted.meta? fingerprint = some entry)
    (ho : ∀ other known, other ≠ fingerprint → noted.meta? other = some known →
      known.sequence < entry.sequence)
    (hg : (noted.enforceLimit fs).1.meta? fingerprint = none) :
    (noted.enforceLimit fs).1.entries = [] := by
  obtain ⟨count, hentries⟩ := entries_enforceLimit noted fs
  have hgone : fingerprint ∈ noted.evictionOrder.take count := by
    by_contra hnot
    rw [meta?_of_entries_eq_filter hentries, if_neg hnot, hm] at hg
    cases hg
  rw [hentries, List.filter_eq_nil_iff]
  intro pair hpair
  have hmeta : noted.meta? pair.1 = some pair.2 := Association.lookup_of_mem hn hpair
  simp only [decide_not, Bool.not_eq_eq_eq_not, Bool.not_true, decide_eq_false_iff_not,
    Decidable.not_not]
  by_contra hleft
  have hpairwise := pairwise_evictionOrder hn
  have hmem : pair.1 ∈ noted.evictionOrder :=
    (mem_evictionOrder_iff hn).mpr (by rw [contains, hmeta]; rfl)
  rw [← List.take_append_drop count noted.evictionOrder] at hmem hpairwise
  have hbehind := (List.mem_append.mp hmem).resolve_left hleft
  have hne : pair.1 ≠ fingerprint := fun heq => hleft (heq ▸ hgone)
  exact (List.pairwise_append.mp hpairwise).2.2 _ hgone _ hbehind entry pair.2 hm hmeta
    (accessedBefore_iff.mpr (Or.inl (ho pair.1 pair.2 hne hmeta)))

end Noting

/-- An access outranks the others just in case there is a number for it. -/
theorem Acts.outranks_iff (h : Acts cache (some fingerprint) next) (hr : Ranked cache) :
    Outranks cache fingerprint next ↔ HasNumber cache fingerprint next := by
  refine ⟨fun houtranks => hr.lt_tick_iff.mp houtranks.others, fun hh => ?_⟩
  have hothers := hr.lt_tick_iff.mpr hh
  cases h with
  | hits entry hsequence hclock hentries =>
      have hmeta := meta?_of_entries_eq_note hentries fingerprint
      rw [if_pos rfl] at hmeta
      refine ⟨hothers, fun known hknown => ?_, fun hnone => ?_⟩
      · rw [hmeta] at hknown
        cases hknown
        exact hsequence
      · rw [hmeta] at hnone
        cases hnone
  | @stores noted _ entry files hsequence hclock hentries =>
      have hmeta := meta?_of_entries_eq_note hentries
      have hself : noted.meta? fingerprint = some entry := (hmeta fingerprint).trans (if_pos rfl)
      refine ⟨hothers, fun known hknown => ?_, ?_⟩
      · obtain ⟨count, hkept⟩ := entries_enforceLimit noted files
        rw [meta?_of_entries_eq_filter hkept] at hknown
        split at hknown
        · cases hknown
        · rw [hself] at hknown
          cases hknown
          exact hsequence
      · refine entries_enforceLimit_eq_nil (hr.nodup_note hentries) hself ?_
        intro other known hne hknown
        rw [hmeta, if_neg hne] at hknown
        rw [hsequence]
        exact hothers other known hne hknown

theorem clock_evict (rounds : Nat) (cache : Cache) (fs : FileSystem) :
    (evict rounds cache fs).1.clock = cache.clock :=
  evict_induct (motive := fun next _ => next.clock = cache.clock)
    (fun next _ victim _ h => (clock_forget next victim).trans h) rounds rfl

theorem clock_enforceLimit (cache : Cache) (fs : FileSystem) :
    (cache.enforceLimit fs).1.clock = cache.clock :=
  clock_evict cache.size cache fs

theorem Ranked.of_sublist (hr : Ranked cache) (hc : next.clock = cache.clock)
    (he : next.entries.Sublist cache.entries) : Ranked next :=
  ⟨hr.nodup.sublist (he.map _), fun pair hpair => hc ▸ hr.numbers pair (he.subset hpair)⟩

/-- Ranks are kept as long as there are numbers. -/
theorem Acts.ranked {accessed : Option Fingerprint} (h : Acts cache accessed next)
    (hr : Ranked cache)
    (hh : ∀ fingerprint, accessed = some fingerprint → HasNumber cache fingerprint next) :
    Ranked next := by
  cases h with
  | rests hclock hentries => exact hr.of_sublist hclock hentries
  | hits entry hsequence hclock hentries =>
      exact hr.note hsequence hclock hentries (hh _ rfl)
  | @stores noted _ entry files hsequence hclock hentries =>
      have hnoted := hr.note hsequence hclock hentries (hh _ rfl)
      obtain ⟨count, hkept⟩ := entries_enforceLimit noted files
      refine hnoted.of_sublist (clock_enforceLimit noted files) ?_
      rw [hkept]
      exact List.filter_sublist

/-! ## Runs -/

/-- From a ranked cache on, all accesses outrank the others just in case there are numbers for
all. -/
theorem Ranked.eachAccess_outranks_iff (events : List Event) (hr : Ranked cache) :
    EachAccess Outranks events cache fs ↔ EachAccess HasNumber events cache fs := by
  induction events generalizing cache fs with
  | nil => exact Iff.rfl
  | cons event events ih =>
      have hacts := acts_undergo cache fs event
      have hhere : (∀ fingerprint, cache.accessIn? fs event = some fingerprint →
          Outranks cache fingerprint (cache.undergo fs event).1) ↔
        ∀ fingerprint, cache.accessIn? fs event = some fingerprint →
          HasNumber cache fingerprint (cache.undergo fs event).1 :=
        forall₂_congr fun fingerprint haccess => (haccess ▸ hacts).outranks_iff hr
      rw [EachAccess, EachAccess, hhere]
      exact and_congr_right fun hnumbers => ih (hacts.ranked hr hnumbers)

/-- An event takes one number at most. -/
theorem Acts.clock_le {accessed : Option Fingerprint} (h : Acts cache accessed next) :
    next.clock.toNat ≤ cache.clock.toNat + 1 := by
  have htick : cache.tick.1.toNat ≤ cache.clock.toNat + 1 := by
    show (cache.clock + 1).toNat ≤ _
    rw [UInt64.toNat_add, UInt64.toNat_one]
    exact Nat.mod_le _ _
  cases h with
  | rests hclock _ => rw [hclock]; omega
  | hits _ _ hclock _ => rwa [hclock]
  | stores _ files _ hclock _ => rwa [clock_enforceLimit, hclock]

/-- There are numbers for as many events as the clock is from its end. -/
theorem eachAccess_hasNumber (events : List Event)
    (h : cache.clock.toNat + events.length < 2 ^ 64) : EachAccess HasNumber events cache fs := by
  induction events generalizing cache fs with
  | nil => exact trivial
  | cons event events ih =>
      rw [List.length_cons] at h
      refine ⟨fun fingerprint _ => Or.inl fun hlast => ?_, ih ?_⟩
      · have hclock : cache.clock.toNat = 2 ^ 64 - 1 := by rw [hlast]; rfl
        omega
      · have hle := (acts_undergo cache fs event).clock_le
        omega

/-! ## Where the clock starts -/

/-- A number is zero, or one of an index. -/
def IsNumberOf (index : Index) (number : UInt64) : Prop :=
  number = 0 ∨ ∃ pair ∈ index, pair.2.sequence = number

theorem IsNumberOf.max {index : Index} {a b : UInt64} (ha : IsNumberOf index a)
    (hb : IsNumberOf index b) : IsNumberOf index (max a b) := by
  show IsNumberOf index (if a ≤ b then b else a)
  split
  · exact hb
  · exact ha

theorem IsNumberOf.takesIn {index : Index} {scan next : Scan} {name : Name}
    (h : IsNumberOf index scan.cache.clock) (ht : TakesIn index scan name next) :
    IsNumberOf index next.cache.clock := by
  cases ht with
  | deletes _ => exact h
  | passes => exact h
  | notes entry _ _ _ he =>
      refine h.max ?_
      rcases he with hindexed | hzero
      · exact Or.inr ⟨_, Association.mem_of_lookup hindexed, rfl⟩
      · exact Or.inl hzero

/-- The clock of a cache that was opened is zero, or a number from its index. -/
theorem isNumberOf_openAt {config : CacheConfig} {after : FileSystem}
    (h : openAt config fs = (.ok cache, after)) :
    IsNumberOf (indexAt config.directory (fs.makeDirectories config.directory).2) cache.clock := by
  obtain ⟨made, scanned, middle, hmade, hscan, henforce⟩ := of_openAt h
  have hscanned : IsNumberOf (indexAt config.directory made) scanned.clock :=
    scan_induct (motive := fun next _ => IsNumberOf (indexAt config.directory made) next.clock)
      hscan (Or.inl rfl) (fun _ _ _ hnumber htakes => hnumber.takesIn htakes) fun _ _ _ h => h
  have hclock : cache.clock = scanned.clock := by
    have henforced := clock_enforceLimit scanned middle
    rwa [henforce] at henforced
  rw [hclock, hmade]
  exact hscanned

/-- Whatever a directory holds, and whatever happens after a cache was opened on it: every hit
and every store outranks all other entries as long as the clock is not at its end while there
are other entries.  So it is for as many events as the clock is from its end, and it starts
from zero or from a number in the index. -/
theorem openAt_outranks_iff {config : CacheConfig} {after : FileSystem}
    (h : openAt config fs = (.ok cache, after)) (events : List Event) :
    (EachAccess Outranks events cache after ↔ EachAccess HasNumber events cache after) ∧
      (cache.clock.toNat + events.length < 2 ^ 64 → EachAccess Outranks events cache after) ∧
      IsNumberOf (indexAt config.directory (fs.makeDirectories config.directory).2)
        cache.clock := by
  have hranked : Ranked cache := ⟨(accounted_openAt h).nodup, (timed_openAt h).entries⟩
  have hiff := @Ranked.eachAccess_outranks_iff cache after events hranked
  exact ⟨hiff, fun hnumbers => hiff.mpr (eachAccess_hasNumber events hnumbers),
    isNumberOf_openAt h⟩

/-- All goes well from an empty directory. -/
theorem outranks_emptyDirectory :
    openAt (limitedConfig 1000) emptyDirectory = (.ok (limitedCache 1000), emptyDirectory) ∧
      EachAccess Outranks [.act (.store (uniform 0xAA) "1" [0x61]),
        .act (.store (uniform 0xBB) "1" [0x62]), .act (.store (uniform 0xAA) "1" [0x63])]
        (limitedCache 1000) emptyDirectory := by
  have hopen := openAt_emptyDirectory 1000
  exact ⟨hopen, (openAt_outranks_iff hopen _).2.1 (by decide)⟩

/-! ## A clock at its end -/

/-- An entry with the last number there is. -/
def wornEntry : EntryMeta :=
  { size := 4, lastAccess := ⟨978307200, 0⟩, sequence := lastNumber, hits := 0 }

/-- A directory with that entry. -/
def wornDirectory : FileSystem :=
  { FileSystem.empty with nodes := [([Bytes.ofText "c"], .directory),
      ([Bytes.ofText "c", nameOf (uniform 0xAA)], .file [1, 2, 3, 4] ⟨978307200, 0⟩),
      ([Bytes.ofText "c", indexFile],
        .file (Bytes.ofText (indexOfOne wornEntry).render) ⟨978307200, 0⟩)] }

/-- The cache that is opened there. -/
def wornCache : Cache :=
  { limitedCache 85 with
    entries := [(uniform 0xAA, wornEntry)], currentSize := 4, clock := lastNumber }

theorem scan_wornDirectory :
    (limitedCache 85).scan wornDirectory = .ok (wornCache, wornDirectory) := by
  have hlist : wornDirectory.list (.ofString "/c") = .ok [nameOf (uniform 0xAA), indexFile] := by
    generalize hc : Bytes.ofText (indexOfOne wornEntry).render = content
    rw [wornDirectory, hc]
    cbv
  have hindex : indexAt (.ofString "/c") wornDirectory = indexOfOne wornEntry := by
    have hread : wornDirectory.read ((Path.ofString "/c").join (.ofString indexName)) =
        .ok (Bytes.ofText (indexOfOne wornEntry).render) := by
      rfl
    rw [indexAt, hread]
    exact read_indexOfOne ⟨by decide, by decide, by decide, by decide⟩
  have hindex' : indexAt (limitedCache 85).directory wornDirectory = indexOfOne wornEntry := hindex
  rw [scan_of_list hlist, hindex']
  generalize hc : Bytes.ofText (indexOfOne wornEntry).render = content
  rw [wornDirectory, hc]
  rfl

theorem openAt_wornDirectory :
    openAt (limitedConfig 85) wornDirectory = (.ok wornCache, wornDirectory) := by
  have hmade : wornDirectory.makeDirectories (.ofString "/c") = (.ok (), wornDirectory) := by
    rfl
  have hwithin : wornCache.currentSize ≤ wornCache.sizeLimit := by decide
  have hopen : openAt (limitedConfig 85) wornDirectory = _ :=
    openAt_of_scan hmade scan_wornDirectory
  rwa [enforceLimit_of_le hwithin] at hopen

/-- Another entry is stored. -/
def storingAnother : Action := .store (uniform 0xBB) "1" [0x62]

theorem access?_storingAnother :
    wornCache.access? wornDirectory storingAnother = some (uniform 0xBB) := by
  have hlength : (Entry.encode sha256 (uniform 0xBB) "1" [0x62]).length ≤ wornCache.sizeLimit := by
    rw [length_encode]
    decide +kernel
  obtain ⟨written, hreplace⟩ : ∃ written, wornDirectory.replaceFile wornCache.directory
      (wornCache.entryPath (uniform 0xBB)) (Entry.encode sha256 (uniform 0xBB) "1" [0x62]) =
        .ok written := by
    generalize Entry.encode sha256 (uniform 0xBB) "1" [0x62] = file
    exact ⟨_, rfl⟩
  exact access?_store hlength hreplace

/-- What is stored then gets number zero, and does not outrank the other entry. -/
theorem not_outranks :
    openAt (limitedConfig 85) wornDirectory = (.ok wornCache, wornDirectory) ∧
      ¬ EachAccess Outranks [.act storingAnother] wornCache wornDirectory := by
  refine ⟨openAt_wornDirectory, fun h => ?_⟩
  have hothers := (h.1 (uniform 0xBB) access?_storingAnother).others
  have hlt := hothers (uniform 0xAA) wornEntry (by decide) (by rfl)
  exact absurd hlt (by decide)

end ScriptModules.Cache
