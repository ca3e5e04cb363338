import Mathlib
import ScriptModules.Proofs.Cache.EvictionOrder
import ScriptModules.Proofs.Cache.IndexText
import ScriptModules.Proofs.Cache.Mirror

/-!
# What a cache knows and what its index says

As long as a cache has nothing to write, the index in its directory says all that the cache
knows.  Every move that changes an entry marks the cache as changed, so this holds however
little was written (`Tidy`).

It takes that an index is read as it was written, for which times have to be ones that dates go
to; and accesses have numbers of their own, for which the numbers must not run out.
-/

namespace ScriptModules.Cache

open FileSystem (Files Shelf)
open Json (IsPlain)

variable {directory : Path} {place : Location} {cache : Cache} {fs : FileSystem}
  {journal : Journal} {files : Files} {fingerprint : Fingerprint} {now : Nat}

/-! ## Times -/

/-- The last reading of the clock that has a date: the last microsecond of the last day. -/
def lastReading : Nat := 8210266876799999999

theorem isReadable_time (h : fs.clock ≤ lastReading) : fs.time.IsReadable := by
  unfold lastReading at h
  refine ⟨?_, ?_, ?_⟩
  · exact Int.natCast_nonneg _
  · rw [Int.fdiv_eq_ediv_of_nonneg _ (by decide)]
    simp only [FileSystem.time, Timestamp.lastDay]
    omega
  · show fs.clock % 1000000 * 1000 < 1000000000
    omega

/-! ## Names -/

theorem isPlain_toHex (digest : Digest) : IsPlain digest.toHex := by
  have hdigit : ∀ n < 16, Json.isPlain (Text.hexDigit n) = true := by
    decide
  intro c hc
  rw [Digest.toHex, Digest.hexText, String.toList_ofList, Digest.hexOfBytes] at hc
  obtain ⟨byte, -, hdigits⟩ := List.mem_flatMap.mp hc
  have hlt := byte.toNat_lt
  simp only [List.mem_cons, List.not_mem_nil, or_false] at hdigits
  rcases hdigits with rfl | rfl
  · exact hdigit _ (by omega)
  · exact hdigit _ (by omega)

theorem map_fst_index (cache : Cache) :
    cache.index.map (·.1) = cache.entries.map (·.1.toHex) := by
  simp [index, Function.comp_def]

theorem nodup_index (h : (cache.entries.map (·.1)).Nodup) : (cache.index.map (·.1)).Nodup := by
  have hall := List.Nodup.map (fun _ _ => toHex_inj) h
  rw [List.map_map] at hall
  rw [map_fst_index]
  exact hall

/-! ## Order -/

/-- The cache mirrors its files, each access has a number of its own, times are readings of the
clock, and the index says what the cache knows unless the cache is marked as changed. -/
structure Tidy (now : Nat) (k : Keeping) : Prop where
  mirrors : Mirrors k
  timed : Timed k.journal.accesses k.cache
  distinct : (k.cache.entries.map (·.2.sequence)).Nodup
  dated : ∀ pair ∈ k.cache.entries, ∃ fs : FileSystem, fs.clock ≤ now ∧
    pair.2.lastAccess = fs.time
  index : k.cache.dirty = false → (indexOf k.files).Perm k.cache.index

theorem Tidy.wait {later : Nat} {k : Keeping} (h : Tidy now k) (hl : now ≤ later) :
    Tidy later k :=
  ⟨h.mirrors, h.timed, h.distinct, fun pair hpair => by
    obtain ⟨fs, hclock, htime⟩ := h.dated pair hpair
    exact ⟨fs, hclock.trans hl, htime⟩, h.index⟩

/-- An entry with the number of a new access is noted. -/
theorem nodup_sequence_note (ht : Timed journal.accesses cache)
    (ha : journal.accesses + 1 < 2 ^ 64) (hn : (cache.entries.map (·.2.sequence)).Nodup)
    {entry : EntryMeta} (hs : entry.sequence = cache.tick.1) :
    ((cache.note fingerprint entry).entries.map (·.2.sequence)).Nodup := by
  have hlt := (ht.lt_tick ha).1
  rw [note, List.map_append, List.nodup_append]
  refine ⟨hn.sublist (List.filter_sublist.map _), List.nodup_singleton _, ?_⟩
  intro first hfirst second hsecond heq
  obtain ⟨pair, hpair, rfl⟩ := List.mem_map.mp hfirst
  rw [List.map_singleton, List.mem_singleton, hs] at hsecond
  have hle := ht.entries pair (List.mem_filter.mp hpair).1
  rw [heq, hsecond] at hle
  exact absurd hlt (UInt64.not_lt.mpr hle)

theorem dated_note (hd : ∀ pair ∈ cache.entries, ∃ fs : FileSystem, fs.clock ≤ now ∧
      pair.2.lastAccess = fs.time)
    {entry : EntryMeta} (hc : fs.clock < now) (ht : entry.lastAccess = fs.tick.1) :
    ∀ pair ∈ (cache.note fingerprint entry).entries, ∃ fs : FileSystem, fs.clock ≤ now ∧
      pair.2.lastAccess = fs.time := by
  intro pair hpair
  rcases List.mem_append.mp hpair with hold | hnew
  · exact hd pair (List.mem_filter.mp hold).1
  · rw [List.mem_singleton.mp hnew]
    exact ⟨fs.tick.2, hc, ht⟩

/-- All that is known fits an index. -/
theorem Tidy.isWritable {k : Keeping} (h : Tidy now k) (hn : now ≤ lastReading) :
    k.cache.index.IsWritable := by
  intro pair hpair
  obtain ⟨⟨fingerprint, entry⟩, hentry, rfl⟩ := List.mem_map.mp hpair
  refine ⟨isPlain_toHex fingerprint, ?_, ?_⟩
  · have hmeta : k.cache.meta? fingerprint = some entry :=
      Association.lookup_of_mem h.mirrors.accounted.nodup hentry
    have hsize := h.mirrors.sizes fingerprint
    rw [hmeta] at hsize
    obtain ⟨file, hfile, hlength⟩ := Option.map_eq_some_iff.mp hsize.symm
    obtain ⟨engine, bytecode, -, -, hlt⟩ := h.mirrors.stocked.content fingerprint file hfile
    have hsame : file.1.length = entry.size := hlength
    rwa [hsame] at hlt
  · obtain ⟨fs, hclock, htime⟩ := h.dated _ hentry
    simp only at htime ⊢
    rw [htime]
    exact isReadable_time (hclock.trans hn)

theorem indexOf_update_nameOf (files : Files) (fingerprint : Fingerprint)
    (file : Option (Bytes × Timestamp)) :
    indexOf (Function.update files (nameOf fingerprint) file) = indexOf files := by
  unfold indexOf
  rw [Function.update_of_ne (indexFile_ne fingerprint)]

/-! ## What every move keeps -/

theorem dirty_noteHit (cache : Cache) (fs : FileSystem) (fingerprint : Fingerprint)
    (size : Nat) : (cache.noteHit fs fingerprint size).1.dirty = true := by
  simp only [noteHit]
  split <;> rfl

/-- Moves keep order, while accesses have numbers and times have dates. -/
theorem Tidy.move {k k' : Keeping} (h : Tidy now k) (hm : Keeping.Moves now k k')
    (ha : k'.journal.accesses < 2 ^ 64) (hn : now ≤ lastReading) : Tidy now k' := by
  have hmirrors := h.mirrors.move hm
  cases hm with
  | counts counters => exact ⟨hmirrors, h.timed.of_subset rfl fun _ => id, h.distinct, h.dated, h.index⟩
  | forgets fingerprint =>
      have hsublist := entries_forget_sublist k.cache fingerprint
      refine ⟨hmirrors, h.timed.forget fingerprint, h.distinct.sublist (hsublist.map _),
        fun pair hpair => h.dated pair (hsublist.subset hpair), ?_⟩
      simp only [indexOf_update_nameOf]
      unfold Cache.forget
      split
      · exact h.index
      · simp
  | @hits fs hclock fingerprint file time hfile =>
      obtain ⟨entry, hentries, -, hsequence, htime⟩ :=
        entries_noteHit k.cache fs fingerprint file.length
      refine ⟨hmirrors, h.timed.noteHit ha fingerprint file.length, ?_, ?_, ?_⟩
      · simp only [hentries]
        exact nodup_sequence_note h.timed ha h.distinct hsequence
      · simp only [hentries]
        exact dated_note h.dated hclock htime
      · simp [dirty_noteHit]
  | @stores fs hclock fingerprint engine bytecode time hfits =>
      have hentries := entries_noteStored k.cache fs fingerprint
        (Entry.encode sha256 fingerprint engine bytecode).length
      refine ⟨hmirrors, h.timed.noteStored ha fingerprint _, ?_, ?_, ?_⟩
      · simp only [hentries]
        exact nodup_sequence_note h.timed ha h.distinct rfl
      · simp only [hentries]
        exact dated_note h.dated hclock rfl
      · simp [noteStored]
  | indexes time hd =>
      refine ⟨hmirrors, h.timed.of_subset rfl fun _ => id, h.distinct, h.dated, fun _ => ?_⟩
      have hread := read_render (nodup_index h.mirrors.accounted.nodup) (h.isWritable hn)
      simp only [indexOf, Function.update_self]
      exact hread
  | clears =>
      exact ⟨hmirrors, ⟨h.timed.clock, by simp⟩, List.nodup_nil, by simp, by simp⟩

/-- Accesses are counted upwards. -/
theorem Keeping.Moves.accesses_le {k k' : Keeping} (h : Keeping.Moves now k k') :
    k.journal.accesses ≤ k'.journal.accesses := by
  cases h with
  | hits | stores => exact Nat.le_succ _
  | counts | forgets | indexes | clears => exact Nat.le_refl _

/-! ## What a scan finds again -/

/-- Caches with the same entries have them in some order. -/
theorem perm_of_meta?_eq {other : Cache} (hn : (cache.entries.map (·.1)).Nodup)
    (ho : (other.entries.map (·.1)).Nodup)
    (h : ∀ fingerprint, other.meta? fingerprint = cache.meta? fingerprint) :
    other.entries.Perm cache.entries := by
  rw [List.perm_ext_iff_of_nodup ho.of_map hn.of_map]
  rintro ⟨fingerprint, entry⟩
  have hfound := h fingerprint
  constructor
  · intro hmem
    rw [meta?, Association.lookup_of_mem ho hmem] at hfound
    exact Association.mem_of_lookup hfound.symm
  · intro hmem
    rw [meta?, meta?, Association.lookup_of_mem hn hmem] at hfound
    exact Association.mem_of_lookup hfound

/-- The clock of a scan is the highest number that it found. -/
theorem foldl_max_spec (sequence : Fingerprint → UInt64) (fingerprints : List Fingerprint)
    (start : UInt64) :
    (∀ fingerprint ∈ fingerprints, sequence fingerprint ≤
      fingerprints.foldl (fun clock fingerprint => max clock (sequence fingerprint)) start) ∧
    start ≤ fingerprints.foldl (fun clock fingerprint => max clock (sequence fingerprint)) start ∧
    ∀ bound, start ≤ bound → (∀ fingerprint ∈ fingerprints, sequence fingerprint ≤ bound) →
      fingerprints.foldl (fun clock fingerprint => max clock (sequence fingerprint)) start ≤
        bound := by
  induction fingerprints generalizing start with
  | nil => exact ⟨(fun _ hmem => nomatch hmem), UInt64.le_refl _, fun _ hle _ => hle⟩
  | cons first rest ih =>
      obtain ⟨hall, hstart, hbound⟩ := ih (max start (sequence first))
      obtain ⟨hleft, hright⟩ := le_max start (sequence first)
      refine ⟨fun fingerprint hmem => ?_, UInt64.le_trans hleft hstart, fun bound hle hrest => ?_⟩
      · rcases List.mem_cons.mp hmem with rfl | hmem
        · exact UInt64.le_trans hright hstart
        · exact hall fingerprint hmem
      · refine hbound bound ?_ fun fingerprint hmem => hrest fingerprint (List.mem_cons_of_mem _ hmem)
        show (if start ≤ sequence first then sequence first else start) ≤ bound
        split
        · exact hrest first List.mem_cons_self
        · exact hle

section Scan

variable {closed : Cache} {fingerprints : List Fingerprint}

/-- An index that is up to date has what was known of an entry. -/
theorem Tidy.lookup_index (h : Tidy now ⟨closed, files, journal⟩) (hd : closed.dirty = false)
    {entry : EntryMeta} (he : closed.meta? fingerprint = some entry) :
    (indexOf files).lookup fingerprint.toHex = some entry ∧
      entry.size = lengthOf files fingerprint ∧ files (nameOf fingerprint) ≠ none := by
  have hperm : (indexOf files).Perm closed.index := h.index hd
  have hnodup : ((indexOf files).map (·.1)).Nodup :=
    (hperm.map (·.1)).nodup_iff.mpr (nodup_index h.mirrors.accounted.nodup)
  have hmem : (fingerprint.toHex, entry) ∈ closed.index :=
    List.mem_map.mpr ⟨(fingerprint, entry), Association.mem_of_lookup he, rfl⟩
  have hsize : (closed.meta? fingerprint).map (·.size) =
      (files (nameOf fingerprint)).map (·.1.length) := h.mirrors.sizes fingerprint
  rw [he, Option.map_some] at hsize
  refine ⟨Association.lookup_of_mem hnodup (hperm.mem_iff.mpr hmem), ?_, ?_⟩
  · rw [lengthOf, ← hsize]
    rfl
  · intro hnone
    rw [hnone] at hsize
    cases hsize

/-- A scan finds all that was known when the index was written. -/
theorem Tidy.meta?_afterScan (h : Tidy now ⟨closed, files, journal⟩) (hd : closed.dirty = false)
    (hf : ∀ fingerprint, fingerprint ∈ fingerprints ↔ files (nameOf fingerprint) ≠ none)
    (cache : Cache) (fingerprint : Fingerprint) :
    (cache.afterScan (indexOf files) files fingerprints).meta? fingerprint =
      closed.meta? fingerprint := by
  rw [Cache.meta?_afterScan]
  cases hmeta : closed.meta? fingerprint with
  | some entry =>
      obtain ⟨hlookup, hsize, hfile⟩ := h.lookup_index hd hmeta
      rw [if_pos ((hf fingerprint).mpr hfile), (notedOf_of_lookup hlookup hsize).2]
  | none =>
      have hsizes : (closed.meta? fingerprint).map (·.size) =
          (files (nameOf fingerprint)).map (·.1.length) := h.mirrors.sizes fingerprint
      rw [hmeta] at hsizes
      have hnone : files (nameOf fingerprint) = none := Option.map_eq_none_iff.mp hsizes.symm
      rw [if_neg fun hmem => (hf fingerprint).mp hmem hnone]

/-- So there is nothing to write. -/
theorem Tidy.dirty_afterScan (h : Tidy now ⟨closed, files, journal⟩) (hd : closed.dirty = false)
    (hf : ∀ fingerprint, fingerprint ∈ fingerprints ↔ files (nameOf fingerprint) ≠ none)
    (cache : Cache) : (cache.afterScan (indexOf files) files fingerprints).dirty = false := by
  have hknows : fingerprints.all (knows (indexOf files) files) = true := by
    rw [List.all_eq_true]
    intro fingerprint hmem
    have hfound := h.meta?_afterScan hd hf cache fingerprint
    rw [Cache.meta?_afterScan, if_pos hmem] at hfound
    obtain ⟨hlookup, hsize, -⟩ := h.lookup_index hd hfound.symm
    exact (notedOf_of_lookup hlookup hsize).1
  have hbesides : (indexOf files).holdsBesides (fingerprints.map Digest.toHex).reverse = false := by
    rw [← Bool.not_eq_true, Index.holdsBesides, List.any_eq_true]
    rintro ⟨⟨name, entry⟩, hmem, hnot⟩
    have hindex : (name, entry) ∈ closed.index := (h.index hd).mem_iff.mp hmem
    obtain ⟨⟨fingerprint, known⟩, hentry, heq⟩ := List.mem_map.mp hindex
    cases heq
    have hmeta : closed.meta? fingerprint = some entry :=
      Association.lookup_of_mem h.mirrors.accounted.nodup hentry
    have hfile := (h.lookup_index hd hmeta).2.2
    simp only [List.contains_eq_mem, List.mem_reverse, List.mem_map, Bool.not_eq_eq_eq_not,
      Bool.not_true, decide_eq_false_iff_not, not_exists, not_and] at hnot
    exact hnot fingerprint ((hf fingerprint).mpr hfile) rfl
  simp [afterScan, hknows, hbesides]

/-- And all is in order again. -/
theorem Tidy.afterScan (h : Tidy now ⟨closed, files, journal⟩) (hd : closed.dirty = false)
    (hl : cache.sizeLimit < 2 ^ 64) (hn : fingerprints.Nodup)
    (hf : ∀ fingerprint, fingerprint ∈ fingerprints ↔ files (nameOf fingerprint) ≠ none) :
    Tidy now ⟨cache.afterScan (indexOf files) files fingerprints, files, journal⟩ := by
  have hmirrors := h.mirrors.stocked.mirrors_afterScan hl hn hf (indexOf files)
  have hperm : (cache.afterScan (indexOf files) files fingerprints).entries.Perm closed.entries :=
    perm_of_meta?_eq h.mirrors.accounted.nodup hmirrors.accounted.nodup
      (h.meta?_afterScan hd hf cache)
  obtain ⟨hall, -, hbound⟩ := foldl_max_spec
    (fun fingerprint => (notedOf (indexOf files) files fingerprint).sequence) fingerprints 0
  refine ⟨hmirrors, ⟨?_, ?_⟩, (hperm.map _).nodup_iff.mpr h.distinct,
    fun pair hpair => h.dated pair (hperm.mem_iff.mp hpair), fun _ => ?_⟩
  · refine Nat.le_trans (UInt64.le_iff_toNat_le.mp (hbound closed.clock ?_ ?_)) h.timed.clock
    · exact UInt64.le_iff_toNat_le.mpr (Nat.zero_le _)
    · intro fingerprint hmem
      have hentry : (fingerprint, notedOf (indexOf files) files fingerprint) ∈
          (cache.afterScan (indexOf files) files fingerprints).entries :=
        List.mem_map_of_mem hmem
      exact h.timed.entries _ (hperm.mem_iff.mp hentry)
  · intro pair hpair
    obtain ⟨fingerprint, hmem, rfl⟩ := List.mem_map.mp hpair
    exact hall fingerprint hmem
  · exact (h.index hd).trans (hperm.symm.map _)

end Scan

/-! ## Closing -/

theorem entries_eq_nil (h : ∀ fingerprint, cache.meta? fingerprint = none)
    (hn : (cache.entries.map (·.1)).Nodup) : cache.entries = [] := by
  rw [List.eq_nil_iff_forall_not_mem]
  rintro ⟨fingerprint, entry⟩ hmem
  have hnever := h fingerprint
  rw [meta?, Association.lookup_of_mem hn hmem] at hnever
  cases hnever

/-- Where the index cannot be written, nothing can. -/
theorem files_eq_none (hs : Shelf directory place files fs) (hk : OnlyKept files)
    (hn : ¬ fs.Admits directory place indexFile) (name : Name) : files name = none := by
  by_contra hsome
  have hadmits := hs.admits name hsome
  rcases hk name hsome with rfl | ⟨fingerprint, rfl⟩
  · exact hn hadmits
  · refine hn (hadmits.of_length_le isPiece_indexFile (by decide +kernel) ?_)
    rw [length_entryName fingerprint]
    decide +kernel

/-- A cache that was closed needs no other mark than that of one with nothing to write. -/
theorem Tidy.close (hs : Shelf directory place files fs)
    (h : Tidy now ⟨cache, files, journal⟩)
    (hc : cache.dirty = false ∨ ¬ fs.Admits directory place indexFile) :
    Tidy now ⟨{ cache with dirty := false }, files, journal⟩ := by
  refine ⟨⟨h.mirrors.limit, h.mirrors.stocked, h.mirrors.accounted.of_eq rfl rfl,
    h.mirrors.sizes⟩, h.timed.of_subset rfl fun _ => id, h.distinct, h.dated, fun _ => ?_⟩
  rcases hc with hclean | hnot
  · exact h.index hclean
  · have hnone := files_eq_none hs h.mirrors.stocked.onlyKept hnot
    have hempty : cache.entries = [] := by
      refine entries_eq_nil (fun fingerprint => ?_) h.mirrors.accounted.nodup
      have hsizes : (cache.meta? fingerprint).map (·.size) =
          (files (nameOf fingerprint)).map (·.1.length) := h.mirrors.sizes fingerprint
      rw [hnone] at hsizes
      exact Option.map_eq_none_iff.mp hsizes
    have hindex : indexOf files = [] := by
      unfold indexOf
      rw [hnone]
    have hnames : ({ cache with dirty := false } : Cache).index = [] := by
      show cache.entries.map _ = []
      rw [hempty]
      rfl
    simp only [hindex, hnames]
    exact .refl _

/-! ## All along a run -/

/-- A cache that is open is in order, while accesses have numbers and times have dates. -/
def StaysTidy (now : Nat) (k : Keeping) : Prop :=
  Mirrors k ∧ (k.journal.accesses < 2 ^ 64 → now ≤ lastReading → Tidy now k)

/-- The files are as some cache has left them that had nothing to write. -/
def LeftTidy (now : Nat) (journal : Journal) (files : Files) : Prop :=
  Stocked journal files ∧ (journal.accesses < 2 ^ 64 → now ≤ lastReading →
    ∃ closed : Cache, closed.dirty = false ∧ Tidy now ⟨closed, files, journal⟩)

theorem isLasting_tidy (directory : Path) : IsLasting directory StaysTidy LeftTidy where
  onlyKept h := h.1.onlyKept
  start now := by
    have hstocked := (isLasting_mirrors directory).start now
    refine ⟨hstocked, fun _ _ => ⟨{ directory, portableRoot := none, sizeLimit := 0 }, rfl,
      ⟨Nat.two_pow_pos 64, hstocked, ⟨List.nodup_nil, rfl⟩, fun _ => rfl⟩,
      ⟨Nat.le_refl _, fun _ hpair => nomatch hpair⟩, List.nodup_nil,
      (fun _ hpair => nomatch hpair), fun _ => .refl _⟩⟩
  waits hle h := ⟨h.1, fun ha hn => (h.2 ha (hle.trans hn)).wait hle⟩
  rests hle h := ⟨h.1, fun ha hn => by
    obtain ⟨closed, hd, htidy⟩ := h.2 ha (hle.trans hn)
    exact ⟨closed, hd, htidy.wait hle⟩⟩
  scans h hl hn hf := ⟨h.1.mirrors_afterScan hl hn hf _, fun ha hnow => by
    obtain ⟨closed, hd, htidy⟩ := h.2 ha hnow
    exact htidy.afterScan hd hl hn hf⟩
  moves h hm := ⟨h.1.move hm, fun ha hn =>
    (h.2 (Nat.lt_of_le_of_lt hm.accesses_le ha) hn).move hm ha hn⟩
  closes hs h hc := ⟨h.1.stocked, fun ha hn => ⟨_, rfl, (h.2 ha hn).close hs hc⟩⟩

end ScriptModules.Cache
