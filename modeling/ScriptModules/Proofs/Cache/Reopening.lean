import Mathlib
import ScriptModules.Proofs.Cache.Tidy

/-!
# Closing a cache and opening it again

A cache that is closed and opened again goes on where it was (`Resumes`), as long as nobody else
writes to its directory, its accesses have numbers and its times have dates.  This does not take
that closing writes anything: what is not written was written before.
-/

namespace ScriptModules.Cache

variable {directory : Path} {cache reopened : Cache} {journal : Journal} {world : World}
  {start : FileSystem}

/-- A cache knows what another one has known, and would evict it in the same order.  Accesses are
numbered on from there.  It has evicted nothing, and has nothing to write. -/
structure Resumes (reopened cache : Cache) : Prop where
  meta? : ∀ fingerprint, reopened.meta? fingerprint = cache.meta? fingerprint
  currentSize : reopened.currentSize = cache.currentSize
  evictionOrder : reopened.evictionOrder = cache.evictionOrder
  numbered : ∀ fingerprint entry, reopened.meta? fingerprint = some entry →
    entry.sequence ≤ reopened.clock
  evictions : reopened.counters.evictions = 0
  settled : reopened.dirty = false

/-- What was tidy when it was closed is found again. -/
theorem Tidy.resumes_afterScan {now : Nat} {files : FileSystem.Files} {closed fresh : Cache}
    {fingerprints : List Fingerprint} (h : Tidy now ⟨closed, files, journal⟩)
    (hd : closed.dirty = false) (hl : fresh.sizeLimit < 2 ^ 64) (hn : fingerprints.Nodup)
    (hf : ∀ fingerprint, fingerprint ∈ fingerprints ↔ files (nameOf fingerprint) ≠ none)
    (he : fresh.counters.evictions = 0) :
    (fresh.afterScan (indexOf files) files fingerprints).Resumes closed := by
  have htidy := h.afterScan hd hl hn hf
  have hmeta := h.meta?_afterScan hd hf fresh
  have hperm := perm_of_meta?_eq h.mirrors.accounted.nodup htidy.mirrors.accounted.nodup hmeta
  refine ⟨hmeta, ?_, evictionOrder_congr hperm h.distinct, fun fingerprint entry hentry => ?_, he,
    h.dirty_afterScan hd hf fresh⟩
  · rw [htidy.mirrors.accounted.currentSize, h.mirrors.accounted.currentSize, recordedSize,
      recordedSize]
    exact congrArg (· + 0) (hperm.map _).sum_eq
  · exact htidy.timed.entries _ (Association.mem_of_lookup hentry)

/-- Only what a cache knows is resumed. -/
theorem Resumes.of_eq {other : Cache} (h : reopened.Resumes other)
    (he : other.entries = cache.entries) (hs : other.currentSize = cache.currentSize) :
    reopened.Resumes cache := by
  have horder : other.evictionOrder = cache.evictionOrder := by
    rw [Cache.evictionOrder, Cache.evictionOrder, Cache.size, Cache.size, he,
      victims_of_entries_eq _ he]
  have hmeta : ∀ fingerprint, other.meta? fingerprint = cache.meta? fingerprint := by
    intro fingerprint
    rw [Cache.meta?, Cache.meta?, he]
  exact ⟨fun fingerprint => (h.meta? fingerprint).trans (hmeta fingerprint),
    h.currentSize.trans hs, h.evictionOrder.trans horder, h.numbered, h.evictions, h.settled⟩

/-- Closing leaves the files as a tidy cache has them that knows what was known. -/
theorem StaysTidy.close {place : Location} {files : FileSystem.Files} {fs : FileSystem}
    (hs : FileSystem.Shelf directory place files fs) (hd : cache.directory = directory)
    (h : StaysTidy fs.clock ⟨cache, files, journal⟩) (ha : journal.accesses < 2 ^ 64)
    (hn : (cache.close fs).clock ≤ lastReading) :
    ∃ others closed, FileSystem.Shelf directory place others (cache.close fs) ∧
      Tidy (cache.close fs).clock ⟨closed, others, journal⟩ ∧ closed.dirty = false ∧
        closed.entries = cache.entries ∧ closed.currentSize = cache.currentSize := by
  obtain ⟨others, hs', -, hflushed, -⟩ :=
    (isLasting_tidy directory).turns (turns_flush cache fs) hd hs h
  obtain ⟨hentries, hsize⟩ := flush_entries cache fs
  refine ⟨others, _, hs', (hflushed.2 ha hn).close hs' ?_, rfl, hentries, hsize⟩
  exact (dirty_flush hs hd).imp_right fun ⟨hsame, hnot⟩ => by rwa [hsame]

theorem close_of_not_dirty (h : cache.dirty = false) (fs : FileSystem) :
    cache.close fs = fs := by
  simp [close, flush, h]

/-- All along the runs of one cache at a time on a directory that was empty at first and where
nobody else writes, the cache may be closed and opened again, with the same limit.  Where it has
nothing to write it need not be closed.  The clock must not have passed the last date there is,
as a later time has no text. -/
theorem World.SolitaryRun.reopens (he : IsEmptyDirectory start directory)
    (h : World.SolitaryRun directory start journal world) (hc : world.caches = [cache])
    (ha : journal.accesses < 2 ^ 64) (hn : (cache.close world.fs).clock ≤ lastReading)
    {config : CacheConfig} (hd : config.directory = directory)
    (hl : config.sizeLimit = cache.sizeLimit) :
    ∃ reopened, openAt config (cache.close world.fs) = (.ok reopened, cache.close world.fs) ∧
      reopened.Resumes cache ∧
        (cache.dirty = false → openAt config world.fs = (.ok reopened, world.fs)) := by
  obtain ⟨place, files, hs, ⟨hnever, -⟩ | ⟨open', hopen, hdirectory, hstays⟩⟩ :=
    (isLasting_tidy directory).holds he h
  · rw [hc] at hnever
    cases hnever
  · rw [hc] at hopen
    cases hopen
    obtain ⟨others, closed, hs', htidy, hclosed, hentries, hsize⟩ := hstays.close hs hdirectory ha hn
    obtain ⟨fingerprints, hnodup, hmem, hscanned⟩ :=
      openAt_eq hs' htidy.mirrors.stocked.onlyKept hd
    have hlimit : config.sizeLimit < 2 ^ 64 := hl ▸ hstays.1.limit
    have hresumes : Resumes _ cache :=
      (@Tidy.resumes_afterScan journal _ others closed (fresh config (cache.close world.fs))
        fingerprints htidy hclosed hlimit hnodup hmem rfl).of_eq hentries hsize
    -- What was within the limit is evicted by nobody.
    have hwithin : cache.currentSize ≤ cache.sizeLimit :=
      World.SolitaryRun.isWithin he h cache (hc ▸ List.mem_singleton_self cache)
    rw [enforceLimit_of_le (hresumes.currentSize.trans_le (hwithin.trans_eq hl.symm))] at hscanned
    refine ⟨_, hscanned, hresumes, fun hclean => ?_⟩
    rwa [close_of_not_dirty hclean] at hscanned ⊢

/-- So it is after an entry was stored. -/
theorem reopens_after_storing :
    let stored := (limitedCache 1000).store emptyDirectory Entry.zeroDigest "1" [0x61]
    ∃ reopened, openAt (limitedConfig 1000) (stored.1.close stored.2) =
        (.ok reopened, stored.1.close stored.2) ∧
      reopened.Resumes stored.1 ∧
        (stored.1.dirty = false →
          openAt (limitedConfig 1000) stored.2 = (.ok reopened, stored.2)) := by
  intro stored
  have hopened : ({ fs := emptyDirectory } : World).after (.opened (limitedConfig 1000)) =
      { fs := emptyDirectory, caches := [limitedCache 1000] } :=
    World.after_opened (openAt_emptyDirectory 1000)
  have hrun : World.SolitaryRun (.ofString "/c") emptyDirectory {}
      { fs := emptyDirectory, caches := [limitedCache 1000] } :=
    hopened ▸ World.SolitaryRun.start.opened rfl (limitedConfig 1000) rfl (by decide)
  have hstored := World.SolitaryRun.acted hrun rfl (.store Entry.zeroDigest "1" [0x61])
  exact World.SolitaryRun.reopens isEmptyDirectory_emptyDirectory hstored rfl
    (by decide +kernel) (by decide +kernel) rfl (by decide +kernel)

end ScriptModules.Cache
