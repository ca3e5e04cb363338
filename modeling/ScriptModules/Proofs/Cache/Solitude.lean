import Mathlib
import ScriptModules.Proofs.Cache.Scanning

/-!
# Runs of one cache on a directory of its own

A directory is empty at first.  A cache is opened there, asked for this and that, closed, and
opened again, and nobody else writes to the directory (`World.SolitaryRun`).

What always holds in such a run is shown from four things that can happen to a cache and its
files (`IsLasting`): a scan, a move, closing, and time passing.
-/

namespace ScriptModules.Cache

open FileSystem (Files Shelf)

variable {directory : Path} {place : Location} {cache : Cache} {fs next : FileSystem}
  {journal : Journal} {world : World}

/-! ## Runs -/

/-- A directory in the tree with nothing in it. -/
structure IsEmptyDirectory (fs : FileSystem) (directory : Path) : Prop where
  grounded : fs.Grounded
  empty : ∃ place, fs.find directory = .ok (⟨place, 0⟩, .directory) ∧
    ∀ name rest, fs.node? (place ++ name :: rest) = none

/-- Files change, but the directory holds what it held, and what could be written there still
can.  Time does not go back. -/
structure Spares (directory : Path) (fs next : FileSystem) : Prop where
  clock : fs.clock ≤ next.clock
  shelf : ∀ place files, Shelf directory place files fs → ∃ there,
    Shelf directory there files next ∧
      ∀ name, fs.Admits directory place name → next.Admits directory there name

/-- What can come of files where one cache after the other is opened on a directory and closed,
and nobody else writes there.  Limits have 64 bits. -/
inductive World.SolitaryRun (directory : Path) (start : FileSystem) : Journal → World → Prop where
  | start : SolitaryRun directory start {} { fs := start }
  | opened {journal : Journal} {world : World} (h : SolitaryRun directory start journal world)
      (hn : world.caches = []) (config : CacheConfig) (hd : config.directory = directory)
      (hl : config.sizeLimit < 2 ^ 64) :
      SolitaryRun directory start journal (world.after (.opened config))
  | acted {journal : Journal} {world : World} (h : SolitaryRun directory start journal world)
      {cache : Cache} (hc : world.caches = [cache]) (action : Action) :
      SolitaryRun directory start
        (journal.after (action.brings? cache) cache.counters
          (cache.perform world.fs action).1.counters)
        (world.after (.acted 0 action))
  | closed {journal : Journal} {world : World} (h : SolitaryRun directory start journal world)
      {cache : Cache} (hc : world.caches = [cache]) :
      SolitaryRun directory start journal (world.after (.closed 0))
  | changed {journal : Journal} {world : World} (h : SolitaryRun directory start journal world)
      {files : FileSystem} (hs : Spares directory world.fs files) :
      SolitaryRun directory start journal (world.after (.changed files))

/-! ## What lasts -/

/-- What holds of a cache with its files and its journal while the cache is open, and of the
files and the journal while none is.  The number is the last reading of the clock. -/
structure IsLasting (directory : Path) (Open : Nat → Keeping → Prop)
    (Shut : Nat → Journal → Files → Prop) : Prop where
  onlyKept : ∀ {now journal files}, Shut now journal files → OnlyKept files
  start : ∀ now, Shut now {} fun _ => none
  waits : ∀ {now later k}, now ≤ later → Open now k → Open later k
  rests : ∀ {now later journal files}, now ≤ later → Shut now journal files →
    Shut later journal files
  scans : ∀ {now journal files} {cache : Cache} {fingerprints : List Fingerprint},
    Shut now journal files → cache.sizeLimit < 2 ^ 64 → fingerprints.Nodup →
    (∀ fingerprint, fingerprint ∈ fingerprints ↔ files (nameOf fingerprint) ≠ none) →
      Open now ⟨cache.afterScan (indexOf files) files fingerprints, files, journal⟩
  moves : ∀ {now k k'}, Open now k → Keeping.Moves now k k' → Open now k'
  closes : ∀ {place fs now files journal} {cache : Cache}, Shelf directory place files fs →
    Open now ⟨cache, files, journal⟩ →
    cache.dirty = false ∨ ¬ fs.Admits directory place indexFile → Shut now journal files

variable {Open : Nat → Keeping → Prop} {Shut : Nat → Journal → Files → Prop}

/-- The directory of a world is a table of files, where one of the two holds. -/
def World.Holds (directory : Path) (Open : Nat → Keeping → Prop)
    (Shut : Nat → Journal → Files → Prop) (journal : Journal) (world : World) : Prop :=
  ∃ place files, Shelf directory place files world.fs ∧
    (world.caches = [] ∧ Shut world.fs.clock journal files ∨
      ∃ cache, world.caches = [cache] ∧ cache.directory = directory ∧
        Open world.fs.clock ⟨cache, files, journal⟩)

/-- With one cache it is the first, -/
theorem World.Holds.isOpen (h : World.Holds directory Open Shut journal world)
    (hc : world.caches = [cache]) :
    ∃ place files, Shelf directory place files world.fs ∧ cache.directory = directory ∧
      Open world.fs.clock ⟨cache, files, journal⟩ := by
  obtain ⟨place, files, hs, ⟨hnever, -⟩ | ⟨cache', hcache, hd, ho⟩⟩ := h
  · rw [hc] at hnever
    cases hnever
  · rw [hc] at hcache
    cases hcache
    exact ⟨place, files, hs, hd, ho⟩

/-- and without one the second. -/
theorem World.Holds.isShut (h : World.Holds directory Open Shut journal world)
    (hn : world.caches = []) :
    ∃ place files, Shelf directory place files world.fs ∧ Shut world.fs.clock journal files := by
  obtain ⟨place, files, hs, ⟨-, hshut⟩ | ⟨cache, hnever, -⟩⟩ := h
  · exact ⟨place, files, hs, hshut⟩
  · rw [hn] at hnever
    cases hnever

theorem IsLasting.of_moves (hl : IsLasting directory Open Shut) {now : Nat} {k k' : Keeping}
    (ho : Open now k) (h : Relation.ReflTransGen (Keeping.Moves now) k k') : Open now k' := by
  induction h with
  | refl => exact ho
  | tail _ hmove ih => exact hl.moves ih hmove

/-- A turn leaves a shelf where the same holds. -/
theorem IsLasting.turns (hl : IsLasting directory Open Shut) {files : Files} {site after : Site}
    (h : site.Turns directory place after) (hd : site.cache.directory = directory)
    (hs : Shelf directory place files site.fs)
    (ho : Open site.fs.clock ⟨site.cache, files, site.journal⟩) :
    ∃ others, Shelf directory place others after.fs ∧ after.cache.directory = directory ∧
      Open after.fs.clock ⟨after.cache, others, after.journal⟩ ∧
        ∀ name, site.fs.Admits directory place name → after.fs.Admits directory place name := by
  obtain ⟨others, hs', hadmits, hmoves⟩ := h.moves hd files hs
  have hsettings := settings_of_moves hmoves
  exact ⟨others, hs', (place_eq_of_settings_eq hsettings).1.trans hd,
    hl.of_moves (hl.waits h.clock ho) hmoves, hadmits⟩

theorem IsLasting.opened (hl : IsLasting directory Open Shut)
    (h : World.Holds directory Open Shut journal world) (hn : world.caches = [])
    {config : CacheConfig} (hd : config.directory = directory) (hc : config.sizeLimit < 2 ^ 64) :
    World.Holds directory Open Shut journal (world.after (.opened config)) := by
  obtain ⟨place, files, hs, hshut⟩ := h.isShut hn
  obtain ⟨fingerprints, hnodup, hmem, hopen⟩ := openAt_eq hs (hl.onlyKept hshut) hd
  have hscanned : Open world.fs.clock
      ⟨(fresh config world.fs).afterScan (indexOf files) files fingerprints, files, journal⟩ :=
    hl.scans hshut hc hnodup hmem
  obtain ⟨others, hs', hd', ho, -⟩ :=
    hl.turns (turns_enforceLimit ((fresh config world.fs).afterScan _ _ _) world.fs) hd hs hscanned
  rw [World.after_opened hopen, hn]
  exact ⟨place, others, hs', Or.inr ⟨_, rfl, hd', ho⟩⟩

theorem IsLasting.acted (hl : IsLasting directory Open Shut)
    (h : World.Holds directory Open Shut journal world) (hc : world.caches = [cache])
    (action : Action) :
    World.Holds directory Open Shut
      (journal.after (action.brings? cache) cache.counters
        (cache.perform world.fs action).1.counters)
      (world.after (.acted 0 action)) := by
  obtain ⟨place, files, hs, hd, ho⟩ := h.isOpen hc
  obtain ⟨others, hs', hd', ho', -⟩ := hl.turns (turns_perform cache world.fs action) hd hs ho
  have hthere : world.caches[0]? = some cache := by rw [hc]; rfl
  rw [World.after_acted action hthere, hc]
  exact ⟨place, others, hs', Or.inr ⟨_, rfl, hd', ho'⟩⟩

/-- After it was written, the index is up to date, or its name cannot be written. -/
theorem dirty_flush {files : Files} (hs : Shelf directory place files fs)
    (hd : cache.directory = directory) :
    (cache.flush fs).2.1.dirty = false ∨
      (cache.flush fs).2.2 = fs ∧ ¬ fs.Admits directory place indexFile := by
  have hwrites := hs.exists_replaceFile_iff isPiece_indexFile (Bytes.ofText cache.index.render)
  have hpath : fs.replaceFile cache.directory cache.indexPath (Bytes.ofText cache.index.render) =
      fs.replaceFile directory (directory.join ⟨indexFile⟩)
        (Bytes.ofText cache.index.render) := by
    rw [← hd]
    rfl
  have hflush := cache.flushes fs
  generalize (cache.flush fs).2 = result at hflush ⊢
  cases hflush with
  | rests hrests =>
      cases hdirty : cache.dirty with
      | false => exact Or.inl rfl
      | true =>
          refine Or.inr ⟨rfl, fun hadmits => ?_⟩
          obtain ⟨after, hok⟩ := hwrites.mpr hadmits
          exact hrests hdirty after (hpath.trans hok)
  | writes _ _ => exact Or.inl rfl

theorem IsLasting.closed (hl : IsLasting directory Open Shut)
    (h : World.Holds directory Open Shut journal world) (hc : world.caches = [cache]) :
    World.Holds directory Open Shut journal (world.after (.closed 0)) := by
  obtain ⟨place, files, hs, hd, ho⟩ := h.isOpen hc
  obtain ⟨others, hs', -, ho', -⟩ := hl.turns (turns_flush cache world.fs) hd hs ho
  have hthere : world.caches[0]? = some cache := by rw [hc]; rfl
  rw [World.after_closed hthere, hc]
  refine ⟨place, others, hs', Or.inl ⟨rfl, hl.closes hs' ho' ?_⟩⟩
  exact (dirty_flush hs hd).imp_right fun ⟨hsame, hnot⟩ => by rwa [hsame]

theorem IsLasting.changed (hl : IsLasting directory Open Shut)
    (h : World.Holds directory Open Shut journal world) (hc : Spares directory world.fs next) :
    World.Holds directory Open Shut journal (world.after (.changed next)) := by
  obtain ⟨place, files, hs, hholds⟩ := h
  obtain ⟨there, hs', -⟩ := hc.shelf place files hs
  refine ⟨there, files, hs', hholds.imp ?_ ?_⟩
  · exact fun ⟨hnone, hshut⟩ => ⟨hnone, hl.rests hc.clock hshut⟩
  · exact fun ⟨cache, hcache, hd, ho⟩ => ⟨cache, hcache, hd, hl.waits hc.clock ho⟩

/-- What lasts holds all along a run. -/
theorem IsLasting.holds (hl : IsLasting directory Open Shut) {start : FileSystem}
    (he : IsEmptyDirectory start directory)
    (h : World.SolitaryRun directory start journal world) :
    World.Holds directory Open Shut journal world := by
  induction h with
  | start =>
      obtain ⟨hgrounded, place, hfound, hempty⟩ := he
      exact ⟨place, _, FileSystem.shelf_of_empty hgrounded hfound hempty,
        Or.inl ⟨rfl, hl.start _⟩⟩
  | opened _ hn config hd hc ih => exact hl.opened ih hn hd hc
  | acted _ hc action ih => exact hl.acted ih hc action
  | closed _ hc ih => exact hl.closed ih hc
  | changed _ hs ih => exact hl.changed ih hs

end ScriptModules.Cache
