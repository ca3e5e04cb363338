import ScriptModules.Proofs.Cache.AccessNumbers
import ScriptModules.Proofs.Cache.Reopening

/-!
# The order of last accesses

A log of accesses says which entry was accessed longest ago.  The numbers of a cache that is
alone with its directory say the same (`InTurn`), though they go through the index whenever the
cache is closed and opened again.

An access is put at the end of the log and gets the highest number.  All else that happens does
away with entries at most.
-/

namespace ScriptModules.Cache

open FileSystem (Files Shelf)

variable {directory : Path} {place : Location} {cache next : Cache} {fs start : FileSystem}
  {files : Files} {journal : Journal} {world : World} {fingerprint : Fingerprint}
  {log : List Fingerprint} {known kept : Fingerprint → Option EntryMeta}

/-! ## Logs -/

/-- Each entry of a log where it was accessed last. -/
theorem dedup_append_singleton (log : List Fingerprint) (last : Fingerprint) :
    (log ++ [last]).dedup = log.dedup.filter (· ≠ last) ++ [last] := by
  induction log with
  | nil => simp
  | cons first log ih =>
      rw [List.cons_append]
      by_cases hagain : first ∈ log
      · rw [List.dedup_cons_of_mem (List.mem_append_left _ hagain), List.dedup_cons_of_mem hagain, ih]
      · by_cases heq : first = last
        · subst heq
          rw [List.dedup_cons_of_mem (List.mem_append_right _ (List.mem_singleton_self first)), ih,
            List.dedup_cons_of_notMem hagain]
          simp
        · have hnot : first ∉ log ++ [last] := by simp [hagain, heq]
          rw [List.dedup_cons_of_notMem hnot, List.dedup_cons_of_notMem hagain, ih]
          simp [heq]

/-- What is known, in the order of last accesses, the oldest first. -/
def byLastAccess (known : Fingerprint → Option EntryMeta) (log : List Fingerprint) :
    List Fingerprint :=
  log.dedup.filter fun fingerprint => (known fingerprint).isSome

/-- All that is known was accessed, and what was accessed later has a higher number. -/
structure InTurn (log : List Fingerprint) (known : Fingerprint → Option EntryMeta) : Prop where
  accessed : ∀ fingerprint, known fingerprint ≠ none → fingerprint ∈ log
  order : log.dedup.Pairwise fun first second => ∀ entry other, known first = some entry →
    known second = some other → entry.sequence < other.sequence

/-- Less may be known. -/
theorem InTurn.mono (h : InTurn log known)
    (hk : ∀ fingerprint, kept fingerprint = none ∨ kept fingerprint = known fingerprint) :
    InTurn log kept := by
  have hsame : ∀ {fingerprint entry}, kept fingerprint = some entry →
      known fingerprint = some entry := by
    intro fingerprint entry hentry
    rcases hk fingerprint with hnone | heq
    · rw [hnone] at hentry
      cases hentry
    · exact heq.symm.trans hentry
  refine ⟨fun fingerprint hsome => ?_, h.order.imp fun hlt entry other hentry hother =>
    hlt entry other (hsame hentry) (hsame hother)⟩
  obtain ⟨entry, hentry⟩ := Option.ne_none_iff_exists'.mp hsome
  exact h.accessed fingerprint (hsame hentry ▸ Option.some_ne_none entry)

/-- An entry is accessed, with a number that is higher than all others. -/
theorem InTurn.access {entry : EntryMeta} (h : InTurn log known)
    (hs : ∀ other old, other ≠ fingerprint → known other = some old →
      old.sequence < entry.sequence)
    (hk : ∀ other, kept other = if other = fingerprint then some entry else known other) :
    InTurn (log ++ [fingerprint]) kept := by
  have hothers : ∀ {other}, other ≠ fingerprint → kept other = known other := fun hne =>
    (hk _).trans (if_neg hne)
  constructor
  · intro other hsome
    by_cases heq : other = fingerprint
    · exact List.mem_append_right _ (List.mem_singleton.mpr heq)
    · rw [hothers heq] at hsome
      exact List.mem_append_left _ (h.accessed other hsome)
  · rw [dedup_append_singleton, List.pairwise_append]
    refine ⟨?_, List.pairwise_singleton _ _, ?_⟩
    · refine (h.order.filter _).imp_of_mem fun {first second} hfirst hsecond hlt => ?_
      rw [hothers (of_decide_eq_true (List.mem_filter.mp hfirst).2),
        hothers (of_decide_eq_true (List.mem_filter.mp hsecond).2)]
      exact hlt
    · intro first hfirst last hlast old new hold hnew
      have hne := of_decide_eq_true (List.mem_filter.mp hfirst).2
      obtain rfl := List.mem_singleton.mp hlast
      rw [hothers hne] at hold
      rw [hk, if_pos rfl] at hnew
      cases hnew
      exact hs first old hne hold

theorem nodup_byLastAccess (known : Fingerprint → Option EntryMeta) (log : List Fingerprint) :
    (byLastAccess known log).Nodup :=
  (List.nodup_dedup log).filter _

theorem InTurn.mem_byLastAccess_iff (h : InTurn log known) :
    fingerprint ∈ byLastAccess known log ↔ (known fingerprint).isSome = true := by
  rw [byLastAccess, List.mem_filter, List.mem_dedup]
  exact and_iff_right_of_imp fun hsome =>
    h.accessed fingerprint (Option.isSome_iff_ne_none.mp hsome)

/-- Where numbers go along with a log, entries are evicted in the order of their last
accesses. -/
theorem InTurn.order_eq (h : InTurn log known) {order : List Fingerprint} (hn : order.Nodup)
    (hm : ∀ fingerprint, fingerprint ∈ order ↔ (known fingerprint).isSome = true)
    (hp : order.Pairwise (InOrder known)) : order = byLastAccess known log := by
  have hperm : order.Perm (byLastAccess known log) :=
    (List.perm_ext_iff_of_nodup hn (nodup_byLastAccess known log)).mpr fun fingerprint =>
      (hm fingerprint).trans h.mem_byLastAccess_iff.symm
  have hlog : (byLastAccess known log).Pairwise (InOrder known) := by
    refine (h.order.filter _).imp fun hlt entry other hentry hother => ?_
    exact not_accessedBefore_of_lt (hlt entry other hentry hother)
  have hdiffer : (byLastAccess known log).Pairwise fun first second => ∀ entry other,
      known first = some entry → known second = some other → entry.sequence ≠ other.sequence := by
    refine (h.order.filter _).imp fun hlt entry other hentry hother => ?_
    exact UInt64.ne_of_lt (hlt entry other hentry hother)
  refine hperm.eq_of_pairwise (fun first second hfirst hsecond hle hge => ?_) hp hlog
  by_contra hne
  have hfirst' := hperm.mem_iff.mp hfirst
  obtain ⟨entry, hentry⟩ := Option.isSome_iff_exists.mp (h.mem_byLastAccess_iff.mp hfirst')
  obtain ⟨other, hother⟩ := Option.isSome_iff_exists.mp (h.mem_byLastAccess_iff.mp hsecond)
  have hsymmetric : Std.Symm fun first second => ∀ entry other,
      known first = some entry → known second = some other → entry.sequence ≠ other.sequence :=
    ⟨fun _ _ hapart entry other hentry hother => (hapart other entry hother hentry).symm⟩
  refine hdiffer.forall hfirst' hsecond hne entry other hentry hother ?_
  refine UInt64.le_antisymm (UInt64.not_lt.mp fun hlt => ?_) (UInt64.not_lt.mp fun hlt => ?_)
  · exact hle entry other hentry hother (accessedBefore_iff.mpr (Or.inl hlt))
  · exact hge other entry hother hentry (accessedBefore_iff.mpr (Or.inl hlt))

/-! ## What an action keeps -/

/-- Entries that are taken out are not known any more. -/
theorem meta?_of_sublist (hn : (cache.entries.map (·.1)).Nodup)
    (hs : next.entries.Sublist cache.entries) (fingerprint : Fingerprint) :
    next.meta? fingerprint = none ∨ next.meta? fingerprint = cache.meta? fingerprint := by
  cases hmeta : next.meta? fingerprint with
  | none => exact Or.inl rfl
  | some entry =>
      have hmem := hs.subset (Association.mem_of_lookup hmeta)
      exact Or.inr (Association.lookup_of_mem hn hmem).symm

theorem Ranked.inTurn_note {noted : Cache} {entry : EntryMeta} (hr : Ranked cache)
    (ht : InTurn log cache.meta?) (hc : cache.clock ≠ lastNumber)
    (hs : entry.sequence = cache.tick.1)
    (he : noted.entries = (cache.note fingerprint entry).entries) :
    InTurn (log ++ [fingerprint]) noted.meta? := by
  have hnumber : HasNumber cache fingerprint noted := Or.inl hc
  refine ht.access (fun other old hne hold => ?_) (meta?_of_entries_eq_note he)
  rw [hs]
  exact hr.lt_tick_iff.mpr hnumber other old hne hold

/-- An action puts what it accesses at the end of the log. -/
theorem Acts.inTurn {accessed : Option Fingerprint} (h : Acts cache accessed next)
    (hr : Ranked cache) (ht : InTurn log cache.meta?)
    (hc : accessed ≠ none → cache.clock ≠ lastNumber) :
    InTurn (log ++ accessed.toList) next.meta? := by
  cases h with
  | rests hclock hentries =>
      rw [Option.toList_none, List.append_nil]
      exact ht.mono (meta?_of_sublist hr.nodup hentries)
  | @hits _ fingerprint entry hsequence hclock hentries =>
      exact hr.inTurn_note ht (hc (Option.some_ne_none _)) hsequence hentries
  | @stores noted fingerprint entry files hsequence hclock hentries =>
      have hnoted := hr.inTurn_note ht (hc (Option.some_ne_none _)) hsequence hentries
      obtain ⟨count, hkept⟩ := entries_enforceLimit noted files
      refine hnoted.mono (meta?_of_sublist (hr.nodup_note hentries) ?_)
      rw [hkept]
      exact List.filter_sublist

/-! ## Runs with a log -/

/-- A run of one cache after the other on a directory of their own, with the log of all
accesses. -/
inductive World.LoggedRun (directory : Path) (start : FileSystem) :
    Journal → List Fingerprint → World → Prop where
  | start : LoggedRun directory start {} [] { fs := start }
  | opened {journal : Journal} {log : List Fingerprint} {world : World}
      (h : LoggedRun directory start journal log world) (hn : world.caches = [])
      (config : CacheConfig) (hd : config.directory = directory)
      (hl : config.sizeLimit < 2 ^ 64) :
      LoggedRun directory start journal log (world.after (.opened config))
  | acted {journal : Journal} {log : List Fingerprint} {world : World}
      (h : LoggedRun directory start journal log world) {cache : Cache}
      (hc : world.caches = [cache]) (action : Action) :
      LoggedRun directory start
        (journal.after (action.brings? cache) cache.counters
          (cache.perform world.fs action).1.counters)
        (log ++ (cache.access? world.fs action).toList) (world.after (.acted 0 action))
  | closed {journal : Journal} {log : List Fingerprint} {world : World}
      (h : LoggedRun directory start journal log world) {cache : Cache}
      (hc : world.caches = [cache]) :
      LoggedRun directory start journal log (world.after (.closed 0))
  | changed {journal : Journal} {log : List Fingerprint} {world : World}
      (h : LoggedRun directory start journal log world) {files : FileSystem}
      (hs : Spares directory world.fs files) :
      LoggedRun directory start journal log (world.after (.changed files))

/-- Nothing is said by the log of what may happen. -/
theorem World.LoggedRun.solitary (h : World.LoggedRun directory start journal log world) :
    World.SolitaryRun directory start journal world := by
  induction h with
  | start => exact .start
  | opened _ hn config hd hl ih => exact ih.opened hn config hd hl
  | acted _ hc action ih => exact ih.acted hc action
  | closed _ hc ih => exact ih.closed hc
  | changed _ hs ih => exact ih.changed hs

/-- What an opening finds in a directory that was left tidy is what was known there. -/
theorem Tidy.seenAt_eq {now : Nat} {closed : Cache} (h : Tidy now ⟨closed, files, journal⟩)
    (hd : closed.dirty = false) (hs : Shelf directory place files fs) (fingerprint : Fingerprint) :
    seenAt directory fs fingerprint = closed.meta? fingerprint := by
  have hfresh := fresh_eq_holding { directory } fs (indexOf files) files
  obtain ⟨fingerprints, -, hmem, hscan⟩ :=
    @scan_eq directory place (fresh { directory } fs) fs files hs h.mirrors.stocked.onlyKept rfl hfresh
  rw [← h.meta?_afterScan hd hmem (fresh { directory } fs) fingerprint]
  exact (meta?_scan rfl hscan fingerprint).symm

/-- An access is counted in the journal. -/
theorem Journal.lt_accesses_after (journal : Journal)
    (brought : Option (Fingerprint × String × Bytes)) {before after : CacheCounters}
    (h : CountsAccess before after) :
    journal.accesses < (journal.after brought before after).accesses := by
  simp only [Journal.after]
  rcases h with hhits | hwrites
  · omega
  · omega

theorem Journal.accesses_le_after (journal : Journal)
    (brought : Option (Fingerprint × String × Bytes)) (before after : CacheCounters) :
    journal.accesses ≤ (journal.after brought before after).accesses := by
  simp only [Journal.after]
  omega

theorem counts_of_access? {action : Action} (h : cache.access? fs action ≠ none) :
    CountsAccess cache.counters (cache.perform fs action).1.counters := by
  by_contra hnot
  rw [access?, if_neg hnot] at h
  exact h rfl

/-- The clock of a cache is at its end only when there were as many accesses. -/
theorem Timed.ne_lastNumber {n : Nat} (h : Timed n cache) (hn : n + 1 < 2 ^ 64) :
    cache.clock ≠ lastNumber := by
  intro hlast
  have hclock := h.clock
  have hnumber : cache.clock.toNat = 2 ^ 64 - 1 := by rw [hlast]; rfl
  omega

theorem Tidy.ranked {now : Nat} (h : Tidy now ⟨cache, files, journal⟩) : Ranked cache :=
  ⟨h.mirrors.accounted.nodup, h.timed.entries⟩

/-- The cache that is open is in turn with a log, or what an opening would find is. -/
structure World.InTurn (directory : Path) (log : List Fingerprint) (world : World) : Prop where
  opened : ∀ cache, world.caches = [cache] → Cache.InTurn log cache.meta?
  shut : world.caches = [] → Cache.InTurn log (seenAt directory world.fs)

/-- Nothing is known of an empty directory. -/
theorem World.inTurn_start (he : IsEmptyDirectory start directory)
    (hn : start.clock ≤ lastReading) : World.InTurn directory [] { fs := start } := by
  refine ⟨(fun cache hnever => nomatch hnever), fun _ => ?_⟩
  obtain ⟨place, files, hs, hleft⟩ := ((isLasting_tidy directory).holds he .start).isShut rfl
  obtain ⟨closed, hclean, htidy⟩ := hleft.2 (by decide) hn
  refine ⟨fun fingerprint hsome => absurd ?_ hsome, List.Pairwise.nil⟩
  have hnone : files (nameOf fingerprint) = none := by
    by_contra hfile
    obtain ⟨file, hfile⟩ := Option.ne_none_iff_exists'.mp hfile
    obtain ⟨engine, bytecode, hnever, -⟩ := hleft.1.content fingerprint file hfile
    cases hnever
  have hsize : (closed.meta? fingerprint).map (·.size) =
      (files (nameOf fingerprint)).map (·.1.length) := htidy.mirrors.sizes fingerprint
  rw [htidy.seenAt_eq hclean hs]
  rw [hnone] at hsize
  exact Option.map_eq_none_iff.mp hsize

/-- Opening keeps of what is found what it does not evict. -/
theorem World.InTurn.open {config : CacheConfig} {after : FileSystem}
    (h : world.InTurn directory log) (hn : world.caches = [])
    (hd : config.directory = directory)
    (hm : world.fs.makeDirectories config.directory = (.ok (), world.fs))
    (ho : openAt config world.fs = (.ok cache, after)) :
    (world.after (.opened config)).InTurn directory log := by
  obtain ⟨order, -, -, -, hsheds⟩ := openAt_sheds ho
  obtain ⟨cache', later, ho', count, -, hkept⟩ := hsheds config.sizeLimit
  have hsame : (.ok cache, after) = (Except.ok cache', later) := ho.symm.trans ho'
  cases hsame
  rw [hm, hd] at hkept
  rw [World.after_opened ho, hn]
  refine ⟨fun opened hopened => ?_, (fun hnever => nomatch hnever)⟩
  cases hopened
  refine (h.shut hn).mono fun fingerprint => ?_
  rw [hkept]
  split
  · exact Or.inl rfl
  · exact Or.inr rfl

/-- An action of the cache goes into the log. -/
theorem World.InTurn.act (h : world.InTurn directory log) (hc : world.caches = [cache])
    (hr : Ranked cache) (action : Action)
    (hl : cache.access? world.fs action ≠ none → cache.clock ≠ lastNumber) :
    (world.after (.acted 0 action)).InTurn directory
      (log ++ (cache.access? world.fs action).toList) := by
  have hthere : world.caches[0]? = some cache := by rw [hc]; rfl
  rw [World.after_acted action hthere, hc]
  refine ⟨fun acted hacted => ?_, (fun hnever => nomatch hnever)⟩
  cases hacted
  exact (acts_perform cache world.fs action).inTurn hr (h.opened cache hc) hl

/-- What a cache knows is found again when it was closed. -/
theorem World.InTurn.close (h : world.InTurn directory log) (hc : world.caches = [cache])
    (hs : ∀ fingerprint,
      seenAt directory (cache.close world.fs) fingerprint = cache.meta? fingerprint) :
    (world.after (.closed 0)).InTurn directory log := by
  have hthere : world.caches[0]? = some cache := by rw [hc]; rfl
  rw [World.after_closed hthere, hc]
  refine ⟨(fun opened hnever => nomatch hnever), fun _ => ?_⟩
  have hsame : seenAt directory (cache.close world.fs) = cache.meta? := funext hs
  exact hsame ▸ h.opened cache hc

/-- Numbers are in turn all along a run, while there are numbers for accesses and times have
dates. -/
theorem World.LoggedRun.inTurn (he : IsEmptyDirectory start directory)
    (h : World.LoggedRun directory start journal log world) (ha : journal.accesses < 2 ^ 64)
    (hn : world.fs.clock ≤ lastReading) : world.InTurn directory log := by
  induction h with
  | start => exact World.inTurn_start he hn
  | @opened journal log world hrun hnone config hd hl ih =>
      obtain ⟨place, files, hs, hleft⟩ :=
        ((isLasting_tidy directory).holds he hrun.solitary).isShut hnone
      obtain ⟨fingerprints, -, -, hopen⟩ := openAt_eq hs hleft.1.onlyKept hd
      have hclock := (@turns_enforceLimit directory place journal
        ((fresh config world.fs).afterScan (indexOf files) files fingerprints) world.fs).clock
      rw [World.after_opened hopen] at hn
      have hmade : world.fs.makeDirectories config.directory = (.ok (), world.fs) :=
        FileSystem.makeDirectories_of_isDirectory (by rw [FileSystem.isDirectory, hd, hs.found])
      exact (ih ha (hclock.trans hn)).open hnone hd hmade hopen
  | @acted journal log world hrun cache hc action ih =>
      have hthere : world.caches[0]? = some cache := by rw [hc]; rfl
      obtain ⟨place, files, -, -, hstays⟩ :=
        ((isLasting_tidy directory).holds he hrun.solitary).isOpen hc
      have hclock := (@turns_perform directory place journal cache world.fs action).clock
      rw [World.after_acted action hthere] at hn
      have hbefore : journal.accesses < 2 ^ 64 :=
        Nat.lt_of_le_of_lt (journal.accesses_le_after _ _ _) ha
      have htidy := hstays.2 hbefore (hclock.trans hn)
      refine (ih hbefore (hclock.trans hn)).act hc htidy.ranked action fun haccess => ?_
      have hmore := journal.lt_accesses_after (action.brings? cache) (counts_of_access? haccess)
      exact htidy.timed.ne_lastNumber (Nat.lt_of_le_of_lt hmore ha)
  | @closed journal log world hrun cache hc ih =>
      have hthere : world.caches[0]? = some cache := by rw [hc]; rfl
      obtain ⟨place, files, hs, hd, hstays⟩ :=
        ((isLasting_tidy directory).holds he hrun.solitary).isOpen hc
      have hclock := (@turns_flush directory place journal cache world.fs).clock
      rw [World.after_closed hthere] at hn
      obtain ⟨others, closed, hs', htidy, hclean, hentries, -⟩ := StaysTidy.close hs hd hstays ha hn
      refine (ih ha (hclock.trans hn)).close hc fun fingerprint => ?_
      rw [htidy.seenAt_eq hclean hs', meta?_of_entries_eq hentries]
  | @changed journal log world hrun next hspares ih =>
      have hbefore := ih ha (hspares.clock.trans hn)
      refine ⟨hbefore.opened, fun hnone => ?_⟩
      obtain ⟨place, files, hs, hleft⟩ :=
        ((isLasting_tidy directory).holds he hrun.solitary).isShut hnone
      obtain ⟨closed, hclean, htidy⟩ := hleft.2 ha (hspares.clock.trans hn)
      obtain ⟨there, hs', -⟩ := hspares.shelf place files hs
      have hsame : seenAt directory next = seenAt directory world.fs := funext fun fingerprint =>
        (htidy.seenAt_eq hclean hs' fingerprint).trans (htidy.seenAt_eq hclean hs fingerprint).symm
      exact (congrArg (Cache.InTurn log) hsame).mpr (hbefore.shut hnone)

end ScriptModules.Cache
