import ScriptModules.Proofs.Cache.Naming
import ScriptModules.Proofs.Cache.Recency
import ScriptModules.Proofs.Cache.Transparency

/-!
# Stored entries are found again

Bytecode that was stored is looked up by the same source, engine and options.  Two
things decide whether it is found.  The length of the engine's version stands in two
bytes, and a version that does not fit is cut off: such an entry never checks out.  And
storing evicts entries until the limit is met, in the order of their last access: the
new entry stays just in case there is room for it beside those that count as accessed
after it (`HasRoom`).  There are none while the numbers of accesses do not run out.

The file of an entry stands below the directory that its path leads to.  Evicting others
must not change where that is, so the path must not go through entries (`IsApart`).
-/

namespace ScriptModules.Cache

open FileSystem (Alters Grounded Holds)

/-! ## A directory without its entries -/

/-- Whether a location is that of an entry in a directory, or below it.  A directory that
is named like an entry cannot be evicted. -/
def isInEntry (fs : FileSystem) (directory location : Location) : Bool :=
  directory.isPrefixOf location &&
    match (location.drop directory.length).head? with
    | some name =>
      (fingerprintOfName? name).isSome && decide (fs.node? (directory ++ [name]) ≠ some .directory)
    | none => false

/-- The file system with no entries in a directory. -/
def withoutEntries (fs : FileSystem) (directory : Location) : FileSystem :=
  { fs with nodes := fs.nodes.filter fun entry => !isInEntry fs directory entry.1 }

variable {cache : Cache} {fs written : FileSystem} {fingerprint : Fingerprint} {engine : String}
  {bytecode content : Bytes} {place : Location} {last : Name} {surplus : Nat}

theorem node?_withoutEntries (fs : FileSystem) (directory location : Location) :
    (withoutEntries fs directory).node? location =
      if isInEntry fs directory location then none else fs.node? location := by
  have hlook := Association.lookup_filter fs.nodes (fun key => !isInEntry fs directory key) location
  by_cases hroot : location = []
  · have hout : isInEntry fs directory [] = false := by simp [isInEntry]
    simp [FileSystem.node?, hroot, hout]
  · have hkept : (withoutEntries fs directory).node? location =
        (withoutEntries fs directory).nodes.lookup location := by
      rw [FileSystem.node?, if_neg hroot]
    rw [hkept, withoutEntries, hlook, FileSystem.node?, if_neg hroot]
    cases isInEntry fs directory location <;> rfl

/-- It is a part of the whole. -/
theorem alters_withoutEntries (fs : FileSystem) (directory : Location) :
    Alters (fun _ => False) fs (withoutEntries fs directory) := by
  refine ⟨fun location node hnode => ?_, rfl, rfl⟩
  rw [node?_withoutEntries] at hnode
  split at hnode
  · cases hnode
  · exact Or.inl hnode

theorem isInEntry_append (fs : FileSystem) (directory below : Location)
    (fingerprint : Fingerprint) :
    isInEntry fs directory (directory ++ Bytes.ofText (entryName fingerprint) :: below) =
      decide (fs.node? (directory ++ [Bytes.ofText (entryName fingerprint)]) ≠ some .directory) := by
  unfold isInEntry
  rw [List.isPrefixOf_iff_prefix.mpr (List.prefix_append _ _), List.drop_left, List.head?_cons]
  simp [fingerprintOfName?_entryName]

/-- What is named like an entry there is a directory, or nothing. -/
theorem withoutEntries_entry (fs : FileSystem) (directory : Location) (fingerprint : Fingerprint) :
    (withoutEntries fs directory).node? (directory ++ [Bytes.ofText (entryName fingerprint)]) =
        some .directory ∨
      ∀ location, directory ++ [Bytes.ofText (entryName fingerprint)] <+: location →
        (withoutEntries fs directory).node? location = none := by
  by_cases hd : fs.node? (directory ++ [Bytes.ofText (entryName fingerprint)]) = some .directory
  · refine Or.inl ?_
    rw [node?_withoutEntries, isInEntry_append, if_neg (by simpa using hd), hd]
  · refine Or.inr ?_
    rintro location ⟨below, rfl⟩
    rw [node?_withoutEntries, List.append_assoc, List.singleton_append, isInEntry_append,
      if_pos (by simpa using hd)]

/-- The way to an entry goes through no entries. -/
def IsApart (cache : Cache) (fs : FileSystem) (fingerprint : Fingerprint) : Prop :=
  ∀ place name, fs.target (cache.entryPath fingerprint) = .ok (.child place name) →
    (withoutEntries fs place).target (cache.entryPath fingerprint) = .ok (.child place name)

/-! ## Evicting beside an entry -/

/-- Below the limit nothing is evicted. -/
theorem evict_of_le (h : cache.currentSize ≤ cache.sizeLimit) (rounds : Nat) :
    evict rounds cache fs = (cache, fs) := by
  cases rounds with
  | zero => rfl
  | succ rounds => rw [evict, if_pos h]

/-- Above it the oldest entry goes first. -/
theorem evict_of_lt {victim : Fingerprint} (h : cache.sizeLimit < cache.currentSize)
    (hv : cache.oldest? = some victim) (rounds : Nat) :
    ∃ next, next.settings = cache.settings ∧ next.entries = (cache.forget victim).entries ∧
      next.currentSize = (cache.forget victim).currentSize ∧
      evict (rounds + 1) cache fs = evict rounds next (cache.remove fs victim).2.2 := by
  let evictions := (cache.remove fs victim).2.1.counters.evictions +
    if (cache.remove fs victim).1 then 1 else 0
  refine ⟨{ (cache.remove fs victim).2.1 with counters.evictions := evictions },
    settings_remove cache fs victim, ?_, ?_, ?_⟩
  · rw [← remove_cache cache fs victim]
  · rw [← remove_cache cache fs victim]
  · rw [evict, if_neg (Nat.not_le_of_lt h), hv]

/-- An entry that is removed cannot be read any more, -/
theorem read_remove_ne_ok (hg : fs.Grounded) (cache : Cache) (fingerprint : Fingerprint)
    (read : Bytes) :
    (cache.remove fs fingerprint).2.2.read (cache.entryPath fingerprint) ≠ .ok read := by
  have hname := isPiece_entryName fingerprint
  have hpath : cache.entryPath fingerprint =
      cache.directory.join ⟨Bytes.ofText (entryName fingerprint)⟩ := rfl
  intro hread
  unfold remove at hread
  split at hread
  · rename_i hremove
    exact FileSystem.read_removeFile_ne_ok hg _ hname (hpath ▸ hremove) read (hpath ▸ hread)
  · rename_i e hkept
    obtain ⟨after, hremove⟩ := FileSystem.removeFile_of_read _ hname (hpath ▸ hread)
    cases hkept.symm.trans (hpath ▸ hremove)

/-- and for good, whatever is evicted then. -/
theorem read_evict_remove_ne_ok (hg : fs.Grounded) {directory : Path}
    (hd : cache.directory = directory) (rounds : Nat) (next : Cache) (read : Bytes) :
    (evict rounds next (cache.remove fs fingerprint).2.2).2.read (pathOf directory fingerprint) ≠
      .ok read := by
  intro hread
  have hpath : pathOf directory fingerprint = cache.entryPath fingerprint := by
    rw [entryPath, hd, pathOf]
  rw [hpath] at hread
  have hremoves : FileSystem.Adds (fun _ => False) fs (cache.remove fs fingerprint).2.2 :=
    adds_remove cache fs fingerprint
  have hevicts : FileSystem.Adds (fun _ => False) (cache.remove fs fingerprint).2.2
    (evict rounds next (cache.remove fs fingerprint).2.2).2 := adds_evict rounds next _
  rcases (hevicts (hremoves hg).1).2 _ read hread with hstill | hnever
  · exact read_remove_ne_ok hg cache fingerprint read hstill
  · exact hnever

/-- Removing another entry leaves it where it is. -/
theorem holds_remove {base : FileSystem} {directory : Path}
    {other : Fingerprint}
    (hholds : Holds base (place ++ [Bytes.ofText (entryName fingerprint)]) content fs)
    (ht : base.target (pathOf directory fingerprint) = .ok (.child place last))
    (hbase : base.node? (place ++ [Bytes.ofText (entryName other)]) = some .directory ∨
      ∀ location, place ++ [Bytes.ofText (entryName other)] <+: location →
        base.node? location = none)
    (hd : cache.directory = directory) (hne : other ≠ fingerprint) :
    Holds base (place ++ [Bytes.ofText (entryName fingerprint)]) content
      (cache.remove fs other).2.2 := by
  unfold Cache.remove
  split
  · rename_i hremove
    rw [entryPath, hd] at hremove
    exact hholds.removeFile (isPiece_entryName fingerprint) ht (isPiece_entryName other)
      (fun heq => hne (entryName_inj heq)) hbase hremove
  · exact hholds

/-- Eviction leaves the entry that was noted last just in case there is room for it and
those that count as accessed after it.  The induction is on the rounds; each takes out
one of the others that was not accessed after it, or, if none is left, the entry. -/
theorem holds_evict {base : FileSystem} {directory : Path} {entry : EntryMeta}
    (ht : base.target (pathOf directory fingerprint) = .ok (.child place last))
    (hbase : ∀ other, base.node? (place ++ [Bytes.ofText (entryName other)]) = some .directory ∨
      ∀ location, place ++ [Bytes.ofText (entryName other)] <+: location →
        base.node? location = none)
    (rounds : Nat) {cache : Cache} {fs : FileSystem} {others : List (Fingerprint × EntryMeta)}
    (hd : cache.directory = directory) (he : cache.entries = others ++ [(fingerprint, entry)])
    (ha : Accounted surplus cache) (hr : cache.size ≤ rounds)
    (hholds : Holds base (place ++ [Bytes.ofText (entryName fingerprint)]) content fs) :
    if entry.size + sizeAfter entry others + surplus ≤ cache.sizeLimit then
      Holds base (place ++ [Bytes.ofText (entryName fingerprint)]) content (evict rounds cache fs).2
    else
      ∀ read, (evict rounds cache fs).2.read (pathOf directory fingerprint) ≠ .ok read := by
  induction rounds generalizing cache fs others with
  | zero =>
      have hnil : cache.entries = [] := List.eq_nil_of_length_eq_zero (Nat.le_zero.mp hr)
      rw [hnil] at he
      simp at he
  | succ rounds ih =>
      have hcounter := ha.currentSize
      rw [recordedSize, he, List.map_append, List.sum_append] at hcounter
      simp only [List.map_cons, List.map_nil, List.sum_cons, List.sum_nil] at hcounter
      by_cases hover : cache.currentSize ≤ cache.sizeLimit
      · have hafter := sizeAfter_le entry others
        rw [evict_of_le hover, if_pos (by omega)]
        exact hholds
      · cases hv : cache.oldest? with
        | none =>
            rw [oldest?_eq_none hv] at he
            simp at he
        | some victim =>
            obtain ⟨next, hsettings, hentries, hsize, hevict⟩ :=
              @evict_of_lt cache fs victim (Nat.lt_of_not_le hover) hv rounds
            rw [hevict]
            rcases of_oldest? he hv with ⟨rfl, hall⟩ | ⟨old, hmem, hnot⟩
            · -- All others were accessed later, and even so there is too much.
              have hafter := sizeAfter_eq_sum hall
              rw [if_neg (by omega)]
              exact read_evict_remove_ne_ok hholds.grounded hd rounds next
            · have hnodup := ha.nodup
              rw [he, List.map_append, List.nodup_append] at hnodup
              have hne : victim ≠ fingerprint :=
                hnodup.2.2 victim (List.mem_map_of_mem hmem) fingerprint (by simp)
              have hmeta : cache.meta? victim = some old := by
                refine Association.lookup_of_mem ha.nodup ?_
                rw [he]
                exact List.mem_append_left _ hmem
              have hleft : next.entries = others.filter (·.1 ≠ victim) ++ [(fingerprint, entry)] := by
                rw [hentries, entries_forget, he, List.filter_append,
                  List.filter_cons_of_pos (by simpa using hne.symm), List.filter_nil]
              have hfewer : next.size < cache.size := by
                rw [size, hentries]
                exact size_forget_lt (List.mem_map_of_mem (Association.mem_of_lookup hmeta))
              have hlimit : next.sizeLimit = cache.sizeLimit := congrArg (·.2.2) hsettings
              have hdirectory : next.directory = directory :=
                (congrArg (·.1) hsettings).trans hd
              rw [← sizeAfter_filter_ne hnodup.1 hmem hnot, ← hlimit]
              refine ih hdirectory hleft ((ha.forget victim).of_eq hentries hsize) (by omega) ?_
              exact holds_remove hholds ht (hbase victim) hd hne

/-! ## Storing -/

/-- What storing an entry meets with: its file fits the limit and is written, into a
directory whose path does not go through entries. -/
structure Storable (cache : Cache) (fs written : FileSystem) (fingerprint : Fingerprint)
    (file : Bytes) : Prop where
  grounded : fs.Grounded
  apart : IsApart cache fs fingerprint
  fits : file.length ≤ cache.sizeLimit
  replaced : fs.replaceFile cache.directory (cache.entryPath fingerprint) file = .ok written

/-- What is noted of an entry that is written now. -/
def storedMeta (cache : Cache) (written : FileSystem) (size : Nat) : EntryMeta :=
  { size, lastAccess := written.tick.1, sequence := cache.tick.1, hits := 0 }

/-- The other entries that count as accessed after one that is written now. -/
def laterSize (cache : Cache) (written : FileSystem) (fingerprint : Fingerprint) (size : Nat) :
    Nat :=
  sizeAfter (cache.storedMeta written size) (cache.entries.filter (·.1 ≠ fingerprint))

/-- An entry that was stored can be read just in case there is room for it and those that
count as accessed after it. -/
theorem Accounted.read_store (ha : Accounted surplus cache)
    (hw : Storable cache fs written fingerprint (Entry.encode sha256 fingerprint engine bytecode)) :
    let file := Entry.encode sha256 fingerprint engine bytecode
    let stored := (cache.store fs fingerprint engine bytecode).2
    if file.length + cache.laterSize written fingerprint file.length + surplus ≤ cache.sizeLimit then
      stored.read (cache.entryPath fingerprint) = .ok file
    else ∀ read, stored.read (cache.entryPath fingerprint) ≠ .ok read := by
  intro file stored
  have hname := isPiece_entryName fingerprint
  obtain ⟨place, htarget, hdir, -⟩ := FileSystem.replaceFile_join cache.directory hname hw.replaced
  have ht := hw.apart place _ htarget
  have hbase := withoutEntries_entry fs place
  have hnone : (withoutEntries fs place).node? (place ++ [Bytes.ofText (entryName fingerprint)]) =
      none := by
    rcases hbase fingerprint with hdirectory | hgone
    · exact absurd ((alters_withoutEntries fs place).directory hdirectory) hdir
    · exact hgone _ (List.prefix_refl _)
  have hwritten := FileSystem.holds_replaceFile hw.grounded (alters_withoutEntries fs place) hname
    ht hnone hw.replaced
  have hstored : stored =
      ((cache.noteStored written fingerprint file.length).1.enforceLimit written.tick.2).2 := by
    show (cache.store fs fingerprint engine bytecode).2 = _
    simp only [Cache.store]
    rw [if_neg (Nat.not_lt_of_le hw.fits), hw.replaced]
    rfl
  have hkept : if file.length + cache.laterSize written fingerprint file.length + surplus ≤
      cache.sizeLimit then
        Holds (withoutEntries fs place) (place ++ [Bytes.ofText (entryName fingerprint)]) file stored
      else ∀ read, stored.read (cache.entryPath fingerprint) ≠ .ok read := by
    rw [hstored]
    have hnoted : Accounted surplus (cache.noteStored written fingerprint file.length).1 :=
      ha.noteStored fingerprint file.length
    have hentries : (cache.noteStored written fingerprint file.length).1.entries =
        cache.entries.filter (·.1 ≠ fingerprint) ++
          [(fingerprint, cache.storedMeta written file.length)] := rfl
    refine holds_evict ht hbase _ ?_ hentries hnoted (Nat.le_refl _) hwritten.tick
    rfl
  by_cases hroom :
      file.length + cache.laterSize written fingerprint file.length + surplus ≤ cache.sizeLimit
  · rw [if_pos hroom] at hkept ⊢
    exact hkept.read hname ht
  · rw [if_neg hroom] at hkept ⊢
    exact hkept

/-! ## Looking up what was stored -/

/-- Looking up comes to bytecode just in case a file can be read and checks out. -/
theorem lookup_eq_some_iff : (cache.lookup fs fingerprint engine).1 = some bytecode ↔
    ∃ file, fs.read (cache.entryPath fingerprint) = .ok file ∧
      Entry.decode sha256 fingerprint engine file = .ok bytecode := by
  constructor
  · intro hsome
    have hlookup : cache.lookup fs fingerprint engine =
        (some bytecode, (cache.lookup fs fingerprint engine).2) := by
      rw [← hsome]
    obtain ⟨size, hread⟩ := of_lookup hlookup
    exact of_readFile hread
  · rintro ⟨file, hread, hdecode⟩
    have hfound : cache.readFile fs fingerprint engine = .bytecode bytecode file.length := by
      rw [readFile, hread]
      simp only [hdecode]
    unfold lookup
    rw [hfound]

/-- Storing the bytecode of a source and looking the source up finds this bytecode. -/
def Recalls (cache : Cache) (fs : FileSystem) (source : Bytes) (engine : String)
    (options : CompileOptions) (bytecode : Bytes) : Prop :=
  let stored := cache.store fs (cache.fingerprintOf source engine options) engine bytecode
  (stored.1.lookup stored.2 (stored.1.fingerprintOf source engine options) engine).1 = some bytecode

theorem length_encode (checksum : Bytes → Digest) (fingerprint : Fingerprint) (engine : String)
    (payload : Bytes) : (Entry.encode checksum fingerprint engine payload).length =
      80 + min Entry.engineLimit (Bytes.ofText engine).length + payload.length := by
  simp only [Entry.encode, Entry.magic, List.length_append, List.length_cons, List.length_nil,
    Bytes.length_ofNat, List.length_take, fingerprint.length_eq, (checksum payload).length_eq]
  omega

variable {source : Bytes} {options : CompileOptions}

/-- What is stored is found just in case the version of the engine fits its field and
there is room for the entry. -/
theorem Accounted.recalls_iff_of_surplus (ha : Accounted surplus cache) (hlimit : cache.sizeLimit < 2 ^ 64)
    (hw : Storable cache fs written (cache.fingerprintOf source engine options)
      (Entry.encode sha256 (cache.fingerprintOf source engine options) engine bytecode)) :
    let fingerprint := cache.fingerprintOf source engine options
    let size := (Entry.encode sha256 fingerprint engine bytecode).length
    Recalls cache fs source engine options bytecode ↔
      (Bytes.ofText engine).length ≤ Entry.engineLimit ∧
        size + cache.laterSize written fingerprint size + surplus ≤ cache.sizeLimit := by
  intro fingerprint size
  have hread := ha.read_store hw
  have hsettings := settings_store cache fs fingerprint engine bytecode
  have hdirectory : (cache.store fs fingerprint engine bytecode).1.directory = cache.directory :=
    congrArg (·.1) hsettings
  have hroot : (cache.store fs fingerprint engine bytecode).1.portableRoot = cache.portableRoot :=
    congrArg (·.2.1) hsettings
  have hfingerprint : (cache.store fs fingerprint engine bytecode).1.fingerprintOf source engine
      options = fingerprint := by
    rw [fingerprintOf, hroot]
    rfl
  unfold Recalls
  simp only
  rw [hfingerprint, lookup_eq_some_iff, entryPath, hdirectory]
  have hpayload : bytecode.length + 32 ≤ Entry.lengthLimit := by
    have hfits := hw.fits
    rw [length_encode] at hfits
    have hlt : bytecode.length + 32 < 2 ^ 64 := by omega
    exact Nat.le_sub_one_of_lt hlt
  constructor
  · rintro ⟨file, hfile, hdecode⟩
    refine ⟨(Entry.of_decode_eq_ok hdecode).2.1, ?_⟩
    by_contra hroom
    rw [if_neg hroom] at hread
    exact hread file hfile
  · rintro ⟨hengine, hroom⟩
    rw [if_pos hroom] at hread
    exact ⟨_, hread, Entry.decode_encode ⟨hengine, hpayload⟩⟩

/-- The limit leaves room for an entry that is written now, beside the others that count
as accessed after it. -/
def HasRoom (cache : Cache) (written : FileSystem) (fingerprint : Fingerprint) (size : Nat) : Prop :=
  size + cache.laterSize written fingerprint size ≤ cache.sizeLimit

/-- While the numbers of accesses do not run out, no other entry counts as accessed after
one that is written now. -/
theorem Timed.laterSize_eq_zero {n : Nat} (h : Timed n cache) (hn : n + 1 < 2 ^ 64)
    (written : FileSystem) (fingerprint : Fingerprint) (size : Nat) :
    cache.laterSize written fingerprint size = 0 := by
  obtain ⟨hlt, -⟩ := h.lt_tick hn
  refine sizeAfter_eq_zero fun pair hpair => not_accessedBefore_of_lt ?_
  have hbefore := h.entries pair (List.mem_filter.mp hpair).1
  exact UInt64.lt_of_le_of_lt hbefore hlt

/-- In a cache that was opened on a directory of canonical names, whatever it went through
since, what is stored is found again just in case the version of the engine fits its
field and there is room for the entry; and there is, unless a number of 64 bits cannot
count the accesses. -/
theorem recalls_iff {config : CacheConfig} {after : FileSystem}
    (hopen : openAt config fs = (.ok cache, after)) (hlimit : config.sizeLimit < 2 ^ 64)
    (hnodes : ((fs.makeDirectories config.directory).2.nodes.map (·.1)).Nodup)
    (hnames : IsCanonical (fs.makeDirectories config.directory).2 config.directory)
    (events : List Event) {now : Cache} {files : FileSystem}
    (hnow : undergoAll events cache after = (now, files))
    (hw : Storable now files written (now.fingerprintOf source engine options)
      (Entry.encode sha256 (now.fingerprintOf source engine options) engine bytecode)) :
    let fingerprint := now.fingerprintOf source engine options
    let size := (Entry.encode sha256 fingerprint engine bytecode).length
    (Recalls now files source engine options bytecode ↔
      (Bytes.ofText engine).length ≤ Entry.engineLimit ∧
        now.HasRoom written fingerprint size) ∧
    (cache.clock.toNat + events.length + 1 < 2 ^ 64 → now.HasRoom written fingerprint size) := by
  intro fingerprint size
  have hzero := hnames.overcountAt_eq_zero hnodes
  have haccounted : Accounted 0 now := by
    have hrun := @Accounted.undergoAll _ after _ events (accounted_openAt hopen)
    rw [hnow, hzero, ite_self] at hrun
    exact hrun
  have hsettings : now.settings = cache.settings := by
    rw [← settings_undergoAll events cache after, hnow]
  have hsize : now.sizeLimit = config.sizeLimit := by
    rw [settings_openAt hopen] at hsettings
    exact congrArg (·.2.2) hsettings
  refine ⟨?_, fun hclock => ?_⟩
  · have hiff := haccounted.recalls_iff_of_surplus (hsize ▸ hlimit) hw
    simp only [Nat.add_zero] at hiff
    exact hiff
  · have htimed : Timed (cache.clock.toNat + events.length) (undergoAll events cache after).1 :=
      (timed_openAt hopen).undergoAll events (by omega)
    rw [hnow] at htimed
    rw [HasRoom, htimed.laterSize_eq_zero hclock written fingerprint size, Nat.add_zero]
    exact hw.fits

/-! ## A version that is too long -/

/-- The way to an entry of the empty directory. -/
theorem target_emptyDirectory (sizeLimit : Nat) (fingerprint : Fingerprint) :
    emptyDirectory.target ((limitedCache sizeLimit).entryPath fingerprint) =
      .ok (.child [Bytes.ofText "c"] (Bytes.ofText (entryName fingerprint))) := by
  have hname := isPiece_entryName fingerprint
  have hbytes : ((limitedCache sizeLimit).entryPath fingerprint).bytes =
      [0x2F, 0x63, 0x2F] ++ Bytes.ofText (entryName fingerprint) := by
    show ((Path.ofString "/c").join ⟨Bytes.ofText (entryName fingerprint)⟩).bytes = _
    rw [Path.join, FileSystem.isAbsolute_of_isPiece hname]
    rfl
  have hnull : ¬ ((limitedCache sizeLimit).entryPath fingerprint).bytes.contains 0 = true := by
    rw [hbytes, List.contains_iff_mem, List.mem_append]
    exact fun hmem => hmem.elim (by decide) (null_notMem_entryName fingerprint)
  have hlen : ((limitedCache sizeLimit).entryPath fingerprint).bytes.length = 71 := by
    rw [hbytes, List.length_append, length_entryName]
    rfl
  have habs : ((limitedCache sizeLimit).entryPath fingerprint).isAbsolute = true := by
    rw [Path.isAbsolute, hbytes]
    rfl
  refine (FileSystem.target_join_iff (.ofString "/c") hname).mpr ⟨?_, rfl, ?_, rfl⟩
  · show emptyDirectory.placeOf true ((limitedCache sizeLimit).entryPath fingerprint) _ = _
    rw [FileSystem.placeOf, if_neg hnull, if_neg (fun hnil => by rw [hnil] at hlen; cases hlen),
      if_neg (by rw [hlen]; decide), if_pos habs]
    rfl
  · rw [length_entryName]
    decide

theorem storable_emptyDirectory {sizeLimit : Nat} {file : Bytes} (h : file.length ≤ sizeLimit)
    (fingerprint : Fingerprint) :
    ∃ written, Storable (limitedCache sizeLimit) emptyDirectory written fingerprint file := by
  have htarget := target_emptyDirectory sizeLimit fingerprint
  have hnode : emptyDirectory.node?
      ([Bytes.ofText "c"] ++ [Bytes.ofText (entryName fingerprint)]) ≠ some .directory := by
    rw [show emptyDirectory.node? ([Bytes.ofText "c"] ++ [Bytes.ofText (entryName fingerprint)]) =
      none from rfl]
    exact fun hnone => nomatch hnone
  have hfind : emptyDirectory.find (limitedCache sizeLimit).directory =
      .ok (⟨[Bytes.ofText "c"], 0⟩, .directory) := by
    rfl
  obtain ⟨written, hwritten⟩ : ∃ written, emptyDirectory.replaceFile
      (limitedCache sizeLimit).directory ((limitedCache sizeLimit).entryPath fingerprint) file =
        .ok written := by
    have habs : (!(limitedCache sizeLimit).directory.isAbsolute && 0 < emptyDirectory.lost) = false :=
      rfl
    rw [FileSystem.replaceFile, habs, hfind, FileSystem.renameNew, htarget]
    simp only [bind, Except.bind, if_neg hnode]
    exact ⟨_, rfl⟩
  refine ⟨written, grounded_emptyDirectory, ?_, h, hwritten⟩
  intro place name hplace
  rw [htarget] at hplace
  cases hplace
  exact htarget

theorem nodup_emptyDirectory :
    ((emptyDirectory.makeDirectories (limitedConfig 0).directory).2.nodes.map (·.1)).Nodup := by
  decide

theorem isCanonical_emptyDirectory : IsCanonical
    (emptyDirectory.makeDirectories (limitedConfig 0).directory).2 (limitedConfig 0).directory := by
  intro names hlist
  rw [limitedConfig, makeDirectories_emptyDirectory, list_emptyDirectory] at hlist
  cases hlist
  exact fun name hname => absurd hname List.not_mem_nil

/-- Once stored, bytecode is found. -/
theorem recalls_emptyDirectory : ∃ written,
    Storable (limitedCache 1000) emptyDirectory written
      ((limitedCache 1000).fingerprintOf [0x61] "1" {})
      (Entry.encode sha256 ((limitedCache 1000).fingerprintOf [0x61] "1" {}) "1" [0x62]) ∧
    Recalls (limitedCache 1000) emptyDirectory [0x61] "1" {} [0x62] := by
  obtain ⟨written, hw⟩ := @storable_emptyDirectory 1000
    (Entry.encode sha256 ((limitedCache 1000).fingerprintOf [0x61] "1" {}) "1" [0x62])
    (by rw [length_encode]; decide) ((limitedCache 1000).fingerprintOf [0x61] "1" {})
  obtain ⟨hiff, hroom⟩ := recalls_iff (openAt_emptyDirectory 1000) (by decide) nodup_emptyDirectory
    isCanonical_emptyDirectory [] rfl hw
  exact ⟨written, hw, hiff.mpr ⟨by decide, hroom (by decide)⟩⟩

/-- A version of an engine that has `n` bytes. -/
def engineOf (n : Nat) : String := String.ofList (List.replicate n 'e')

theorem length_engineOf (n : Nat) : (Bytes.ofText (engineOf n)).length = n := by
  rw [engineOf, Bytes.ofText_ofList]
  induction n with
  | zero => rfl
  | succ n ih =>
      rw [List.replicate_succ, List.flatMap_cons, List.length_append, ih, Nat.add_comm]
      rfl

/-- What is stored need not be found again. -/
theorem not_recalls : ¬ ∀ (config : CacheConfig) (fs after files written : FileSystem)
    (cache now : Cache) (events : List Event) (source : Bytes) (engine : String)
    (options : CompileOptions) (bytecode : Bytes),
    openAt config fs = (.ok cache, after) → config.sizeLimit < 2 ^ 64 →
    ((fs.makeDirectories config.directory).2.nodes.map (·.1)).Nodup →
    IsCanonical (fs.makeDirectories config.directory).2 config.directory →
    undergoAll events cache after = (now, files) →
    Storable now files written (now.fingerprintOf source engine options)
      (Entry.encode sha256 (now.fingerprintOf source engine options) engine bytecode) →
    Recalls now files source engine options bytecode := by
  intro hall
  let engine := engineOf (Entry.engineLimit + 1)
  have hengine : (Bytes.ofText engine).length = Entry.engineLimit + 1 := length_engineOf _
  let fingerprint := (limitedCache 100000).fingerprintOf [0x61] engine {}
  obtain ⟨written, hw⟩ := @storable_emptyDirectory 100000
    (Entry.encode sha256 fingerprint engine [0x62])
    (by rw [length_encode, hengine]; simp [Entry.engineLimit]) fingerprint
  have hrecalls := hall (limitedConfig 100000) emptyDirectory emptyDirectory emptyDirectory written
    (limitedCache 100000) (limitedCache 100000) [] [0x61] engine {} [0x62]
    (openAt_emptyDirectory 100000) (by decide) nodup_emptyDirectory isCanonical_emptyDirectory rfl hw
  unfold Recalls at hrecalls
  obtain ⟨file, -, hdecode⟩ := lookup_eq_some_iff.mp hrecalls
  have hfits := (Entry.of_decode_eq_ok hdecode).2.1
  rw [hengine] at hfits
  exact Nat.not_succ_le_self _ hfits

end ScriptModules.Cache
