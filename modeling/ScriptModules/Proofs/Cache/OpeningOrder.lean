import ScriptModules.Proofs.Cache.Shedding
import ScriptModules.Proofs.Cache.Tidy

/-!
# What opening a cache evicts

The entry files of a directory come up for eviction in one order, whatever the limit a cache is
opened with (`seenAt`).  The numbers of the last accesses say it first, and the times of these
only where two numbers are the same.  The index has the numbers; a file that it does not know
has number zero and the time when it was written.

So what was accessed longest ago goes first only if times go along with numbers
(`AgesAlike`).  They do not if someone writes an entry file while the index is left as it is.
-/

namespace ScriptModules.Cache

variable {cache : Cache} {fs : FileSystem}

/-! ## What a scan comes to know -/

/-- What is known of a file: what the index says of it, if this has the size right. -/
def sighted (indexed : Option EntryMeta) (status : FileSystem.Status) : EntryMeta :=
  (indexed.filter fun entry => entry.size == status.size).getD
    { size := status.size, lastAccess := status.modified, sequence := 0, hits := 0 }

/-- What is known of some files, of which the latest comes first.  The index counts for the
first file of a fingerprint only. -/
def rebuilt (index : Index) :
    List (Fingerprint × FileSystem.Status) → List (Fingerprint × EntryMeta)
  | [] => []
  | (fingerprint, status) :: before =>
    let indexed :=
      if fingerprint ∈ before.map (·.1) then none else index.lookup fingerprint.toHex
    (fingerprint, sighted indexed status) :: rebuilt index before

/-- What an opening finds in a directory, before it evicts anything. -/
def seenAt (directory : Path) (fs : FileSystem) (fingerprint : Fingerprint) : Option EntryMeta :=
  match fs.list directory with
  | .ok names =>
    (rebuilt (indexAt directory fs) (sightings directory names fs).reverse).lookup fingerprint
  | .error _ => none

/-- A scan has taken in some files, the latest first, and nothing else. -/
structure Scan.TookIn (index : Index) (seen : List (Fingerprint × FileSystem.Status))
    (scan : Scan) : Prop where
  known : ∀ fingerprint, scan.cache.meta? fingerprint = (rebuilt index seen).lookup fingerprint
  found : scan.found = seen.map (·.1.toHex)

/-- An index entry was used up just in case its fingerprint was seen. -/
theorem Scan.TookIn.contains_found {index : Index}
    {seen : List (Fingerprint × FileSystem.Status)} {scan : Scan} (h : scan.TookIn index seen)
    (fingerprint : Fingerprint) :
    scan.found.contains fingerprint.toHex = decide (fingerprint ∈ seen.map (·.1)) := by
  rw [h.found, Bool.eq_iff_iff, List.contains_iff_mem, decide_eq_true_iff]
  simp only [List.mem_map]
  constructor
  · rintro ⟨pair, hpair, heq⟩
    exact ⟨pair, hpair, toHex_inj heq⟩
  · rintro ⟨pair, hpair, rfl⟩
    exact ⟨pair, hpair, rfl⟩

/-- One file more is taken in. -/
theorem Scan.TookIn.scanName {index : Index}
    {seen : List (Fingerprint × FileSystem.Status)} {scan : Scan} (h : scan.TookIn index seen)
    {name : Name} {fingerprint : Fingerprint} {status : FileSystem.Status}
    (ht : ¬ (Bytes.ofText temporaryPrefix).isPrefixOf name)
    (hn : fingerprintOfName? name = some fingerprint)
    (hs : scan.fs.status (scan.cache.directory.join ⟨name⟩) = some status) :
    (Cache.scanName index scan name).TookIn index ((fingerprint, status) :: seen) := by
  have hused : (if scan.found.contains fingerprint.toHex then none
      else index.lookup fingerprint.toHex) =
        (if fingerprint ∈ seen.map (·.1) then none else index.lookup fingerprint.toHex) := by
    rw [h.contains_found]
    simp only [decide_eq_true_iff]
  constructor
  · intro key
    have hentries : (Cache.scanName index scan name).cache.entries = (scan.cache.note fingerprint
        (sighted (if fingerprint ∈ seen.map (·.1) then none
          else index.lookup fingerprint.toHex) status)).entries := by
      rw [Cache.scanName, if_neg ht, hn, hs, ← hused]
      rfl
    rw [meta?_of_entries_eq_note hentries, rebuilt, List.lookup_cons]
    by_cases heq : key = fingerprint
    · simp [heq]
    · have hne : (key == fingerprint) = false := beq_eq_false_iff_ne.mpr heq
      rw [if_neg heq, hne, h.known]
  · rw [Cache.scanName, if_neg ht, hn, hs, List.map_cons, ← h.found]

/-- A scan takes in the entry files of its list, in order. -/
theorem Scan.TookIn.scanNames {index : Index} (names : List Name) {scan : Scan}
    {seen : List (Fingerprint × FileSystem.Status)} (h : scan.TookIn index seen) :
    (names.foldl (Cache.scanName index) scan).TookIn index
      ((sightings scan.cache.directory names scan.fs).reverse ++ seen) :=
  scanNames_induct (motive := fun seen scan => scan.TookIn index seen) index
    (fun _ _ _ hseen => ⟨hseen.known, hseen.found⟩)
    (fun _ _ _ _ _ hseen ht hn hs => hseen.scanName ht hn hs) names h

theorem meta?_scan {found : Cache} {after : FileSystem} (he : cache.entries = [])
    (h : cache.scan fs = .ok (found, after)) (fingerprint : Fingerprint) :
    found.meta? fingerprint = seenAt cache.directory fs fingerprint := by
  obtain ⟨names, hl⟩ := list_of_scan h
  rw [scan_of_list hl] at h
  have hempty : Scan.TookIn (indexAt cache.directory fs) [] { cache, fs, found := [] } := by
    refine ⟨fun key => ?_, rfl⟩
    rw [meta?, he]
    rfl
  have hall := hempty.scanNames names
  rw [List.append_nil] at hall
  cases h
  rw [seenAt, hl]
  exact hall.known fingerprint

/-! ## Other limits -/

theorem scanName_sizeLimit (index : Index) (scan : Scan) (name : Name) (limit : Nat) :
    scanName index { scan with cache.sizeLimit := limit } name =
      { scanName index scan name with cache.sizeLimit := limit } := by
  unfold scanName
  dsimp only
  split
  · rfl
  · split <;> rfl

/-- A scan has nothing to do with the limit. -/
theorem scan_sizeLimit {found : Cache} {after : FileSystem}
    (h : cache.scan fs = .ok (found, after)) (limit : Nat) :
    ({ cache with sizeLimit := limit } : Cache).scan fs =
      .ok ({ found with sizeLimit := limit }, after) := by
  have hall : ∀ (index : Index) (names : List Name) (scan : Scan),
      names.foldl (scanName index) { scan with cache.sizeLimit := limit } =
        { names.foldl (scanName index) scan with cache.sizeLimit := limit } := by
    intro index names
    induction names with
    | nil => exact fun scan => rfl
    | cons name names ih =>
        intro scan
        rw [List.foldl_cons, scanName_sizeLimit, ih]
        rfl
  obtain ⟨names, hl⟩ := list_of_scan h
  have hscan := @scan_of_list { cache with sizeLimit := limit } fs names hl
  rw [scan_of_list hl] at h
  cases h
  rw [hscan, hall _ names { cache, fs, found := [] }]

/-- Whatever the limit, it is the same cache that an opening evicts from. -/
theorem openAt_sizeLimit {config : CacheConfig} {opened : Cache} {after : FileSystem}
    (h : openAt config fs = (.ok opened, after)) : ∃ scanned middle,
      Accounted (overcountAt config.directory (fs.makeDirectories config.directory).2) scanned ∧
      (∀ fingerprint, scanned.meta? fingerprint =
        seenAt config.directory (fs.makeDirectories config.directory).2 fingerprint) ∧
      ∀ limit, openAt { config with sizeLimit := limit } fs =
        (.ok (({ scanned with sizeLimit := limit } : Cache).enforceLimit middle).1,
          (({ scanned with sizeLimit := limit } : Cache).enforceLimit middle).2) := by
  obtain ⟨made, scanned, middle, hmade, hscan, -⟩ := of_openAt h
  have haccounted := accounted_scan rfl rfl hscan
  have hseen := meta?_scan rfl hscan
  rw [hmade]
  exact ⟨scanned, middle, haccounted, hseen, fun limit =>
    openAt_of_scan hmade (scan_sizeLimit hscan limit)⟩

/-! ## The order -/

variable {seen kept : Fingerprint → Option EntryMeta} {order : List Fingerprint}
  {besides limit : Nat}

/-- The entries of a directory come up in one order, whatever the limit. -/
theorem openAt_sheds {config : CacheConfig} {opened : Cache} {after : FileSystem}
    (h : openAt config fs = (.ok opened, after)) :
    let made := (fs.makeDirectories config.directory).2
    let seen := seenAt config.directory made
    ∃ order : List Fingerprint, order.Nodup ∧
      (∀ fingerprint, fingerprint ∈ order ↔ (seen fingerprint).isSome = true) ∧
      order.Pairwise (InOrder seen) ∧
      ∀ limit, ∃ cache later, openAt { config with sizeLimit := limit } fs = (.ok cache, later) ∧
        Sheds seen cache.meta? order (overcountAt config.directory made) limit := by
  intro made seen
  obtain ⟨scanned, middle, haccounted, hseen, hopens⟩ := openAt_sizeLimit h
  have hknown : seen = scanned.meta? := (funext hseen).symm
  rw [hknown]
  have hperm := evictionOrder_perm haccounted.nodup
  refine ⟨scanned.evictionOrder, hperm.nodup_iff.mpr haccounted.nodup,
    fun fingerprint => mem_evictionOrder_iff haccounted.nodup,
    pairwise_evictionOrder haccounted.nodup, fun limit => ⟨_, _, hopens limit, ?_⟩⟩
  have hlimited : Accounted _ { scanned with sizeLimit := limit } := haccounted.of_eq rfl rfl
  have hsheds := @Accounted.enforceLimit_sheds _ middle _ hlimited
  rw [show evictionOrder { scanned with sizeLimit := limit } = scanned.evictionOrder from
    victims_of_entries_eq _ rfl] at hsheds
  exact hsheds

/-! ## Numbers and times -/

/-- Nothing that is not kept was accessed later than something that is. -/
def OldestFirst (seen kept : Fingerprint → Option EntryMeta) : Prop :=
  ∀ gone left entry other, seen gone = some entry → kept gone = none →
    seen left = some other → kept left ≠ none → ¬ other.lastAccess.before entry.lastAccess = true

/-- Whatever has a lower number was accessed no later. -/
def AgesAlike (seen : Fingerprint → Option EntryMeta) : Prop :=
  ∀ first second entry other, seen first = some entry → seen second = some other →
    entry.sequence < other.sequence → ¬ other.lastAccess.before entry.lastAccess = true

/-- What goes comes before what stays. -/
theorem Sheds.inOrder (h : Sheds seen kept order besides limit)
    (hs : ∀ fingerprint, fingerprint ∈ order ↔ (seen fingerprint).isSome = true)
    (hp : order.Pairwise (InOrder seen)) {gone left : Fingerprint} {entry : EntryMeta}
    (hg : seen gone = some entry) (hgone : kept gone = none) (hleft : kept left ≠ none) :
    InOrder seen gone left := by
  obtain ⟨count, -, hkept⟩ := h
  have hfirst : gone ∈ order.take count := by
    by_contra hnot
    rw [hkept, if_neg hnot, hg] at hgone
    cases hgone
  have hlast : left ∈ order.drop count := by
    rw [hkept] at hleft
    split at hleft
    · exact absurd rfl hleft
    · rename_i hnot
      have hmem := (hs left).mpr (Option.isSome_iff_ne_none.mpr hleft)
      rw [← List.take_append_drop count order, List.mem_append] at hmem
      exact hmem.resolve_left hnot
  rw [← List.take_append_drop count order, List.pairwise_append] at hp
  exact hp.2.2 gone hfirst left hlast

/-- Where times go along with numbers, what was accessed longest ago goes first. -/
theorem Sheds.oldestFirst (h : Sheds seen kept order besides limit)
    (hs : ∀ fingerprint, fingerprint ∈ order ↔ (seen fingerprint).isSome = true)
    (hp : order.Pairwise (InOrder seen)) (ha : AgesAlike seen) : OldestFirst seen kept := by
  intro gone left entry other hentry hgone hother hleft hbefore
  have hnot := h.inOrder hs hp hentry hgone hleft entry other hentry hother
  have hages : ¬ entry.sequence < other.sequence := fun hlt =>
    ha gone left entry other hentry hother hlt hbefore
  have hbefore' := hbefore
  simp only [Timestamp.before, Bool.or_eq_true, Bool.and_eq_true, decide_eq_true_eq,
    beq_iff_eq] at hbefore'
  rw [accessedBefore_iff, not_or] at hnot
  have heq : other.sequence = entry.sequence :=
    UInt64.le_antisymm (UInt64.not_lt.mp hages) (UInt64.not_lt.mp hnot.1)
  exact hnot.2 ⟨heq, hbefore'⟩

/-- With the right limit, the order is cut before any one entry. -/
theorem Sheds.eq_none_of_before {pre post : List Fingerprint} {first : Fingerprint}
    (h : Sheds seen kept (pre ++ first :: post) besides limit)
    (hl : limit = besides + ((first :: post).map (sizeIn seen)).sum)
    (hp : ∀ fingerprint ∈ pre, 0 < sizeIn seen fingerprint)
    (hn : (pre ++ first :: post).Nodup) :
    (∀ fingerprint ∈ pre, kept fingerprint = none) ∧ kept first = seen first := by
  obtain ⟨count, ⟨hmay, hleast⟩, hkept⟩ := h
  have hle : count ≤ pre.length := hleast (Or.inl (by rw [List.drop_left, hl]))
  have hge : pre.length ≤ count := by
    by_contra hlt
    rcases hmay with hfits | hall
    · rw [hl, List.drop_append_of_le_length hle, List.map_append, List.sum_append,
        List.drop_eq_getElem_cons (Nat.lt_of_not_le hlt), List.map_cons, List.sum_cons] at hfits
      have hsize := hp _ (List.getElem_mem (Nat.lt_of_not_le hlt))
      omega
    · rw [List.length_append, List.length_cons] at hall
      omega
  obtain rfl : count = pre.length := Nat.le_antisymm hle hge
  rw [List.take_left] at hkept
  refine ⟨fun fingerprint hmem => by rw [hkept, if_pos hmem], ?_⟩
  have hnot : first ∉ pre := fun hmem =>
    (List.nodup_append.mp hn).2.2 first hmem first List.mem_cons_self rfl
  rw [hkept, if_neg hnot]

/-- If what was accessed longest ago goes first with every limit, times go along with numbers. -/
theorem agesAlike_of_oldestFirst
    (hs : ∀ fingerprint, fingerprint ∈ order ↔ (seen fingerprint).isSome = true)
    (hp : order.Pairwise (InOrder seen)) (hn : order.Nodup)
    (hpos : ∀ fingerprint entry, seen fingerprint = some entry → 0 < entry.size)
    (h : ∀ limit, ∃ kept, Sheds seen kept order besides limit ∧ OldestFirst seen kept) :
    AgesAlike seen := by
  intro first second entry other hentry hother hlt
  -- The limit is the one with which everything before the second entry has to go.
  have hmem : ∀ {fingerprint entry}, seen fingerprint = some entry → fingerprint ∈ order :=
    fun hseen => (hs _).mpr (hseen ▸ rfl)
  obtain ⟨pre, post, rfl⟩ := List.append_of_mem (hmem hother)
  obtain ⟨kept, hsheds, holdest⟩ := h (besides + ((second :: post).map (sizeIn seen)).sum)
  have hsizes : ∀ fingerprint ∈ pre, 0 < sizeIn seen fingerprint := by
    intro fingerprint hpre
    have hsome := (hs fingerprint).mp (List.mem_append_left _ hpre)
    obtain ⟨known, hknown⟩ := Option.isSome_iff_exists.mp hsome
    rw [sizeIn, hknown]
    exact hpos _ _ hknown
  obtain ⟨hgone, hleft⟩ := hsheds.eq_none_of_before rfl hsizes hn
  have hbefore : first ∈ pre := by
    rcases List.mem_append.mp (hmem hentry) with hpre | hpost
    · exact hpre
    · rcases List.mem_cons.mp hpost with rfl | hpost
      · rw [hentry] at hother
        cases hother
        exact absurd hlt (UInt64.lt_irrefl _)
      · have hinOrder := (List.pairwise_cons.mp (List.pairwise_append.mp hp).2.1).1 first hpost
        exact absurd (accessedBefore_iff.mpr (Or.inl hlt)) (hinOrder other entry hother hentry)
  refine holdest first second entry other hentry (hgone first hbefore) hother ?_
  rw [hleft, hother]
  exact Option.some_ne_none _

/-- Opening a cache gives up what was accessed longest ago. -/
def EvictsOldestFirst (config : CacheConfig) (fs : FileSystem) : Prop :=
  ∀ cache after, openAt config fs = (.ok cache, after) →
    OldestFirst (seenAt config.directory (fs.makeDirectories config.directory).2) cache.meta?

/-- An opening evicts the entries of its directory in the order of their numbers, and in that of
their times only where these are the same, and no more of them than it takes.  So the entries
that were accessed longest ago go first, whatever the limit, if times go along with numbers; and
only then, where no entry file is empty. -/
theorem openAt_evicts_by_number {config : CacheConfig} {opened : Cache} {after : FileSystem}
    (h : openAt config fs = (.ok opened, after)) :
    let made := (fs.makeDirectories config.directory).2
    let seen := seenAt config.directory made
    (∃ order : List Fingerprint, order.Nodup ∧
      (∀ fingerprint, fingerprint ∈ order ↔ (seen fingerprint).isSome = true) ∧
      order.Pairwise (InOrder seen) ∧
      ∀ limit, ∃ cache later, openAt { config with sizeLimit := limit } fs = (.ok cache, later) ∧
        Sheds seen cache.meta? order (overcountAt config.directory made) limit) ∧
    (AgesAlike seen → ∀ limit, EvictsOldestFirst { config with sizeLimit := limit } fs) ∧
    ((∀ fingerprint entry, seen fingerprint = some entry → 0 < entry.size) →
      (∀ limit, EvictsOldestFirst { config with sizeLimit := limit } fs) → AgesAlike seen) := by
  intro made seen
  obtain ⟨order, hnodup, hmem, hpairwise, hsheds⟩ := openAt_sheds h
  refine ⟨⟨order, hnodup, hmem, hpairwise, hsheds⟩, fun hages limit cache later hopen => ?_,
    fun hpos holdest => ?_⟩
  · obtain ⟨cache', later', hopen', hshed⟩ := hsheds limit
    rw [hopen] at hopen'
    cases hopen'
    exact hshed.oldestFirst hmem hpairwise hages
  · have hall : ∀ limit, ∃ kept, Sheds seen kept order (overcountAt config.directory made) limit ∧
        OldestFirst seen kept := by
      intro limit
      obtain ⟨cache, later, hopen, hshed⟩ := hsheds limit
      exact ⟨cache.meta?, hshed, holdest limit cache later hopen⟩
    exact agesAlike_of_oldestFirst hmem hpairwise hnodup hpos hall

/-! ## A file that the index does not know -/

/-- A fingerprint of one byte over and over. -/
def uniform (byte : UInt8) : Fingerprint := ⟨List.replicate 32 byte, rfl⟩

/-- An index with one entry. -/
def indexOfOne (entry : EntryMeta) : Index := [((uniform 0xAA).toHex, entry)]

theorem read_indexOfOne {entry : EntryMeta} (h : entry.IsWritable) :
    Index.read (Bytes.ofText (indexOfOne entry).render) = indexOfOne entry := by
  have hwritable : (indexOfOne entry).IsWritable := by
    intro pair hpair
    rw [List.mem_singleton.mp hpair]
    exact ⟨isPlain_toHex _, h⟩
  exact List.perm_singleton.mp (read_render (List.nodup_singleton _) hwritable)

/-- What an index says of an old entry. -/
def indexedEntry : EntryMeta :=
  { size := 4, lastAccess := ⟨978307200, 0⟩, sequence := 1, hits := 0 }

/-- What is known of a file that was written later and is not in the index. -/
def laterEntry : EntryMeta :=
  { size := 4, lastAccess := ⟨1600000000, 0⟩, sequence := 0, hits := 0 }

/-- A directory with that index and both files. -/
def agedDirectory : FileSystem :=
  { FileSystem.empty with nodes := [([Bytes.ofText "c"], .directory),
      ([Bytes.ofText "c", nameOf (uniform 0xAA)], .file [1, 2, 3, 4] ⟨978307200, 0⟩),
      ([Bytes.ofText "c", nameOf (uniform 0xBB)], .file [1, 2, 3, 4] ⟨1600000000, 0⟩),
      ([Bytes.ofText "c", indexFile],
        .file (Bytes.ofText (indexOfOne indexedEntry).render) ⟨978307200, 0⟩)] }

theorem makeDirectories_agedDirectory :
    agedDirectory.makeDirectories (.ofString "/c") = (.ok (), agedDirectory) := by
  rfl

theorem list_agedDirectory : agedDirectory.list (.ofString "/c") =
    .ok [nameOf (uniform 0xAA), nameOf (uniform 0xBB), indexFile] := by
  generalize hc : Bytes.ofText (indexOfOne indexedEntry).render = content
  rw [agedDirectory, hc]
  cbv

theorem sightings_agedDirectory : sightings (.ofString "/c")
    [nameOf (uniform 0xAA), nameOf (uniform 0xBB), indexFile] agedDirectory =
      [(uniform 0xAA, ⟨4, ⟨978307200, 0⟩⟩), (uniform 0xBB, ⟨4, ⟨1600000000, 0⟩⟩)] := by
  generalize hc : Bytes.ofText (indexOfOne indexedEntry).render = content
  rw [agedDirectory, hc]
  cbv

theorem indexAt_agedDirectory : indexAt (.ofString "/c") agedDirectory = indexOfOne indexedEntry := by
  have hread : agedDirectory.read ((Path.ofString "/c").join (.ofString indexName)) =
      .ok (Bytes.ofText (indexOfOne indexedEntry).render) := by
    rfl
  rw [indexAt, hread]
  exact read_indexOfOne ⟨by decide, by decide, by decide, by decide⟩

/-- The entry that was written later has number zero. -/
theorem seenAt_agedDirectory (fingerprint : Fingerprint) :
    seenAt (.ofString "/c") agedDirectory fingerprint =
      if fingerprint = uniform 0xBB then some laterEntry
      else if fingerprint = uniform 0xAA then some indexedEntry else none := by
  rw [seenAt, list_agedDirectory]
  have hrebuilt : rebuilt (indexOfOne indexedEntry)
      [(uniform 0xBB, ⟨4, ⟨1600000000, 0⟩⟩), (uniform 0xAA, ⟨4, ⟨978307200, 0⟩⟩)] =
        [(uniform 0xBB, laterEntry), (uniform 0xAA, indexedEntry)] := by
    decide +kernel
  simp only [sightings_agedDirectory, indexAt_agedDirectory, List.reverse_cons, List.reverse_nil,
    List.nil_append, List.singleton_append, hrebuilt, List.lookup_cons, List.lookup_nil]
  by_cases hlater : fingerprint = uniform 0xBB
  · simp [hlater]
  · by_cases hindexed : fingerprint = uniform 0xAA
    · have hne : (uniform 0xAA == uniform 0xBB) = false := by decide
      simp [hindexed, hne]
      decide
    · simp [hlater, hindexed, beq_eq_false_iff_ne.mpr hlater, beq_eq_false_iff_ne.mpr hindexed]

theorem overcountAt_agedDirectory :
    overcountAt (.ofString "/c") agedDirectory = 0 := by
  refine overcountAt_eq_zero fun names hl => ?_
  rw [list_agedDirectory] at hl
  cases hl
  decide +kernel

theorem seenAt_later :
    seenAt (.ofString "/c") agedDirectory (uniform 0xBB) = some laterEntry := by
  rw [seenAt_agedDirectory, if_pos rfl]

theorem seenAt_indexed :
    seenAt (.ofString "/c") agedDirectory (uniform 0xAA) = some indexedEntry := by
  rw [seenAt_agedDirectory, if_neg (by decide), if_pos rfl]

theorem isIn_agedDirectory (fingerprint : Fingerprint) :
    (seenAt (.ofString "/c") agedDirectory fingerprint).isSome = true ↔
      fingerprint ∈ [uniform 0xBB, uniform 0xAA] := by
  rw [seenAt_agedDirectory, List.mem_cons, List.mem_singleton]
  split
  · simp_all
  · split <;> simp_all

/-- The entry that was written later comes up first. -/
theorem order_agedDirectory {order : List Fingerprint} (hn : order.Nodup)
    (hs : ∀ fingerprint, fingerprint ∈ order ↔
      (seenAt (.ofString "/c") agedDirectory fingerprint).isSome = true)
    (hp : order.Pairwise (InOrder (seenAt (.ofString "/c") agedDirectory))) :
    order = [uniform 0xBB, uniform 0xAA] := by
  have hnot : ¬ InOrder (seenAt (.ofString "/c") agedDirectory) (uniform 0xAA) (uniform 0xBB) :=
    fun hinOrder => hinOrder _ _ seenAt_indexed seenAt_later (by decide)
  have hperm : order.Perm [uniform 0xBB, uniform 0xAA] :=
    (List.perm_ext_iff_of_nodup hn (by decide)).mpr fun fingerprint =>
      (hs fingerprint).trans (isIn_agedDirectory fingerprint)
  rcases List.perm_pair.mp hperm with horder | horder
  · exact horder
  · rw [horder] at hp
    exact absurd ((List.pairwise_cons.mp hp).1 _ List.mem_cons_self) hnot

theorem openAt_agedDirectory :
    ∃ opened after, openAt (limitedConfig 4) agedDirectory = (.ok opened, after) :=
  openAt_eq_ok makeDirectories_agedDirectory list_agedDirectory

/-- With room for one entry only, the one that was written later goes. -/
theorem not_evictsOldestFirst : ¬ EvictsOldestFirst (limitedConfig 4) agedDirectory := by
  intro holdest
  obtain ⟨opened, after, hopen⟩ := openAt_agedDirectory
  have hmade : (agedDirectory.makeDirectories (limitedConfig 4).directory).2 = agedDirectory :=
    congrArg Prod.snd makeDirectories_agedDirectory
  obtain ⟨order, hnodup, hmem, hpairwise, hsheds⟩ := openAt_sheds hopen
  obtain ⟨cache, later, hopen', hshed⟩ := hsheds 4
  have hfirst := holdest cache later hopen'
  rw [hmade] at hmem hpairwise hshed hfirst
  obtain rfl := order_agedDirectory hnodup hmem hpairwise
  have hcut : 4 = overcountAt (.ofString "/c") agedDirectory +
      ([uniform 0xAA].map (sizeIn (seenAt (.ofString "/c") agedDirectory))).sum := by
    simp [overcountAt_agedDirectory, sizeIn, seenAt_indexed, indexedEntry]
  have hsize : ∀ fingerprint ∈ [uniform 0xBB],
      0 < sizeIn (seenAt (.ofString "/c") agedDirectory) fingerprint := by
    simp [sizeIn, seenAt_later, laterEntry]
  obtain ⟨hgone, hleft⟩ :=
    @Sheds.eq_none_of_before _ _ _ _ [uniform 0xBB] [] _ hshed hcut hsize hnodup
  refine hfirst (uniform 0xBB) (uniform 0xAA) _ _ seenAt_later (hgone _ (List.mem_singleton_self _))
    seenAt_indexed ?_ (by decide)
  exact hleft.trans_ne (seenAt_indexed.trans_ne (Option.some_ne_none _))

/-- The entry that was written later goes first with every limit, though times do not go along
with numbers. -/
theorem openAt_evicts_by_number_agedDirectory :
    (∃ opened after, openAt (limitedConfig 4) agedDirectory = (.ok opened, after)) ∧
      (∀ limit, ∃ cache later, openAt (limitedConfig limit) agedDirectory = (.ok cache, later) ∧
        Sheds (seenAt (.ofString "/c") agedDirectory) cache.meta? [uniform 0xBB, uniform 0xAA] 0
          limit) ∧
      ¬ ∀ limit, EvictsOldestFirst (limitedConfig limit) agedDirectory := by
  obtain ⟨opened, after, hopen⟩ := openAt_agedDirectory
  obtain ⟨⟨order, hnodup, hmem, hpairwise, hsheds⟩, -, honly⟩ := openAt_evicts_by_number hopen
  have hmade : (agedDirectory.makeDirectories (limitedConfig 4).directory).2 = agedDirectory :=
    congrArg Prod.snd makeDirectories_agedDirectory
  rw [hmade] at hmem hpairwise hsheds honly
  obtain rfl := order_agedDirectory hnodup hmem hpairwise
  rw [show overcountAt (limitedConfig 4).directory agedDirectory = 0 from
    overcountAt_agedDirectory] at hsheds
  refine ⟨⟨opened, after, hopen⟩, hsheds, fun holdest => ?_⟩
  have hpositive : ∀ fingerprint entry,
      seenAt (.ofString "/c") agedDirectory fingerprint = some entry → 0 < entry.size := by
    intro fingerprint entry hseen
    rw [seenAt_agedDirectory] at hseen
    split at hseen
    · cases hseen
      decide
    · split at hseen
      · cases hseen
        decide
      · cases hseen
  exact honly hpositive holdest (uniform 0xBB) (uniform 0xAA) _ _ seenAt_later seenAt_indexed
    (by decide) (by decide)

end ScriptModules.Cache
