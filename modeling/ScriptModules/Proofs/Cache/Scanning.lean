import Mathlib
import ScriptModules.Proofs.Cache.Keeping

/-!
# What opening a cache finds

A cache that is opened where only caches like it have written finds entry files and maybe an
index.  So what it comes to know can be said in one line (`Cache.holding`): an entry for each
file, with what the index says of it if the index knows the file by its size.
-/

namespace ScriptModules.Cache

open FileSystem (Files Shelf)

variable {directory : Path} {place : Location} {cache : Cache} {fs : FileSystem} {files : Files}

/-! ## Files and index -/

/-- All files are ones that a cache writes. -/
def OnlyKept (files : Files) : Prop :=
  ∀ name, files name ≠ none → name = indexFile ∨ ∃ fingerprint, name = nameOf fingerprint

/-- The index among some files; an empty one if it is missing. -/
def indexOf (files : Files) : Index :=
  match files indexFile with
  | some (content, _) => Index.read content
  | none => []

/-- The length of the file of an entry. -/
def lengthOf (files : Files) (fingerprint : Fingerprint) : Nat :=
  ((files (nameOf fingerprint)).map (·.1.length)).getD 0

/-- Whether an index knows the file of an entry by its size. -/
def knows (index : Index) (files : Files) (fingerprint : Fingerprint) : Bool :=
  (index.lookup fingerprint.toHex).any (·.size == lengthOf files fingerprint)

/-- What is noted of an entry whose file is there. -/
def notedOf (index : Index) (files : Files) (fingerprint : Fingerprint) : EntryMeta :=
  ((index.lookup fingerprint.toHex).filter (·.size == lengthOf files fingerprint)).getD
    { size := lengthOf files fingerprint
      lastAccess := ((files (nameOf fingerprint)).map (·.2)).getD default
      sequence := 0
      hits := 0 }

theorem size_notedOf (index : Index) (files : Files) (fingerprint : Fingerprint) :
    (notedOf index files fingerprint).size = lengthOf files fingerprint :=
  size_getD_filter _ rfl

/-- The index has it right where it knows the file. -/
theorem notedOf_of_lookup {index : Index} {fingerprint : Fingerprint} {entry : EntryMeta}
    (h : index.lookup fingerprint.toHex = some entry)
    (hs : entry.size = lengthOf files fingerprint) :
    knows index files fingerprint = true ∧ notedOf index files fingerprint = entry := by
  simp [knows, notedOf, h, hs, Option.filter]

/-! ## Taking in files -/

/-- A cache that has taken in the files of some fingerprints. -/
def holding (cache : Cache) (index : Index) (files : Files) (fingerprints : List Fingerprint) :
    Cache :=
  { cache with
    entries := fingerprints.map fun fingerprint => (fingerprint, notedOf index files fingerprint)
    currentSize := (fingerprints.map (lengthOf files)).sum
    clock := fingerprints.foldl
      (fun clock fingerprint => max clock (notedOf index files fingerprint).sequence) 0
    dirty := !fingerprints.all (knows index files) }

theorem toHex_inj {fingerprint other : Fingerprint} (h : fingerprint.toHex = other.toHex) :
    fingerprint = other := by
  have hback := Digest.ofHex?_toHex fingerprint
  rw [h, Digest.ofHex?_toHex] at hback
  exact (Option.some.inj hback).symm

/-- The entry of one file more is taken in. -/
theorem scanName_holding (hs : Shelf directory place files fs) (hd : cache.directory = directory)
    (index : Index) {fingerprints : List Fingerprint} {fingerprint : Fingerprint}
    (hf : files (nameOf fingerprint) ≠ none) (hnew : fingerprint ∉ fingerprints) :
    scanName index
        { cache := cache.holding index files fingerprints
          fs
          found := (fingerprints.map Digest.toHex).reverse } (nameOf fingerprint) =
      { cache := cache.holding index files (fingerprints ++ [fingerprint])
        fs
        found := ((fingerprints ++ [fingerprint]).map Digest.toHex).reverse } := by
  obtain ⟨⟨content, time⟩, hfile⟩ := Option.ne_none_iff_exists'.mp hf
  have htemporary := not_isTemporary (Or.inr ⟨fingerprint, rfl⟩)
  have hstatus := hs.status hfile
  have hfound : (fingerprints.map Digest.toHex).reverse.contains fingerprint.toHex = false := by
    rw [← Bool.not_eq_true, List.contains_iff_mem, List.mem_reverse, List.mem_map]
    rintro ⟨other, hother, heq⟩
    exact hnew (toHex_inj heq ▸ hother)
  have hlength : lengthOf files fingerprint = content.length := by simp [lengthOf, hfile]
  have hothers : (fingerprints.map fun other => (other, notedOf index files other)).filter
      (·.1 ≠ fingerprint) = fingerprints.map fun other => (other, notedOf index files other) := by
    rw [List.filter_eq_self]
    intro pair hpair
    obtain ⟨other, hother, rfl⟩ := List.mem_map.mp hpair
    simpa using fun heq : other = fingerprint => hnew (heq ▸ hother)
  have hnoted : notedOf index files fingerprint =
      ((index.lookup fingerprint.toHex).filter (·.size == content.length)).getD
        { size := content.length, lastAccess := time, sequence := 0, hits := 0 } := by
    simp [notedOf, hlength, hfile]
  have hknows : knows index files fingerprint =
      (index.lookup fingerprint.toHex).any (·.size == content.length) := by
    rw [knows, hlength]
  have hpath : (cache.holding index files fingerprints).directory.join ⟨nameOf fingerprint⟩ =
      directory.join ⟨nameOf fingerprint⟩ := by
    rw [← hd]
    rfl
  simp only [scanName, if_neg htemporary, fingerprintOfName?_entryName, hpath, hstatus, hfound,
    Bool.false_eq_true, if_false, ← hnoted, ← hknows]
  simp only [holding, note, hothers, List.map_append, List.map_cons, List.map_nil,
    List.reverse_append, List.reverse_cons, List.reverse_nil, List.nil_append,
    List.singleton_append, List.sum_append, List.sum_cons, List.sum_nil, Nat.add_zero, hlength,
    List.foldl_append, List.foldl_cons, List.foldl_nil, List.all_append, List.all_cons,
    List.all_nil, Bool.and_true, Bool.not_and]

/-- A scan takes in the files by their names.  The induction is on the names that were taken
in before. -/
theorem foldl_scanName (hs : Shelf directory place files fs) (hd : cache.directory = directory)
    (index : Index) {names : List Name} (hn : names.Nodup)
    (hk : ∀ name ∈ names, name = indexFile ∨
      ∃ fingerprint, name = nameOf fingerprint ∧ files name ≠ none) :
    names.foldl (scanName index)
        { cache := cache.holding index files [], fs, found := [] } =
      { cache := cache.holding index files (names.filterMap fingerprintOfName?)
        fs
        found := ((names.filterMap fingerprintOfName?).map Digest.toHex).reverse } := by
  induction names using List.reverseRecOn with
  | nil => rfl
  | append_singleton names name ih =>
      rw [List.nodup_append] at hn
      obtain ⟨hbefore, -, hapart⟩ := hn
      rw [List.foldl_append, ih hbefore fun other hmem => hk other (List.mem_append_left _ hmem),
        List.foldl_cons, List.foldl_nil, List.filterMap_append]
      rcases hk name (List.mem_append_right _ (List.mem_singleton_self name)) with
        rfl | ⟨fingerprint, rfl, hfile⟩
      · have htemporary := not_isTemporary (Or.inl (rfl : indexFile = indexFile))
        simp only [scanName, if_neg htemporary, fingerprintOfName?_indexFile,
          List.filterMap_cons_none fingerprintOfName?_indexFile, List.filterMap_nil,
          List.append_nil]
      · have hnew : fingerprint ∉ names.filterMap fingerprintOfName? := by
          intro hmem
          obtain ⟨other, hother, hnamed⟩ := List.mem_filterMap.mp hmem
          rcases hk other (List.mem_append_left _ hother) with rfl | ⟨second, rfl, -⟩
          · rw [fingerprintOfName?_indexFile] at hnamed
            cases hnamed
          · rw [fingerprintOfName?_entryName] at hnamed
            cases hnamed
            exact hapart _ hother _ (List.mem_singleton_self _) rfl
        rw [scanName_holding hs hd index hfile hnew,
          List.filterMap_cons_some (fingerprintOfName?_entryName fingerprint), List.filterMap_nil]

/-! ## Scanning -/

/-- The index that is read is the one among the files. -/
theorem indexAt_eq (hs : Shelf directory place files fs) :
    indexAt directory fs = indexOf files := by
  unfold indexAt
  cases hread : fs.read (directory.join (.ofString indexName)) with
  | ok content =>
      obtain ⟨time, hfile⟩ := hs.of_read isPiece_indexFile hread
      simp only [indexOf, hfile]
  | error e =>
      cases hfile : files indexFile with
      | none => simp only [indexOf, hfile]
      | some file => exact absurd ((hs.read hfile).symm.trans hread) (by simp)

/-- A cache after it has scanned a directory where only the files of some fingerprints are. -/
def afterScan (cache : Cache) (index : Index) (files : Files) (fingerprints : List Fingerprint) :
    Cache :=
  { cache.holding index files fingerprints with
    dirty := (!fingerprints.all (knows index files)) ||
      index.holdsBesides (fingerprints.map Digest.toHex).reverse }

/-- A scan finds every file there is, and leaves the files as they are. -/
theorem scan_eq (hs : Shelf directory place files fs) (hk : OnlyKept files)
    (hd : cache.directory = directory)
    (hf : cache = cache.holding (indexOf files) files []) :
    ∃ fingerprints : List Fingerprint, fingerprints.Nodup ∧
      (∀ fingerprint, fingerprint ∈ fingerprints ↔ files (nameOf fingerprint) ≠ none) ∧
      cache.scan fs = .ok (cache.afterScan (indexOf files) files fingerprints, fs) := by
  obtain ⟨names, hlist, hnodup, hmem⟩ := hs.list
  have hnames : ∀ name ∈ names, name = indexFile ∨
      ∃ fingerprint, name = nameOf fingerprint ∧ files name ≠ none := by
    intro name hname
    have hfile := (hmem name).mp hname
    exact (hk name hfile).imp_right fun ⟨fingerprint, heq⟩ => ⟨fingerprint, heq, hfile⟩
  refine ⟨names.filterMap fingerprintOfName?, ?_, fun fingerprint => ?_, ?_⟩
  · refine List.pairwise_filterMap.mpr (hnodup.imp_of_mem ?_)
    intro name other hname hother hne fingerprint hfirst second hsecond heq
    subst heq
    rcases hnames name hname with rfl | ⟨named, rfl, -⟩
    · rw [fingerprintOfName?_indexFile] at hfirst
      cases hfirst
    · rcases hnames other hother with rfl | ⟨named', rfl, -⟩
      · rw [fingerprintOfName?_indexFile] at hsecond
        cases hsecond
      · rw [fingerprintOfName?_entryName] at hfirst hsecond
        cases hfirst
        cases hsecond
        exact hne rfl
  · rw [List.mem_filterMap]
    constructor
    · rintro ⟨name, hname, hnamed⟩
      rcases hnames name hname with rfl | ⟨named, rfl, hfile⟩
      · rw [fingerprintOfName?_indexFile] at hnamed
        cases hnamed
      · rw [fingerprintOfName?_entryName] at hnamed
        cases hnamed
        exact hfile
    · exact fun hfile => ⟨nameOf fingerprint, (hmem _).mpr hfile, fingerprintOfName?_entryName _⟩
  · have hlist' : fs.list cache.directory = .ok names := hd ▸ hlist
    have hfold := foldl_scanName hs hd (indexOf files) hnodup hnames
    rw [← hf] at hfold
    rw [scan_of_list hlist', hd, indexAt_eq hs, hfold]
    rfl

/-! ## Opening -/

theorem fresh_eq_holding (config : CacheConfig) (made : FileSystem) (index : Index)
    (files : Files) : fresh config made = (fresh config made).holding index files [] :=
  rfl

/-- A cache that is opened knows every file there is, and evicts what is too much. -/
theorem openAt_eq (hs : Shelf directory place files fs) (hk : OnlyKept files)
    {config : CacheConfig} (hd : config.directory = directory) :
    ∃ fingerprints : List Fingerprint, fingerprints.Nodup ∧
      (∀ fingerprint, fingerprint ∈ fingerprints ↔ files (nameOf fingerprint) ≠ none) ∧
      openAt config fs =
        (.ok (((fresh config fs).afterScan (indexOf files) files fingerprints).enforceLimit fs).1,
          (((fresh config fs).afterScan (indexOf files) files fingerprints).enforceLimit fs).2) := by
  obtain ⟨fingerprints, hnodup, hmem, hscan⟩ :=
    @scan_eq directory place (fresh config fs) fs files hs hk hd (fresh_eq_holding config fs _ _)
  have hthere : fs.isDirectory config.directory = true := by
    rw [FileSystem.isDirectory, hd, hs.found]
  have hmake := FileSystem.makeDirectories_of_isDirectory hthere
  exact ⟨fingerprints, hnodup, hmem, openAt_of_scan hmake hscan⟩

end ScriptModules.Cache
