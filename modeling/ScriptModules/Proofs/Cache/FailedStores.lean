import ScriptModules.Proofs.Cache.Naming
import ScriptModules.Proofs.Cache.Retention
import ScriptModules.Proofs.Files.Replacing

/-!
# What failures leave

A store may be too large for the limit, or its file may not get to its place: the directory does
not admit it, or the disk fails on the way (`storeThrough`).  Nothing has come of it then but one
more error in the counters, and none if it was too large.  This goes for entries, clock and files
alike, so an entry that was stored before under the same fingerprint is still there.

A compiler that fails leaves what its lookup left, and a lookup that found nothing (`Missed`) has
forgotten the entry at most, and removed a file that is no good.
-/

namespace ScriptModules.Cache

open FileSystem (DiskFault)

variable {cache : Cache} {fs : FileSystem} {fingerprint : Fingerprint} {engine : String}
  {bytecode : Bytes}

/-! ## Stores -/

/-- Stores bytecode as `store` does, on a disk with a fault or without one, with a look at the
temporary file that the file of the entry is written through. -/
def storeThrough (cache : Cache) (fs : FileSystem) (fault : Option DiskFault) (temporary : Name)
    (fingerprint : Fingerprint) (engine : String) (bytecode : Bytes) : Cache × FileSystem :=
  let file := Entry.encode sha256 fingerprint engine bytecode
  if cache.sizeLimit < file.length then (cache, fs)
  else match fs.replaceThrough fault temporary cache.directory (cache.entryPath fingerprint) file with
    | (.error _, fs) => ({ cache with counters.errors := cache.counters.errors + 1 }, fs)
    | (.ok (), fs) =>
      let (cache, fs) := cache.noteStored fs fingerprint file.length
      cache.enforceLimit fs

theorem storeThrough_of_lt {fault : Option DiskFault} {temporary : Name}
    (h : cache.sizeLimit < (Entry.encode sha256 fingerprint engine bytecode).length) :
    cache.storeThrough fs fault temporary fingerprint engine bytecode = (cache, fs) := by
  simp only [storeThrough, if_pos h]

/-- A store whose file does not get to its place counts an error. -/
theorem storeThrough_of_failed {fault : Option DiskFault} {temporary : Name}
    (hf : (Entry.encode sha256 fingerprint engine bytecode).length ≤ cache.sizeLimit)
    (h : ∀ written, fs.replaceThrough fault temporary cache.directory (cache.entryPath fingerprint)
      (Entry.encode sha256 fingerprint engine bytecode) ≠ (.ok (), written)) :
    ∃ clock, cache.storeThrough fs fault temporary fingerprint engine bytecode =
      ({ cache with counters.errors := cache.counters.errors + 1 }, { fs with clock }) := by
  cases hreplace : fs.replaceThrough fault temporary cache.directory (cache.entryPath fingerprint)
    (Entry.encode sha256 fingerprint engine bytecode) with
  | mk result after =>
      cases result with
      | ok => exact absurd hreplace (h after)
      | error e =>
          obtain ⟨clock, hafter⟩ := FileSystem.replaceThrough_error (congrArg Prod.fst hreplace)
          rw [hreplace] at hafter
          obtain rfl : after = { fs with clock } := hafter
          exact ⟨clock, by simp only [storeThrough, if_neg (Nat.not_lt_of_le hf), hreplace]⟩

/-- A store whose file gets to its place is the store in one step. -/
theorem storeThrough_of_replaceFile {temporary : Name} {written : FileSystem}
    (hfree : fs.IsFree cache.directory temporary)
    (h : fs.replaceFile cache.directory (cache.entryPath fingerprint)
      (Entry.encode sha256 fingerprint engine bytecode) = .ok written) :
    cache.storeThrough fs none temporary fingerprint engine bytecode =
      cache.store fs fingerprint engine bytecode := by
  have hreplace := (FileSystem.replaceThrough_eq_ok_iff (isPiece_entryName fingerprint)).mpr
    ⟨rfl, hfree, h⟩
  simp only [storeThrough, store, h]
  split
  · rfl
  · rw [entryPath, Path.ofString, hreplace]

/-! ## Lookups that find nothing -/

/-- Counts a lookup that found nothing, with errors on the way. -/
def countMiss (cache : Cache) (errors : Nat) : Cache :=
  { cache with
    counters.misses := cache.counters.misses + 1
    counters.errors := cache.counters.errors + errors }

/-- How a lookup found nothing, and what it left. -/
inductive Missed (cache : Cache) (fs : FileSystem) (fingerprint : Fingerprint) (engine : String) :
    Cache → FileSystem → Prop where
  /-- There is no file, and no entry is known. -/
  | absent (file : fs.read (cache.entryPath fingerprint) = .error .notFound)
      (entry : cache.meta? fingerprint = none) :
      Missed cache fs fingerprint engine (cache.countMiss 0) fs
  /-- The file of an entry is gone. -/
  | vanished {entry : EntryMeta} (file : fs.read (cache.entryPath fingerprint) = .error .notFound)
      (known : cache.meta? fingerprint = some entry) :
      Missed cache fs fingerprint engine ((cache.forget fingerprint).countMiss 0) fs
  /-- The file is not one of the entry, and it is removed. -/
  | corrupt {content : Bytes} {fault : EntryFault} {after : FileSystem}
      (file : fs.read (cache.entryPath fingerprint) = .ok content)
      (entry : Entry.decode sha256 fingerprint engine content = .error fault)
      (removed : fs.removeFile (cache.entryPath fingerprint) = .ok after) :
      Missed cache fs fingerprint engine ((cache.forget fingerprint).countMiss 1) after
  /-- What stands there cannot be read, and it is removed if that can be done. -/
  | unreadable {cause : IoError} (file : fs.read (cache.entryPath fingerprint) = .error cause)
      (other : cause ≠ .notFound) :
      Missed cache fs fingerprint engine ((cache.forget fingerprint).countMiss 1)
        ((fs.removeFile (cache.entryPath fingerprint)).toOption.getD fs)

theorem files_remove (cache : Cache) (fs : FileSystem) (fingerprint : Fingerprint) :
    (cache.remove fs fingerprint).2.2 =
      (fs.removeFile (cache.entryPath fingerprint)).toOption.getD fs := by
  unfold remove
  cases hremove : fs.removeFile (cache.entryPath fingerprint) <;> rfl

/-- There is no other way. -/
theorem missed_of_lookup (h : (cache.lookup fs fingerprint engine).1 = none) :
    Missed cache fs fingerprint engine (cache.lookup fs fingerprint engine).2.1
      (cache.lookup fs fingerprint engine).2.2 := by
  cases hfile : fs.read (cache.entryPath fingerprint) with
  | error cause =>
      by_cases hcause : cause = .notFound
      · subst hcause
        simp only [lookup, readFile, hfile]
        cases hentry : cache.meta? fingerprint with
        | none =>
            have hsame : cache.forget fingerprint = cache := by simp only [forget, hentry]
            rw [hsame]
            exact .absent hfile hentry
        | some entry => exact .vanished hfile hentry
      · have hreading : cache.readFile fs fingerprint engine = .unusable := by
          unfold readFile
          rw [hfile]
          split <;> simp_all
        simp only [lookup, hreading, remove_cache, files_remove]
        exact .unreadable hfile hcause
  | ok content =>
      cases hentry : Entry.decode sha256 fingerprint engine content with
      | ok payload =>
          simp only [lookup, readFile, hfile, hentry] at h
          cases h
      | error fault =>
          obtain ⟨after, hremoved⟩ :=
            FileSystem.removeFile_of_read cache.directory (isPiece_entryName fingerprint) hfile
          have hafter : (fs.removeFile (cache.entryPath fingerprint)).toOption.getD fs = after :=
            congrArg (fun result => (Except.toOption result).getD fs) hremoved
          simp only [lookup, readFile, hfile, hentry, remove_cache, files_remove, hafter]
          exact .corrupt hfile hentry hremoved

/-! ## Failures -/

/-- What stores that come to nothing leave, and compilers that fail. -/
structure FailuresLeave (cache : Cache) (fs : FileSystem) : Prop where
  /-- A store that is too large leaves everything. -/
  skipped : ∀ fingerprint engine bytecode,
    cache.sizeLimit < (Entry.encode sha256 fingerprint engine bytecode).length →
    cache.store fs fingerprint engine bytecode = (cache, fs) ∧
      ∀ fault temporary,
        cache.storeThrough fs fault temporary fingerprint engine bytecode = (cache, fs)
  /-- A store whose file is not admitted leaves everything but the number of errors. -/
  refused : ∀ fingerprint engine bytecode cause,
    (Entry.encode sha256 fingerprint engine bytecode).length ≤ cache.sizeLimit →
    fs.replaceFile cache.directory (cache.entryPath fingerprint)
      (Entry.encode sha256 fingerprint engine bytecode) = .error cause →
    cache.store fs fingerprint engine bytecode =
      ({ cache with counters.errors := cache.counters.errors + 1 }, fs)
  /-- So does one with a look at the temporary file, where the disk may fail as well.  Only time
  may have passed. -/
  failed : ∀ fault temporary fingerprint engine bytecode,
    (Entry.encode sha256 fingerprint engine bytecode).length ≤ cache.sizeLimit →
    fault ≠ none ∨ (∃ cause, fs.replaceFile cache.directory (cache.entryPath fingerprint)
      (Entry.encode sha256 fingerprint engine bytecode) = .error cause) →
    ∃ clock, cache.storeThrough fs fault temporary fingerprint engine bytecode =
      ({ cache with counters.errors := cache.counters.errors + 1 }, { fs with clock })
  /-- All others are stores in one step, if the temporary name is free. -/
  stored : ∀ temporary fingerprint engine bytecode written,
    fs.IsFree cache.directory temporary →
    fs.replaceFile cache.directory (cache.entryPath fingerprint)
      (Entry.encode sha256 fingerprint engine bytecode) = .ok written →
    cache.storeThrough fs none temporary fingerprint engine bytecode =
      cache.store fs fingerprint engine bytecode
  /-- A compiler that fails leaves what the lookup left. -/
  compiled : ∀ source engine options compile e, compile source options = .error e →
    (cache.getOrCompile fs source engine options compile).2 =
      (cache.lookup fs (cache.fingerprintOf source engine options) engine).2
  /-- That a lookup found nothing is told, and it left what it could not help. -/
  missed : ∀ source engine options compile e, compile source options = .error e →
    (cache.lookup fs (cache.fingerprintOf source engine options) engine).1 = none →
    (cache.getOrCompile fs source engine options compile).1 = .error e ∧
      Missed cache fs (cache.fingerprintOf source engine options) engine
        (cache.getOrCompile fs source engine options compile).2.1
        (cache.getOrCompile fs source engine options compile).2.2

theorem getOrCompile_of_error {source : Bytes} {options : CompileOptions} {e : CompileError}
    {compile : Bytes → CompileOptions → Except CompileError Bytes}
    (h : compile source options = .error e) :
    (cache.getOrCompile fs source engine options compile).2 =
        (cache.lookup fs (cache.fingerprintOf source engine options) engine).2 ∧
      ((cache.lookup fs (cache.fingerprintOf source engine options) engine).1 = none →
        (cache.getOrCompile fs source engine options compile).1 = .error e) := by
  unfold getOrCompile
  dsimp only
  split
  · rename_i payload found files heq
    rw [heq]
    exact ⟨rfl, fun hnever => by cases hnever⟩
  · rename_i missed files heq
    rw [heq, h]
    exact ⟨rfl, fun _ => rfl⟩

/-- Failures leave everything as it was, but for an error that is counted and for what a lookup
does. -/
theorem failures_leave (cache : Cache) (fs : FileSystem) : FailuresLeave cache fs where
  skipped fingerprint engine bytecode h :=
    ⟨by simp only [store, if_pos h], fun _ _ => storeThrough_of_lt h⟩
  refused fingerprint engine bytecode cause hfits hrefused := by
    simp only [store, if_neg (Nat.not_lt_of_le hfits), hrefused]
  failed fault temporary fingerprint engine bytecode hfits hfails := by
    refine storeThrough_of_failed hfits fun written hreplace => ?_
    obtain ⟨hnone, -, hwritten⟩ :=
      (FileSystem.replaceThrough_eq_ok_iff (isPiece_entryName fingerprint)).mp hreplace
    rcases hfails with hfault | ⟨cause, hrefused⟩
    · exact hfault hnone
    · cases hwritten.symm.trans hrefused
  stored _ _ _ _ _ hfree hwritten := storeThrough_of_replaceFile hfree hwritten
  compiled _ _ _ _ _ h := (getOrCompile_of_error h).1
  missed _ _ _ _ _ h hnone := by
    obtain ⟨hsame, herror⟩ := getOrCompile_of_error h
    rw [hsame]
    exact ⟨herror hnone, missed_of_lookup hnone⟩

/-- On a disk that is full after ten bytes, the entry that was stored before stays; and a compiler
that always fails does nothing to it either. -/
theorem failures_leave_fullDisk :
    let stored := (limitedCache 100).perform emptyDirectory storingOne
    let compile := fun _ _ => Except.error { message := "unexpected end" }
    stored.1.contains (uniform 0xAA) = true ∧
      (∃ clock, stored.1.storeThrough stored.2 (some (.writing 10)) (Bytes.ofText ".tmp1")
          (uniform 0xAA) "1" [0x62] =
        ({ stored.1 with counters.errors := 1 }, { stored.2 with clock })) ∧
      (stored.1.getOrCompile stored.2 [0x62] "1" {} compile).2 =
        (stored.1.lookup stored.2 (stored.1.fingerprintOf [0x62] "1" {}) "1").2 := by
  intro stored compile
  have hstored : stored = (limitedCache 100).noteStored
      (oneFile (Entry.encode sha256 (uniform 0xAA) "1" [0x61])) (uniform 0xAA) 82 :=
    perform_storingOne
  have hfits : (Entry.encode sha256 (uniform 0xAA) "1" [0x62]).length ≤ stored.1.sizeLimit := by
    rw [length_encode_one, hstored]
    decide
  have herrors : stored.1.counters.errors = 0 := by
    rw [hstored]
    rfl
  have hleave := failures_leave stored.1 stored.2
  obtain ⟨clock, hfailed⟩ := hleave.failed (some (.writing 10)) (Bytes.ofText ".tmp1")
    (uniform 0xAA) "1" [0x62] hfits (Or.inl (Option.some_ne_none _))
  rw [herrors] at hfailed
  refine ⟨?_, ⟨clock, hfailed⟩, hleave.compiled [0x62] "1" {} compile _ rfl⟩
  rw [hstored]
  decide

end ScriptModules.Cache
