import ScriptModules.Proofs.Cache.EntryFile
import ScriptModules.Proofs.Cache.World
import ScriptModules.Proofs.Files.Reading

/-!
# What a cache writes

A cache deletes files, and it writes entries and its index.  So whatever can be read
after it has acted could be read before by the same path, or is one of these.
-/

namespace ScriptModules.Cache

open FileSystem (Adds)

variable {cache : Cache} {fs after : FileSystem} {written : Bytes → Prop}

/-! ## Deleting -/

theorem adds_remove (cache : Cache) (fs : FileSystem) (fingerprint : Fingerprint) :
    Adds written fs (cache.remove fs fingerprint).2.2 := by
  unfold remove
  split
  · rename_i hremove
    exact FileSystem.adds_removeFile hremove
  · exact Adds.refl

theorem adds_evict (rounds : Nat) (cache : Cache) (fs : FileSystem) :
    Adds written fs (evict rounds cache fs).2 :=
  evict_induct (motive := fun _ files => Adds written fs files)
    (fun next files victim _ h => h.trans (adds_remove next files victim)) rounds Adds.refl

theorem adds_enforceLimit (cache : Cache) (fs : FileSystem) :
    Adds written fs (cache.enforceLimit fs).2 :=
  adds_evict cache.size cache fs

theorem adds_clearNames (cache : Cache) (names : List Name) (fs : FileSystem) :
    Adds written fs (cache.clearNames names fs).2 :=
  clearNames_induct (motive := fun files => Adds written fs files)
    (fun _ _ _ hremove h => h.trans (FileSystem.adds_removeFile hremove)) names Adds.refl

/-! ## Opening -/

theorem adds_scan {found : Cache} (h : cache.scan fs = .ok (found, after)) :
    Adds written fs after := by
  refine scan_induct (motive := fun _ files => Adds written fs files) h Adds.refl ?_
    fun _ _ _ hfiles => hfiles
  intro scan name next hscan htakes
  cases htakes with
  | deletes hremove => exact hscan.trans (FileSystem.adds_removeFile hremove)
  | passes => exact hscan
  | notes _ _ _ _ _ => exact hscan

/-- Once the directory is made, opening writes nothing. -/
theorem adds_openAt (config : CacheConfig) (fs : FileSystem) :
    Adds written (fs.makeDirectories config.directory).2 (openAt config fs).2 := by
  unfold openAt
  split
  · rename_i hmade
    rw [hmade]
    exact Adds.refl
  · rename_i made hmade
    rw [hmade]
    simp only
    split
    · exact Adds.refl
    · rename_i scanned middle hscan
      exact (adds_scan hscan).trans (adds_enforceLimit scanned middle)

/-! ## Looking up and storing -/

theorem adds_lookup (cache : Cache) (fs : FileSystem) (fingerprint : Fingerprint)
    (engine : String) : Adds written fs (cache.lookup fs fingerprint engine).2.2 := by
  have hlookup := cache.looksUp fs fingerprint engine
  generalize cache.lookup fs fingerprint engine = result at hlookup ⊢
  cases hlookup with
  | finds _ => exact FileSystem.adds_tick fs
  | misses _ => exact Adds.refl
  | drops _ => exact adds_remove cache fs fingerprint

theorem adds_store (cache : Cache) (fs : FileSystem) (fingerprint : Fingerprint)
    (engine : String) (bytecode : Bytes) :
    Adds (· = Entry.encode sha256 fingerprint engine bytecode) fs
      (cache.store fs fingerprint engine bytecode).2 := by
  have hstore := cache.stores fs fingerprint engine bytecode
  generalize cache.store fs fingerprint engine bytecode = result at hstore ⊢
  cases hstore with
  | skips _ => exact Adds.refl
  | fails _ _ => exact Adds.refl
  | @writes replaced _ hreplace =>
      have hticked : Adds (· = Entry.encode sha256 fingerprint engine bytecode) fs replaced.tick.2 :=
        (FileSystem.adds_replaceFile hreplace).trans (FileSystem.adds_tick replaced)
      exact hticked.trans (adds_enforceLimit _ _)

theorem adds_getOrCompile (cache : Cache) (fs : FileSystem) (source : Bytes) (engine : String)
    (options : CompileOptions) (compile : Bytes → CompileOptions → Except CompileError Bytes) :
    Adds (fun file => ∃ bytecode, compile source options = .ok bytecode ∧
        file = Entry.encode sha256 (cache.fingerprintOf source engine options) engine bytecode) fs
      (cache.getOrCompile fs source engine options compile).2.2 := by
  have hlookup : Adds (fun file => ∃ bytecode, compile source options = .ok bytecode ∧
      file = Entry.encode sha256 (cache.fingerprintOf source engine options) engine bytecode) fs
      (cache.lookup fs (cache.fingerprintOf source engine options) engine).2.2 :=
    adds_lookup cache fs _ engine
  have hobtains := cache.obtains fs source engine options compile
  generalize (cache.getOrCompile fs source engine options compile).2 = result at hobtains ⊢
  cases hobtains with
  | looksUp => exact hlookup
  | @stores missed middle bytecode hl hcompile =>
      rw [hl] at hlookup
      refine hlookup.trans ((adds_store missed middle _ engine bytecode).mono ?_)
      rintro file rfl
      exact ⟨bytecode, hcompile, rfl⟩

/-! ## Writing the index -/

/-- What is the text of some index. -/
def IsIndexText (content : Bytes) : Prop :=
  ∃ index : Index, content = Bytes.ofText index.render

/-- The text of an index begins with a brace, so it is no entry. -/
theorem IsIndexText.decode_ne_ok {content : Bytes} (h : IsIndexText content)
    (fingerprint : Fingerprint) (engine : String) (payload : Bytes) :
    Entry.decode sha256 fingerprint engine content ≠ .ok payload := by
  obtain ⟨index, rfl⟩ := h
  have hbrace : ∃ rest, Bytes.ofText index.render = 0x7B :: rest := by
    unfold Index.render Json.renderIndented
    rw [Json.indented, Bytes.ofText_ofList, List.flatMap_cons]
    exact ⟨_, rfl⟩
  obtain ⟨rest, heq⟩ := hbrace
  rw [heq]
  exact Entry.decode_cons_ne_ok (by decide)

theorem adds_flush (cache : Cache) (fs : FileSystem) :
    Adds IsIndexText fs (cache.flush fs).2.2 := by
  have hflush := cache.flushes fs
  generalize (cache.flush fs).2 = result at hflush ⊢
  cases hflush with
  | rests _ => exact Adds.refl
  | writes _ hreplace =>
      refine (FileSystem.adds_replaceFile hreplace).mono ?_
      rintro content rfl
      exact ⟨cache.index, rfl⟩

theorem adds_clear (cache : Cache) (fs : FileSystem) :
    Adds IsIndexText fs (cache.clear fs).2.2 := by
  unfold clear
  cases fs.list cache.directory with
  | ok names => exact (adds_clearNames cache names fs).trans (adds_flush _ _)
  | error e => exact adds_flush _ _

/-! ## Actions -/

/-- The contents an action may write. -/
def Action.Writes (cache : Cache) : Action → Bytes → Prop
  | .lookup .. | .remove _ => fun _ => False
  | .store fingerprint engine bytecode => (· = Entry.encode sha256 fingerprint engine bytecode)
  | .getOrCompile source engine options compile => fun file => ∃ bytecode,
    compile source options = .ok bytecode ∧
      file = Entry.encode sha256 (cache.fingerprintOf source engine options) engine bytecode
  | .clear | .flush => IsIndexText

/-- After an action only what could be read before can be read, and what it wrote. -/
theorem adds_perform (cache : Cache) (fs : FileSystem) (action : Action) :
    Adds (action.Writes cache) fs (cache.perform fs action).2 := by
  cases action with
  | lookup source engine options =>
      rw [perform]
      exact adds_lookup cache fs (cache.fingerprintOf source engine options) engine
  | store fingerprint engine bytecode =>
      rw [perform]
      exact adds_store cache fs fingerprint engine bytecode
  | getOrCompile source engine options compile =>
      rw [perform]
      exact adds_getOrCompile cache fs source engine options compile
  | remove fingerprint =>
      rw [perform]
      exact adds_remove cache fs fingerprint
  | clear =>
      rw [perform]
      exact adds_clear cache fs
  | flush =>
      rw [perform]
      exact adds_flush cache fs

end ScriptModules.Cache
