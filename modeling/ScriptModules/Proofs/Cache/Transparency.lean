import ScriptModules.Proofs.Cache.Writes
import ScriptModules.Proofs.Files.Making
import ScriptModules.Proofs.Fingerprint.Message

/-!
# A cache answers like the compiler

Asking a cache for the bytecode of a source comes to what the compiler comes to on
that source, whatever happened to the directory before: other caches wrote and
evicted there, files were deleted, files were replaced by such that do not check
out.  Only files that check out without the compiler having made them would do harm.

The invariant is about files (`Faithful`): what can be read at the path of an entry
either is no entry or was made by the compiler for some request.  A cache that finds an
entry for its own request there knows the fingerprint it is for.  As no two known
requests have one fingerprint, the compiler made it for this very request.

This is about caches that are not portable.
-/

namespace ScriptModules.Cache

open FileSystem (Adds Grounded)

/-! ## Requests and compilers -/

/-- What a compiler is asked for. -/
structure Request where
  source : Bytes
  engine : String
  options : CompileOptions

/-- A compiler of every version: its answer depends on nothing but the request. -/
abbrev Compiler := String → Bytes → CompileOptions → Except CompileError Bytes

/-- The fingerprint of a request. -/
def Request.fingerprint (request : Request) : Fingerprint :=
  Fingerprint.compute request.source request.engine request.options none

/-- What is hashed for a request. -/
def Request.message (request : Request) : Bytes :=
  Fingerprint.message request.source request.engine request.options none

/-- What the compiler comes to on a request. -/
def Request.compileWith (request : Request) (compiler : Compiler) : Except CompileError Bytes :=
  compiler request.engine request.source request.options

/-- Known requests are of lengths a machine can count, and the hash function has no
collision among them. -/
structure Distinguishable (known : Request → Prop) : Prop where
  countable : ∀ request, known request →
    Fingerprint.Countable request.source request.engine none
  noCollision : ∀ request other, known request → known other →
    sha256 request.message = sha256 other.message → request.message = other.message

/-- Known requests are told apart by their fingerprints. -/
theorem Distinguishable.eq_of_fingerprint {known : Request → Prop} (h : Distinguishable known)
    {request other : Request} (hr : known request) (ho : known other)
    (heq : request.fingerprint = other.fingerprint) : request = other := by
  have hmessage := h.noCollision request other hr ho heq
  obtain ⟨hsource, hengine, hoptions, -⟩ :=
    Fingerprint.message_inj (h.countable request hr) (h.countable other ho) hmessage
  cases request
  cases other
  cases hsource
  cases hengine
  cases hoptions
  rfl

/-! ## Faithful directories -/

section Files

variable (compiler : Compiler) (known : Request → Prop) (directory : Path)

/-- The file of what the compiler made for a known request. -/
def Produced (file : Bytes) : Prop :=
  ∃ request payload, known request ∧ request.compileWith compiler = .ok payload ∧
    file = Entry.encode sha256 request.fingerprint request.engine payload

/-- A file that does not check out as the entry of a fingerprint, whatever the engine. -/
def Invalid (fingerprint : Fingerprint) (file : Bytes) : Prop :=
  ∀ engine payload, Entry.decode sha256 fingerprint engine file ≠ .ok payload

/-- The path of an entry. -/
def pathOf (fingerprint : Fingerprint) : Path :=
  directory.join (.ofString (entryName fingerprint))

/-- Every entry of a directory that checks out is a genuine one. -/
structure Vouched (genuine : Bytes → Prop) (directory : Path) (fs : FileSystem) : Prop where
  grounded : fs.Grounded
  entries : ∀ fingerprint file, fs.read (pathOf directory fingerprint) = .ok file →
    Invalid fingerprint file ∨ genuine file

/-- The compiler made every valid entry of a directory. -/
structure Faithful (fs : FileSystem) : Prop where
  grounded : fs.Grounded
  produced : ∀ fingerprint file, fs.read (pathOf directory fingerprint) = .ok file →
    Invalid fingerprint file ∨ Produced compiler known file

/-- Every entry file of a directory is as it was, or gone, or does not check out. -/
def Spoils (fs after : FileSystem) : Prop :=
  ∀ fingerprint file, after.read (pathOf directory fingerprint) = .ok file →
    fs.read (pathOf directory fingerprint) = .ok file ∨ Invalid fingerprint file

end Files

variable {compiler : Compiler} {known : Request → Prop} {directory : Path}
  {fs next : FileSystem}

theorem faithful_iff : Faithful compiler known directory fs ↔
    Vouched (Produced compiler known) directory fs :=
  ⟨fun h => ⟨h.grounded, h.produced⟩, fun h => ⟨h.grounded, h.entries⟩⟩

/-- Spoiling a directory brings in nothing. -/
theorem Vouched.spoils {genuine : Bytes → Prop} (h : Vouched genuine directory fs)
    (hg : next.Grounded) (hs : Spoils directory fs next) : Vouched genuine directory next := by
  refine ⟨hg, fun fingerprint file hread => ?_⟩
  rcases hs fingerprint file hread with hold | hinvalid
  · exact h.entries fingerprint file hold
  · exact Or.inl hinvalid

/-- What is genuine may be written, and what is no entry. -/
theorem Vouched.adds {genuine written : Bytes → Prop} (h : Vouched genuine directory fs)
    (ha : Adds written fs next)
    (hw : ∀ file, written file → (∀ fingerprint, Invalid fingerprint file) ∨ genuine file) :
    Vouched genuine directory next := by
  obtain ⟨hgrounded, hreads⟩ := ha h.grounded
  refine ⟨hgrounded, fun fingerprint file hread => ?_⟩
  rcases hreads _ file hread with hold | hnew
  · exact h.entries fingerprint file hold
  · exact (hw file hnew).imp_left (· fingerprint)

/-- An entry that is found for a known request holds what the compiler makes of it. -/
theorem Faithful.eq_of_decode (h : Faithful compiler known directory fs)
    (hd : Distinguishable known) {request : Request} (hk : known request) {file payload : Bytes}
    (hread : fs.read (pathOf directory request.fingerprint) = .ok file)
    (hdecode : Entry.decode sha256 request.fingerprint request.engine file = .ok payload) :
    request.compileWith compiler = .ok payload := by
  rcases h.produced _ file hread with hinvalid | ⟨other, made, hother, hmade, rfl⟩
  · exact absurd hdecode (hinvalid _ _)
  · obtain ⟨hfingerprint, rfl⟩ := Entry.eq_of_decode_encode hdecode
    rw [hd.eq_of_fingerprint hk hother hfingerprint]
    exact hmade

/-! ## Answers -/

/-- What reading finds has been read from a file and checked. -/
theorem of_readFile {cache : Cache} {fingerprint : Fingerprint} {engine : String}
    {payload : Bytes} {size : Nat}
    (h : cache.readFile fs fingerprint engine = .bytecode payload size) :
    ∃ file, fs.read (cache.entryPath fingerprint) = .ok file ∧
      Entry.decode sha256 fingerprint engine file = .ok payload := by
  unfold readFile at h
  split at h
  · cases h
  · cases h
  · rename_i file hread
    split at h
    · rename_i found hdecode
      cases h
      exact ⟨file, hread, hdecode⟩
    · cases h

/-- What a lookup finds, reading has found. -/
theorem of_lookup {cache : Cache} {fingerprint : Fingerprint} {engine : String} {bytecode : Bytes}
    {rest : Cache × FileSystem} (h : cache.lookup fs fingerprint engine = (some bytecode, rest)) :
    ∃ size, cache.readFile fs fingerprint engine = .bytecode bytecode size := by
  have hlookup := h ▸ cache.looksUp fs fingerprint engine
  cases hlookup with
  | finds hread => exact ⟨_, hread⟩

/-- Over a faithful directory a cache answers like the compiler. -/
theorem Faithful.getOrCompile_eq (h : Faithful compiler known directory fs)
    (hd : Distinguishable known) {cache : Cache} (hdirectory : cache.directory = directory)
    (hroot : cache.portableRoot = none) {request : Request} (hk : known request) :
    (cache.getOrCompile fs request.source request.engine request.options
        (compiler request.engine)).1.map (fun compiled => (compiled.fingerprint, compiled.bytecode)) =
      (request.compileWith compiler).map fun bytecode => (request.fingerprint, bytecode) := by
  have hfingerprint : cache.fingerprintOf request.source request.engine request.options =
      request.fingerprint := by
    rw [fingerprintOf, hroot]
    rfl
  have hpath : cache.entryPath request.fingerprint = pathOf directory request.fingerprint := by
    rw [entryPath, hdirectory, pathOf]
  unfold getOrCompile
  simp only [hfingerprint]
  cases hlookup : cache.lookup fs request.fingerprint request.engine with
  | mk found rest =>
      cases found with
      | some bytecode =>
          obtain ⟨size, hread⟩ := of_lookup hlookup
          obtain ⟨file, hfile, hdecode⟩ := of_readFile hread
          rw [hpath] at hfile
          rw [h.eq_of_decode hd hk hfile hdecode]
          rfl
      | none =>
          simp only [Request.compileWith]
          cases compiler request.engine request.source request.options with
          | error e => rfl
          | ok bytecode => rfl

/-! ## Runs -/

section Runs

variable (compiler : Compiler) (known : Request → Prop) (directory : Path)

/-- An action that brings no bytecode but what the compiler makes for known requests. -/
def Action.IsHonest : Action → Prop
  | .getOrCompile source engine options compile =>
    known ⟨source, engine, options⟩ ∧ compile = compiler engine
  | .store fingerprint engine bytecode =>
    Produced compiler known (Entry.encode sha256 fingerprint engine bytecode)
  | .lookup .. | .remove _ | .clear | .flush => True

/-- What may happen in a world: caches are opened on the directory, act and are closed,
and files are spoiled.  Making the directory may bring files to light as well, through
`..` in its path. -/
def World.Permits (world : World) : WorldEvent → Prop
  | .opened config =>
    config.directory = directory ∧ config.portable = false ∧
      Spoils directory world.fs (world.fs.makeDirectories directory).2
  | .acted _ action => action.IsHonest compiler known
  | .closed _ => True
  | .changed files => files.Grounded ∧ Spoils directory world.fs files

/-- The worlds a run may come to. -/
inductive World.Reached (start : FileSystem) : World → Prop where
  | start : Reached start { fs := start }
  | step {world : World} (event : WorldEvent) (h : Reached start world)
      (hp : world.Permits compiler known directory event) : Reached start (world.after event)

end Runs

/-- Opening a cache on a directory that is there is permitted. -/
theorem World.permits_opened {world : World} {config : CacheConfig}
    (hd : world.fs.isDirectory config.directory = true) (hp : config.portable = false) :
    world.Permits compiler known config.directory (.opened config) := by
  refine ⟨rfl, hp, ?_⟩
  rw [FileSystem.makeDirectories_of_isDirectory hd]
  exact fun fingerprint file hread => Or.inl hread

/-- So is deleting a file. -/
theorem World.permits_removeFile {world : World} (hg : world.fs.Grounded) {path : Path}
    (h : world.fs.removeFile path = .ok next) :
    world.Permits compiler known directory (.changed next) := by
  have hadds : FileSystem.Adds (fun _ => False) world.fs next := FileSystem.adds_removeFile h
  obtain ⟨hgrounded, hreads⟩ := hadds hg
  refine ⟨hgrounded, fun fingerprint file hread => ?_⟩
  rcases hreads _ file hread with hold | hnever
  · exact Or.inl hold
  · exact hnever.elim

/-- So is replacing a file by bytes that check out for no fingerprint. -/
theorem World.permits_replaceFile {world : World} (hg : world.fs.Grounded) {parent path : Path}
    {content : Bytes} (hc : ∀ fingerprint, Invalid fingerprint content)
    (h : world.fs.replaceFile parent path content = .ok next) :
    world.Permits compiler known directory (.changed next) := by
  obtain ⟨hgrounded, hreads⟩ := FileSystem.adds_replaceFile h hg
  refine ⟨hgrounded, fun fingerprint file hread => ?_⟩
  rcases hreads _ file hread with hold | rfl
  · exact Or.inl hold
  · exact Or.inr (hc fingerprint)

/-- What holds all through a run: the directory is faithful, and all caches are on it and
not portable. -/
structure World.IsFaithful (compiler : Compiler) (known : Request → Prop) (directory : Path)
    (world : World) : Prop where
  files : Faithful compiler known directory world.fs
  caches : ∀ cache ∈ world.caches, cache.directory = directory ∧ cache.portableRoot = none

/-- An honest action writes what the compiler made, or no entry. -/
theorem Action.IsHonest.of_writes {action : Action} (h : action.IsHonest compiler known)
    {cache : Cache} (hroot : cache.portableRoot = none) {file : Bytes}
    (hw : action.Writes cache file) :
    (∀ fingerprint, Invalid fingerprint file) ∨ Produced compiler known file := by
  cases action with
  | lookup source engine options => exact absurd hw id
  | remove fingerprint => exact absurd hw id
  | store fingerprint engine bytecode =>
      obtain rfl : file = Entry.encode sha256 fingerprint engine bytecode := hw
      exact Or.inr h
  | getOrCompile source engine options compile =>
      obtain ⟨hknown, rfl⟩ := h
      obtain ⟨bytecode, hcompile, rfl⟩ := hw
      refine Or.inr ⟨⟨source, engine, options⟩, bytecode, hknown, hcompile, ?_⟩
      rw [fingerprintOf, hroot]
      rfl
  | clear => exact Or.inl fun fingerprint => IsIndexText.decode_ne_ok hw fingerprint
  | flush => exact Or.inl fun fingerprint => IsIndexText.decode_ne_ok hw fingerprint

/-- An event brings no entry into a directory that is not genuine. -/
def World.Vouches (genuine : Bytes → Prop) (directory : Path) (world : World) : WorldEvent → Prop
  | .opened config =>
    config.directory = directory ∧ Spoils directory world.fs (world.fs.makeDirectories directory).2
  | .acted index action => ∀ cache, world.caches[index]? = some cache →
    ∀ file, action.Writes cache file → (∀ fingerprint, Invalid fingerprint file) ∨ genuine file
  | .closed _ => True
  | .changed files => files.Grounded ∧ Spoils directory world.fs files

theorem World.vouched_after {genuine : Bytes → Prop} {world : World} {event : WorldEvent}
    (h : Vouched genuine directory world.fs) (hv : world.Vouches genuine directory event) :
    Vouched genuine directory (world.after event).fs := by
  cases event with
  | opened config =>
      obtain ⟨rfl, hspoils⟩ := hv
      have hmade := h.spoils (h.grounded.makeDirectories config.directory) hspoils
      have hadds : FileSystem.Adds (fun _ => False)
          (world.fs.makeDirectories config.directory).2 (openAt config world.fs).2 :=
        adds_openAt config world.fs
      have hopened := hmade.adds hadds fun _ hnever => hnever.elim
      rw [World.after]
      split
      · rename_i hopen
        rwa [hopen] at hopened
      · rename_i hopen
        rwa [hopen] at hopened
  | acted index action =>
      rw [World.after]
      split
      · rename_i cache hcache
        exact h.adds (adds_perform cache world.fs action) (hv cache hcache)
      · exact h
  | closed index =>
      rw [World.after]
      split
      · rename_i cache _
        exact h.adds (adds_flush cache world.fs) fun file hw =>
          Or.inl fun fingerprint => hw.decode_ne_ok fingerprint
      · exact h
  | changed files =>
      obtain ⟨hgrounded, hspoils⟩ := hv
      exact h.spoils hgrounded hspoils

/-- Settings are kept, so caches stay on a directory and for a project if none is opened
elsewhere. -/
theorem World.placed_after {root : Option Path} {world : World} {event : WorldEvent}
    (h : ∀ cache ∈ world.caches, cache.directory = directory ∧ cache.portableRoot = root)
    (ho : ∀ config, event = .opened config → config.directory = directory ∧
      (fresh config (world.fs.makeDirectories config.directory).2).portableRoot = root) :
    ∀ cache ∈ (world.after event).caches,
      cache.directory = directory ∧ cache.portableRoot = root := by
  intro cache hcache
  cases World.yields_of_mem hcache with
  | kept hold => exact h cache hold
  | opened hopen =>
      obtain ⟨hdirectory, hroot⟩ := ho _ rfl
      obtain ⟨hplace, hproject⟩ := place_eq_of_settings_eq (settings_openAt hopen)
      exact ⟨hplace.trans hdirectory, hproject.trans hroot⟩
  | acted action hacting =>
      obtain ⟨hdirectory, hroot⟩ := h _ (List.mem_of_getElem? hacting)
      obtain ⟨hplace, hproject⟩ := place_eq_of_settings_eq (settings_perform _ world.fs action)
      exact ⟨hplace.trans hdirectory, hproject.trans hroot⟩

/-- What may happen in a world keeps it faithful. -/
theorem World.IsFaithful.after {world : World}
    (h : world.IsFaithful compiler known directory) {event : WorldEvent}
    (hp : world.Permits compiler known directory event) :
    (world.after event).IsFaithful compiler known directory := by
  have hvouches : world.Vouches (Produced compiler known) directory event := by
    cases event with
    | opened config => exact ⟨hp.1, hp.2.2⟩
    | acted index action =>
        intro cache hcache file hw
        obtain ⟨-, hroot⟩ := h.caches cache (List.mem_of_getElem? hcache)
        exact Action.IsHonest.of_writes hp hroot hw
    | closed index => trivial
    | changed files => exact hp
  refine ⟨faithful_iff.mpr (World.vouched_after (faithful_iff.mp h.files) hvouches),
    World.placed_after h.caches ?_⟩
  rintro config rfl
  obtain ⟨hdirectory, hportable, -⟩ := hp
  refine ⟨hdirectory, ?_⟩
  rw [fresh, hportable]
  rfl

theorem World.Reached.isFaithful {start : FileSystem} {world : World}
    (hs : Faithful compiler known directory start)
    (h : World.Reached compiler known directory start world) :
    world.IsFaithful compiler known directory := by
  induction h with
  | start => exact ⟨hs, fun _ hcache => nomatch hcache⟩
  | step _ _ hp ih => exact ih.after hp

/-- In any world a run comes to, from a directory the compiler made all valid entries of,
every cache answers a known request like the compiler. -/
theorem World.Reached.getOrCompile_eq_compileWith {start : FileSystem} {world : World}
    (hd : Distinguishable known) (hs : Faithful compiler known directory start)
    (h : World.Reached compiler known directory start world) {cache : Cache}
    (hc : cache ∈ world.caches) {request : Request} (hk : known request) :
    (cache.getOrCompile world.fs request.source request.engine request.options
        (compiler request.engine)).1.map (fun compiled => (compiled.fingerprint, compiled.bytecode)) =
      (request.compileWith compiler).map fun bytecode => (request.fingerprint, bytecode) := by
  have hfaithful := h.isFaithful hs
  obtain ⟨hdirectory, hroot⟩ := hfaithful.caches cache hc
  exact hfaithful.files.getOrCompile_eq hd hdirectory hroot hk

/-! ## A run with a deletion -/

/-- A compiler that leaves sources as they are and accepts none that is empty. -/
def plainCompiler : Compiler := fun _ source _ =>
  if source = [] then .error { message := "empty", line := none } else .ok source

/-- The source of one byte. -/
def byteRequest (byte : UInt8) : Request :=
  { source := [byte], engine := "1", options := {} }

/-- Two sources of one byte. -/
def IsByteRequest (request : Request) : Prop :=
  request = byteRequest 0x61 ∨ request = byteRequest 0x62

theorem distinguishable_isByteRequest : Distinguishable IsByteRequest := by
  have hne : sha256 (byteRequest 0x61).message ≠ sha256 (byteRequest 0x62).message := by
    decide +kernel
  constructor
  · rintro request (rfl | rfl) <;> exact ⟨by decide, by decide⟩
  · rintro request other (rfl | rfl) (rfl | rfl) heq
    · rfl
    · exact absurd heq hne
    · exact absurd heq.symm hne
    · rfl

theorem read_emptyDirectory {path : Path} {file : Bytes} :
    emptyDirectory.read path ≠ .ok file := by
  intro hread
  obtain ⟨place, time, -, -, hnode⟩ := FileSystem.read_eq_ok_iff.mp hread
  unfold FileSystem.node? at hnode
  split at hnode
  · cases hnode
  · rw [emptyDirectory, List.lookup_cons] at hnode
    split at hnode <;> cases hnode

/-- A cache that is opened, acts, and finds its directory empty again. -/
theorem afterAll_emptyDirectory (sizeLimit : Nat) (action : Action) :
    World.afterAll { fs := emptyDirectory }
        [.opened (limitedConfig sizeLimit), .acted 0 action, .changed emptyDirectory] =
      { fs := emptyDirectory
        caches := [((limitedCache sizeLimit).perform emptyDirectory action).1] } := by
  simp only [World.afterAll, List.foldl_cons, List.foldl_nil, World.after, openAt_emptyDirectory]
  rfl

theorem spoils_emptyDirectory : Spoils directory fs emptyDirectory :=
  fun _ _ hread => absurd hread read_emptyDirectory

theorem grounded_emptyDirectory : emptyDirectory.Grounded := by
  intro depth hdepth
  have hzero : depth = 0 := Nat.le_zero.mp hdepth
  rw [hzero]
  rfl

/-- After one request was compiled and its entry deleted, another is answered as the
compiler answers it. -/
theorem getOrCompile_eq_after_deletion : ∃ cache,
    (World.afterAll { fs := emptyDirectory } [.opened (limitedConfig 1000),
      .acted 0 (.getOrCompile [0x61] "1" {} (plainCompiler "1")),
      .changed emptyDirectory]).caches = [cache] ∧
    (cache.getOrCompile emptyDirectory [0x62] "1" {} (plainCompiler "1")).1.map
      (fun compiled => (compiled.fingerprint, compiled.bytecode)) =
        .ok ((byteRequest 0x62).fingerprint, [0x62]) := by
  have hworld := afterAll_emptyDirectory 1000 (.getOrCompile [0x61] "1" {} (plainCompiler "1"))
  have hopened : World.Reached plainCompiler IsByteRequest (.ofString "/c") emptyDirectory
      (World.after { fs := emptyDirectory } (.opened (limitedConfig 1000))) :=
    .step _ .start (World.permits_opened (by decide +kernel) rfl)
  have hacted := hopened.step (.acted 0 (.getOrCompile [0x61] "1" {} (plainCompiler "1")))
    ⟨Or.inl rfl, rfl⟩
  have hreached : World.Reached plainCompiler IsByteRequest (.ofString "/c") emptyDirectory
      (World.afterAll { fs := emptyDirectory } [.opened (limitedConfig 1000),
        .acted 0 (.getOrCompile [0x61] "1" {} (plainCompiler "1")), .changed emptyDirectory]) :=
    .step (.changed _) hacted ⟨grounded_emptyDirectory, spoils_emptyDirectory⟩
  rw [hworld] at hreached ⊢
  refine ⟨_, rfl, ?_⟩
  have hknown : IsByteRequest (byteRequest 0x62) := Or.inr rfl
  have hanswer := hreached.getOrCompile_eq_compileWith distinguishable_isByteRequest
    ⟨grounded_emptyDirectory, fun _ _ hread => absurd hread read_emptyDirectory⟩
    (List.mem_singleton_self _) hknown
  exact hanswer

end ScriptModules.Cache
