import Mathlib
import ScriptModules.Proofs.Cache.Transparency
import ScriptModules.Proofs.Fingerprint.Portable

/-!
# Portable caches

Caches in portable mode share entries among sources that read alike, that is, up to the kinds
of slashes in paths of the project.  Whose bytecode a cache may answer with is followed from
the directory without entries: every entry that checks out there was brought by an event, for
some request, and is named by the fingerprint of that request.  So an answer was brought for
a source that reads like the one that is asked for.
-/

namespace ScriptModules.Cache

open FileSystem (Adds Grounded)

/-! ## Requests in a project -/

/-- The fingerprint of a request in a project at `root`. -/
def Request.portableFingerprint (root : Path) (request : Request) : Fingerprint :=
  Fingerprint.compute request.source request.engine request.options (some root)

/-- What is hashed for a request in a project at `root`. -/
def Request.portableMessage (root : Path) (request : Request) : Bytes :=
  Fingerprint.message request.source request.engine request.options (some root)

/-- Requests for the same engine and options, with sources that read alike. -/
def Request.ReadsLike (root : Path) (request other : Request) : Prop :=
  Fingerprint.Alike root request.source other.source ∧ request.engine = other.engine ∧
    request.options = other.options

/-- Known requests are of lengths a machine can count, their sources do not hold the text of
the placeholder, and the hash function has no collision among them. -/
structure PortablyDistinguishable (root : Path) (known : Request → Prop) : Prop where
  countable : ∀ request, known request →
    Fingerprint.Countable request.source request.engine (some root)
  unmarked : ∀ request, known request → Fingerprint.IsUnmarked request.source
  noCollision : ∀ request other, known request → known other →
    sha256 (request.portableMessage root) = sha256 (other.portableMessage root) →
      request.portableMessage root = other.portableMessage root

section Requests

variable {root : Path} {known : Request → Prop}

/-- Known requests share a fingerprint exactly if they read alike. -/
theorem PortablyDistinguishable.fingerprint_eq_iff (h : PortablyDistinguishable root known)
    {request other : Request} (hr : known request) (ho : known other) :
    request.portableFingerprint root = other.portableFingerprint root ↔
      request.ReadsLike root other := by
  have hmessage : request.portableMessage root = other.portableMessage root ↔
      request.ReadsLike root other :=
    Fingerprint.message_eq_iff (h.unmarked request hr) (h.unmarked other ho)
      (h.countable request hr) (h.countable other ho)
  rw [← hmessage]
  exact ⟨h.noCollision request other hr ho, congrArg sha256⟩

end Requests

/-! ## What events bring -/

/-- The bytecode an event may bring, and the request it is for. -/
inductive WorldEvent.Brings (root : Path) : WorldEvent → Request → Bytes → Prop where
  | compiled {index : Nat} {source bytecode : Bytes} {engine : String} {options : CompileOptions}
      {compile : Bytes → CompileOptions → Except CompileError Bytes}
      (h : compile source options = .ok bytecode) :
      Brings root (.acted index (.getOrCompile source engine options compile))
        ⟨source, engine, options⟩ bytecode
  | stored {index : Nat} {request : Request} {bytecode : Bytes} :
      Brings root
        (.acted index (.store (request.portableFingerprint root) request.engine bytecode))
        request bytecode

/-- Some event brought the bytecode for the request. -/
def Brought (root : Path) (events : List WorldEvent) (request : Request) (bytecode : Bytes) :
    Prop :=
  ∃ event ∈ events, event.Brings root request bytecode

section Runs

variable (root : Path) (known : Request → Prop) (directory : Path)

/-- An action that is about known requests. -/
def Action.IsAbout : Action → Prop
  | .getOrCompile source engine options _ => known ⟨source, engine, options⟩
  | .store fingerprint engine _ => ∃ request, known request ∧
    fingerprint = request.portableFingerprint root ∧ engine = request.engine
  | .lookup .. | .remove _ | .clear | .flush => True

/-- What may happen in a world of one project: caches are opened on the directory and for the
project, act on known requests and are closed, and files are spoiled. -/
def World.PermitsInProject (world : World) : WorldEvent → Prop
  | .opened config =>
    config.directory = directory ∧ config.portable = true ∧ config.portableRoot = some root ∧
      Spoils directory world.fs (world.fs.makeDirectories directory).2
  | .acted _ action => action.IsAbout root known
  | .closed _ => True
  | .changed files => files.Grounded ∧ Spoils directory world.fs files

/-- The worlds a run of the project may come to, with the events of the run. -/
inductive World.ProjectRun (start : FileSystem) : List WorldEvent → World → Prop where
  | start : ProjectRun start [] { fs := start }
  | step {events : List WorldEvent} {world : World} (event : WorldEvent)
      (h : ProjectRun start events world)
      (hp : world.PermitsInProject root known directory event) :
      ProjectRun start (events ++ [event]) (world.after event)

/-- The file of what was brought for a known request. -/
def BroughtFile (events : List WorldEvent) (file : Bytes) : Prop :=
  ∃ request bytecode, known request ∧ Brought root events request bytecode ∧
    file = Entry.encode sha256 (request.portableFingerprint root) request.engine bytecode

/-- Every entry of the directory that checks out was brought for a known request. -/
structure Supplied (events : List WorldEvent) (fs : FileSystem) : Prop where
  grounded : fs.Grounded
  brought : ∀ fingerprint file, fs.read (pathOf directory fingerprint) = .ok file →
    Invalid fingerprint file ∨ BroughtFile root known events file

/-- What holds all through a run of the project: the directory has been supplied by events,
and all caches are on it and for the project. -/
structure World.IsOfProject (events : List WorldEvent) (world : World) : Prop where
  files : Supplied root known directory events world.fs
  caches : ∀ cache ∈ world.caches,
    cache.directory = directory ∧ cache.portableRoot = some root

end Runs

variable {root : Path} {known : Request → Prop} {directory : Path} {fs next : FileSystem}
  {events : List WorldEvent} {event : WorldEvent} {world : World}

/-! ## Supplied directories -/

theorem BroughtFile.append {file : Bytes} (h : BroughtFile root known events file)
    (event : WorldEvent) : BroughtFile root known (events ++ [event]) file := by
  obtain ⟨request, bytecode, hknown, ⟨old, hold, hbrings⟩, rfl⟩ := h
  exact ⟨request, bytecode, hknown, ⟨old, List.mem_append_left _ hold, hbrings⟩, rfl⟩

theorem Supplied.append (h : Supplied root known directory events fs) (event : WorldEvent) :
    Supplied root known directory (events ++ [event]) fs :=
  ⟨h.grounded, fun fingerprint file hread =>
    (h.brought fingerprint file hread).imp_right (·.append event)⟩

theorem supplied_iff : Supplied root known directory events fs ↔
    Vouched (BroughtFile root known events) directory fs :=
  ⟨fun h => ⟨h.grounded, h.brought⟩, fun h => ⟨h.grounded, h.entries⟩⟩

/-! ## Runs of a project -/

/-- An action about known requests writes what it brings, or no entry. -/
theorem Action.IsAbout.of_writes {action : Action} (h : action.IsAbout root known)
    {cache : Cache} (hroot : cache.portableRoot = some root) {file : Bytes}
    (hw : action.Writes cache file) (index : Nat) :
    (∀ fingerprint, Invalid fingerprint file) ∨
      BroughtFile root known (events ++ [.acted index action]) file := by
  have hlast : WorldEvent.acted index action ∈ events ++ [.acted index action] :=
    List.mem_append_right _ (List.mem_singleton_self _)
  cases action with
  | lookup source engine options => exact absurd hw id
  | remove fingerprint => exact absurd hw id
  | store fingerprint engine bytecode =>
      obtain ⟨request, hknown, rfl, rfl⟩ := h
      exact Or.inr ⟨request, bytecode, hknown, ⟨_, hlast, .stored⟩, hw⟩
  | getOrCompile source engine options compile =>
      obtain ⟨bytecode, hcompile, rfl⟩ := hw
      refine Or.inr ⟨⟨source, engine, options⟩, bytecode, h, ⟨_, hlast, .compiled hcompile⟩, ?_⟩
      rw [fingerprintOf, hroot]
      rfl
  | clear => exact Or.inl fun fingerprint => IsIndexText.decode_ne_ok hw fingerprint
  | flush => exact Or.inl fun fingerprint => IsIndexText.decode_ne_ok hw fingerprint

/-- What may happen in the world of a project leaves it one. -/
theorem World.IsOfProject.after (h : world.IsOfProject root known directory events)
    (hp : world.PermitsInProject root known directory event) :
    (world.after event).IsOfProject root known directory (events ++ [event]) := by
  have hvouches : world.Vouches (BroughtFile root known (events ++ [event])) directory event := by
    cases event with
    | opened config => exact ⟨hp.1, hp.2.2.2⟩
    | acted index action =>
        intro cache hcache file hw
        obtain ⟨-, hroot⟩ := h.caches cache (List.mem_of_getElem? hcache)
        exact Action.IsAbout.of_writes hp hroot hw index
    | closed index => trivial
    | changed files => exact hp
  refine ⟨supplied_iff.mpr (World.vouched_after (supplied_iff.mp (h.files.append event)) hvouches),
    World.placed_after h.caches ?_⟩
  rintro config rfl
  obtain ⟨hdirectory, hportable, hroot, -⟩ := hp
  refine ⟨hdirectory, ?_⟩
  rw [fresh, hportable, hroot]
  rfl

theorem World.ProjectRun.isOfProject {start : FileSystem}
    (hs : Supplied root known directory [] start)
    (h : World.ProjectRun root known directory start events world) :
    world.IsOfProject root known directory events := by
  induction h with
  | start => exact ⟨hs, fun _ hcache => absurd hcache List.not_mem_nil⟩
  | step _ _ hp ih => exact ih.after hp

/-- In a run of a project, from a directory without entries, known requests share a
fingerprint exactly if they read alike, and what a lookup for a known request finds was
brought for one that reads like it. -/
theorem World.ProjectRun.answers_alike {start : FileSystem}
    (hd : PortablyDistinguishable root known) (hg : start.Grounded)
    (hn : ∀ fingerprint file, start.read (pathOf directory fingerprint) = .ok file →
      Invalid fingerprint file)
    (h : World.ProjectRun root known directory start events world) {cache : Cache}
    (hc : cache ∈ world.caches) :
    (∀ request other, known request → known other →
      (cache.fingerprintOf request.source request.engine request.options =
          cache.fingerprintOf other.source other.engine other.options ↔
        request.ReadsLike root other)) ∧
    ∀ request bytecode rest, known request →
      cache.lookup world.fs (cache.fingerprintOf request.source request.engine request.options)
          request.engine = (some bytecode, rest) →
        ∃ made, Brought root events made bytecode ∧ made.ReadsLike root request := by
  have hproject := h.isOfProject ⟨hg, fun fingerprint file hread => Or.inl (hn fingerprint file hread)⟩
  obtain ⟨hdirectory, hroot⟩ := hproject.caches cache hc
  have hfingerprint : ∀ request : Request,
      cache.fingerprintOf request.source request.engine request.options =
        request.portableFingerprint root := by
    intro request
    rw [fingerprintOf, hroot]
    rfl
  constructor
  · intro request other hr ho
    rw [hfingerprint, hfingerprint]
    exact hd.fingerprint_eq_iff hr ho
  · intro request bytecode rest hr hlookup
    rw [hfingerprint] at hlookup
    obtain ⟨size, hreading⟩ := of_lookup hlookup
    obtain ⟨file, hread, hdecode⟩ := of_readFile hreading
    rw [entryPath, hdirectory] at hread
    rcases hproject.files.brought _ file hread with hinvalid | ⟨made, found, hmade, hbrought, rfl⟩
    · exact absurd hdecode (hinvalid _ _)
    · obtain ⟨heq, rfl⟩ := Entry.eq_of_decode_encode hdecode
      exact ⟨made, hbrought, (hd.fingerprint_eq_iff hmade hr).mp heq.symm⟩

/-! ## Slashes of either kind -/

/-- Where a project stands, with backslashes. -/
def backslashRoot : Path := .ofString "C:\\work\\app"

/-- A source with a path of the project, in backslashes. -/
def backslashSource : Bytes := Bytes.ofText "p = \"C:\\work\\app\\src\\x.js\""

/-- The same with slashes behind the root. -/
def slashSource : Bytes := Bytes.ofText "p = \"C:\\work\\app/src/x.js\""

theorem normalize_backslashSource : Fingerprint.normalize backslashSource backslashRoot =
    Bytes.ofText "p = \"<root>/src/x.js\"" := by
  cbv

theorem normalize_slashSource : Fingerprint.normalize slashSource backslashRoot =
    Bytes.ofText "p = \"<root>/src/x.js\"" := by
  cbv

/-- Whether sources of a project that differ in a byte have different fingerprints, where
lengths can be counted and the hash function has no collision. -/
def TellsSourcesApart (root : Path) (engine : String) (options : CompileOptions) : Prop :=
  ∀ source other, Fingerprint.Countable source engine (some root) →
    Fingerprint.Countable other engine (some root) →
      (sha256 (Fingerprint.message source engine options (some root)) =
          sha256 (Fingerprint.message other engine options (some root)) →
        Fingerprint.message source engine options (some root) =
          Fingerprint.message other engine options (some root)) →
      source ≠ other →
        Fingerprint.compute source engine options (some root) ≠
          Fingerprint.compute other engine options (some root)

theorem message_backslashSource : Fingerprint.message backslashSource "1" {} (some backslashRoot) =
    Fingerprint.message slashSource "1" {} (some backslashRoot) := by
  simp only [Fingerprint.message, normalize_backslashSource, normalize_slashSource]

theorem countable_backslashSource :
    Fingerprint.Countable backslashSource "1" (some backslashRoot) := by
  refine ⟨?_, by decide⟩
  rw [Fingerprint.hashedSource, normalize_backslashSource]
  decide

theorem countable_slashSource : Fingerprint.Countable slashSource "1" (some backslashRoot) := by
  refine ⟨?_, by decide⟩
  rw [Fingerprint.hashedSource, normalize_slashSource]
  decide

/-- A path of the project has one fingerprint with slashes and with backslashes. -/
theorem not_tellsSourcesApart :
    ¬ ∀ root engine options, TellsSourcesApart root engine options := fun h =>
  h backslashRoot "1" {} backslashSource slashSource countable_backslashSource
    countable_slashSource (fun _ => message_backslashSource) (by decide)
    (congrArg sha256 message_backslashSource)

/-- The two sources, for one engine. -/
def IsSlashRequest (request : Request) : Prop :=
  request = ⟨backslashSource, "1", {}⟩ ∨ request = ⟨slashSource, "1", {}⟩

theorem portablyDistinguishable_isSlashRequest :
    PortablyDistinguishable backslashRoot IsSlashRequest := by
  constructor
  · rintro request (rfl | rfl)
    · exact countable_backslashSource
    · exact countable_slashSource
  · unfold Fingerprint.IsUnmarked
    rintro request (rfl | rfl)
    · decide +kernel
    · decide +kernel
  · rintro request other (rfl | rfl) (rfl | rfl) -
    · rfl
    · exact message_backslashSource
    · exact message_backslashSource.symm
    · rfl

/-- A cache for the project. -/
def projectConfig : CacheConfig :=
  { limitedConfig 1000 with portable := true, portableRoot := some backslashRoot }

/-- The source with backslashes is compiled. -/
def compilingBackslashes : Action :=
  .getOrCompile backslashSource "1" {} (plainCompiler "1")

/-- What a lookup of one finds, after the other was compiled, is from a source that reads
like it. -/
theorem answers_alike_after_compiling : ∃ cache fs,
    openAt projectConfig emptyDirectory = (.ok cache, fs) ∧
      ∀ bytecode rest,
        (cache.perform fs compilingBackslashes).1.lookup (cache.perform fs compilingBackslashes).2
            (Fingerprint.compute slashSource "1" {} (some backslashRoot)) "1" =
          (some bytecode, rest) →
        ∃ made, Brought backslashRoot [.opened projectConfig, .acted 0 compilingBackslashes]
            made bytecode ∧ made.ReadsLike backslashRoot ⟨slashSource, "1", {}⟩ := by
  obtain ⟨cache, fs, hopen⟩ : ∃ cache fs, openAt projectConfig emptyDirectory = (.ok cache, fs) :=
    openAt_eq_ok makeDirectories_emptyDirectory list_emptyDirectory
  refine ⟨cache, fs, hopen, fun bytecode rest hlookup => ?_⟩
  have hopened : World.ProjectRun backslashRoot IsSlashRequest (.ofString "/c") emptyDirectory
      [.opened projectConfig] (World.after { fs := emptyDirectory } (.opened projectConfig)) :=
    .step (.opened projectConfig) .start ⟨rfl, rfl, rfl, by
      rw [makeDirectories_emptyDirectory]
      exact spoils_emptyDirectory⟩
  have hrun := hopened.step (.acted 0 compilingBackslashes) (Or.inl rfl)
  have hacting : ([] ++ [cache])[0]? = some cache := rfl
  rw [World.after_opened hopen, World.after_acted _ hacting] at hrun
  have hanswers := hrun.answers_alike portablyDistinguishable_isSlashRequest
    grounded_emptyDirectory (fun _ _ hread => absurd hread read_emptyDirectory)
    (List.mem_singleton_self _)
  have hroot : (cache.perform fs compilingBackslashes).1.portableRoot = some backslashRoot := by
    rw [(place_eq_of_settings_eq (settings_perform cache fs _)).2,
      (place_eq_of_settings_eq (settings_openAt hopen)).2]
    rfl
  refine hanswers.2 ⟨slashSource, "1", {}⟩ bytecode rest (Or.inr rfl) ?_
  simp only [fingerprintOf, hroot]
  exact hlookup

end ScriptModules.Cache
