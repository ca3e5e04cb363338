import Mathlib
import ScriptModules.Proofs.Files.RealPath
import ScriptModules.Proofs.Resolver.Belonging

/-!
# Sealed packages

With an `exports` field a package says which of its files bare specifiers lead to, and means
to keep the others to itself.  The resolver asks one package only, the first directory with
the name in front of the specifier.  What is behind the name, and what manifests give for
entry points, is joined to the directory as a path.

So a package is sealed against its own name (`inPackage?_spec`).  It stays so against other
names as long as specifier and manifests go down and into no dependency directory, for then
the file that is found belongs to the package that was asked (`resolve_keepsToExports`).
Otherwise the way may lead out of that package and into a sealed one.  With a scope it takes no
package at all: `@s/..` counts as the name of one, and it is the dependency directory itself.
-/

namespace ScriptModules

namespace Resolver

open FileSystem
open Package (Finder Manifest)
open ScriptModules.Path (IsPiece)

variable {config : Config} {fs : FileSystem} {conditions : List String}
  {package location : Location} {base path found : Path}

/-! ## Files by their names -/

/-- The names in a configuration are names of files, with nothing in them that leads
elsewhere. -/
structure PlainNames (config : Config) : Prop where
  suffixes : ∀ extension ∈ config.extensions, IsSuffix extension
  manifest : IsPiece (Bytes.ofText config.manifestName)
  index : GoesDown config (.ofString config.indexName)

/-- A path leads to a file in a package. -/
structure FileIn (config : Config) (fs : FileSystem) (package : Location) (path : Path) :
    Prop where
  isFile : fs.isFile path = true
  liesIn : LiesIn config package (fs.locate path)

theorem of_file?_eq_some (h : file? config fs path = some found) :
    fs.isFile found = true ∧
      (found = path ∨ ∃ extension ∈ config.extensions, found = path.append extension) := by
  refine ⟨List.find?_some h, ?_⟩
  have hmem := List.mem_of_find?_eq_some h
  rw [List.mem_cons, List.mem_map] at hmem
  refine hmem.imp_right ?_
  rintro ⟨extension, hextension, heq⟩
  exact ⟨extension, hextension, heq.symm⟩

theorem file?_fileIn (hplain : PlainNames config) (hb : Below config package (fs.locate base))
    (hpath : GoesDown config path) (h : file? config fs (base.join path) = some found) :
    FileIn config fs package found := by
  obtain ⟨hfile, rfl | ⟨extension, hextension, rfl⟩⟩ := of_file?_eq_some h
  · exact ⟨hfile, (hb.join hpath).liesIn⟩
  · exact ⟨hfile, hb.append hpath (hplain.suffixes extension hextension)⟩

theorem entryFile?_fileIn (hplain : PlainNames config)
    (hb : Below config package (fs.locate base)) (hpath : GoesDown config path)
    (h : entryFile? config fs (base.join path) = some found) :
    FileIn config fs package found := by
  unfold entryFile? at h
  split at h
  · rename_i file hfile
    cases h
    exact file?_fileIn hplain hb hpath hfile
  · split at h
    · exact file?_fileIn hplain (hb.join hpath) hplain.index h
    · cases h

/-! ## Manifests -/

/-- The manifest in a directory, read now. -/
def manifestOf (config : Config) (fs : FileSystem) (directory : Path) : Option Manifest :=
  (Manifest.load fs (directory.join (.ofString config.manifestName))).toOption

/-- What manifests at or below a location give under the conditions only goes down. -/
def TargetsGoDown (config : Config) (fs : FileSystem) (conditions : List String)
    (package : Location) : Prop :=
  ∀ directory manifest target, package <+: fs.locate directory →
    manifestOf config fs directory = some manifest →
    (manifest.entryPoint? conditions = some target ∨
      ∃ subpath, manifest.export? subpath conditions = some target) →
    GoesDown config (.ofString target)

/-- The manifests a finder remembers were read at or below a location. -/
structure ReadsBelow (config : Config) (fs : FileSystem) (package : Location)
    (finder : Finder) : Prop where
  fileName : finder.fileName = .ofString config.manifestName
  known : ∀ place manifest, finder.manifests.lookup place = some (some manifest) →
    ∃ directory, package <+: fs.locate directory ∧
      manifestOf config fs directory = some manifest

theorem readsBelow_ofName (config : Config) (fs : FileSystem) (package : Location) :
    ReadsBelow config fs package (.ofName config.manifestName) :=
  ⟨rfl, fun _ _ hnever => nomatch hnever⟩

/-- Whether a manifest is well-formed is a matter of the contents of its file. -/
theorem of_load_eq_ok {manifest : Manifest} (h : Manifest.load fs path = .ok manifest) :
    ∃ content, fs.read path = .ok content ∧
      ∀ other, fs.read other = .ok content → Manifest.load fs other = .ok manifest := by
  unfold Manifest.load readText at h
  cases hread : fs.read path with
  | error e =>
      rw [hread] at h
      cases h
  | ok content =>
      refine ⟨content, rfl, fun other hother => ?_⟩
      unfold Manifest.load readText
      rw [hother]
      rw [hread] at h
      cases htext : Bytes.text? content with
      | none =>
          simp only [bind, Except.bind, htext] at h
          cases h
      | some text =>
          simp only [bind, Except.bind, htext, pure, Except.pure] at h ⊢
          cases htyped : Manifest.ofText text with
          | error fault =>
              rw [htyped] at h
              cases h
          | ok other =>
              rw [htyped] at h
              exact h

theorem manifestOf_eq_some_iff {directory : Path} {manifest : Manifest} :
    manifestOf config fs directory = some manifest ↔
      Manifest.load fs (directory.join (.ofString config.manifestName)) = .ok manifest := by
  unfold manifestOf
  cases Manifest.load fs (directory.join (.ofString config.manifestName)) <;> simp [Except.toOption]

/-- What is no file is no manifest either. -/
theorem toOption_load (fs : FileSystem) (path : Path) :
    (if fs.isFile path then (Manifest.load fs path).toOption else none) =
      (Manifest.load fs path).toOption := by
  cases hload : Manifest.load fs path with
  | error e => split <;> rfl
  | ok manifest =>
      obtain ⟨content, hread, -⟩ := of_load_eq_ok hload
      rw [if_pos (isFile_of_read hread)]

theorem manifestIn_ofName (config : Config) (fs : FileSystem) (directory : Path) :
    ((Finder.ofName config.manifestName).manifestIn fs directory).1 =
      manifestOf config fs directory :=
  toOption_load fs _

/-- A manifest that is asked for is one of those at or below the location, and so are those
that are remembered then. -/
theorem ReadsBelow.manifestIn {finder : Finder} (h : ReadsBelow config fs package finder)
    {directory : Path} (hd : package <+: fs.locate directory) :
    ReadsBelow config fs package (finder.manifestIn fs directory).2 ∧
      ∀ manifest, (finder.manifestIn fs directory).1 = some manifest →
        ∃ place, package <+: fs.locate place ∧ manifestOf config fs place = some manifest := by
  unfold Finder.manifestIn Finder.manifestAt
  rw [h.fileName]
  cases hlookup : finder.manifests.lookup
      (directory.join (.ofString config.manifestName)).components with
  | some answer =>
      refine ⟨h, ?_⟩
      rintro manifest rfl
      exact h.known _ manifest hlookup
  | none =>
      dsimp only
      rw [toOption_load, ← manifestOf]
      refine ⟨⟨rfl, ?_⟩, fun manifest hmanifest => ⟨directory, hd, hmanifest⟩⟩
      intro place manifest hplace
      rw [List.lookup_cons] at hplace
      split at hplace
      · exact ⟨directory, hd, Option.some.inj hplace⟩
      · exact h.known place manifest hplace

/-! ## Searches -/

section Searches

variable (hplain : PlainNames config) (htargets : TargetsGoDown config fs conditions package)
include hplain htargets

theorem directory?_fileIn {finder : Finder} (hfinder : ReadsBelow config fs package finder)
    (hb : Below config package (fs.locate base))
    (h : (directory? config fs conditions base finder).1 = some found) :
    FileIn config fs package found := by
  obtain ⟨-, hknown⟩ := hfinder.manifestIn hb.isPrefix
  simp only [directory?, bind, StateT.bind] at h
  cases hentry : ((finder.manifestIn fs base).1.bind fun m => m.entryPoint? conditions).bind
      fun target => entryFile? config fs (base.join (.ofString target)) with
  | some path =>
      rw [hentry] at h
      cases h
      obtain ⟨target, htarget, hpath⟩ := Option.bind_eq_some_iff.mp hentry
      obtain ⟨manifest, hmanifest, hpoint⟩ := Option.bind_eq_some_iff.mp htarget
      obtain ⟨place, hplace, hread⟩ := hknown manifest hmanifest
      exact entryFile?_fileIn hplain hb
        (htargets place manifest target hplace hread (Or.inl hpoint)) hpath
  | none =>
      rw [hentry] at h
      exact file?_fileIn hplain hb hplain.index h

theorem path?_fileIn {finder : Finder} (hfinder : ReadsBelow config fs package finder)
    (hb : Below config package (fs.locate base)) (hpath : GoesDown config path)
    (h : (path? config fs conditions (base.join path) finder).1 = some found) :
    FileIn config fs package found := by
  unfold path? at h
  cases hfile : file? config fs (base.join path) with
  | some file =>
      rw [hfile] at h
      cases h
      exact file?_fileIn hplain hb hpath hfile
  | none =>
      simp only [hfile] at h
      split at h
      · exact directory?_fileIn hplain htargets hfinder (hb.join hpath) h
      · cases h

/-- What a package gives lies in it, and if it has an `exports` field, this lists it. -/
theorem inPackage?_spec {inside : Option String} (hpackage : fs.locate base = package)
    (hinside : ∀ text, inside = some text → GoesDown config (.ofString text))
    (h : (inPackage? config fs conditions base inside (.ofName config.manifestName)).1 =
      some found) :
    FileIn config fs package found ∧
      ∀ manifest, manifestOf config fs base = some manifest → manifest.exports.isSome →
        ∃ subpath target, manifest.export? subpath conditions = some target ∧
          file? config fs (base.join (.ofString target)) = some found := by
  have hb : Below config package (fs.locate base) := hpackage ▸ Below.refl config package
  obtain ⟨hfinder, -⟩ := (readsBelow_ofName config fs package).manifestIn hb.isPrefix
  simp only [inPackage?, bind, StateT.bind, manifestIn_ofName] at h
  cases hmanifest : (manifestOf config fs base).filter fun m => m.exports.isSome with
  | some manifest =>
      -- The exports decide.
      rw [hmanifest] at h
      obtain ⟨hread, hexports⟩ := Option.filter_eq_some_iff.mp hmanifest
      obtain ⟨target, htarget, hfile⟩ := Option.bind_eq_some_iff.mp h
      refine ⟨file?_fileIn hplain hb ?_ hfile, ?_⟩
      · exact htargets base manifest target hb.isPrefix hread (Or.inr ⟨_, htarget⟩)
      · intro other hother _
        obtain rfl : manifest = other := Option.some.inj (hread.symm.trans hother)
        exact ⟨_, target, htarget, hfile⟩
  | none =>
      rw [hmanifest] at h
      refine ⟨?_, fun manifest hread hexports => ?_⟩
      · cases inside with
        | some text => exact path?_fileIn hplain htargets hfinder hb (hinside text rfl) h
        | none => exact directory?_fileIn hplain htargets hfinder hb h
      · rw [hread, Option.filter_some_pos (by simpa using hexports)] at hmanifest
        cases hmanifest

end Searches

/-- The first place that has the package decides, as a directory or as a single file. -/
theorem inPlaces?_cases {name : String} {inside : Option String} {places : List Path}
    {finder : Finder} {answer : Option Path}
    (h : (inPlaces? config fs conditions name inside places finder).1 = some answer) :
    ∃ place ∈ places,
      (fs.isDirectory (place.join (.ofString name)) = true ∧
        answer = (inPackage? config fs conditions (place.join (.ofString name)) inside finder).1) ∨
      ∃ file, answer = some file ∧ file? config fs (place.join (.ofString name)) = some file := by
  induction places with
  | nil => cases h
  | cons place places ih =>
      rw [inPlaces?] at h
      by_cases hd : fs.isDirectory (place.join (.ofString name)) = true
      · simp only [hd, if_true] at h
        cases h
        exact ⟨place, List.mem_cons_self, Or.inl ⟨hd, rfl⟩⟩
      · simp only [hd] at h
        cases hfile : if inside.isNone then file? config fs (place.join (.ofString name)) else none with
        | some file =>
            rw [hfile] at h
            cases h
            refine ⟨place, List.mem_cons_self, Or.inr ⟨file, rfl, ?_⟩⟩
            split at hfile
            · exact hfile
            · cases hfile
        | none =>
            rw [hfile] at h
            obtain ⟨other, hmem, hother⟩ := ih h
            exact ⟨other, List.mem_cons_of_mem place hmem, hother⟩

/-- A specifier that is no name of a built-in module, no URL and no path. -/
structure IsBare (resolver : Resolver) (specifier : String) : Prop where
  notBuiltin : resolver.builtinName? specifier = none
  notUrl : url? specifier = none
  notPath : isPath specifier = false

/-- A bare specifier resolves to what one of the places for packages gives, if there are no
search paths. -/
theorem IsBare.resolve {resolver : Resolver} {specifier : String} {context : ResolveContext}
    {resolution : Resolution} (hbare : IsBare resolver specifier)
    (hsearch : resolver.config.searchPaths = [])
    (hr : (resolver.resolve fs specifier context).1 = .ok resolution) :
    ∃ path, resolution.url = (canonical fs path).toString ∧
      (inPlaces? resolver.config fs context.conditions (splitPackage specifier).1
        (splitPackage specifier).2 (dependencyPlaces resolver.config context.base)
        resolver.manifests).1 = some (some path) := by
  have hfound : found? resolver.config fs specifier context resolver.manifests =
      (.ok (bare? resolver.config fs specifier context resolver.manifests).1,
        (bare? resolver.config fs specifier context resolver.manifests).2) := by
    unfold found?
    rw [hbare.notUrl]
    simp only [hbare.notPath]
    rfl
  simp only [Resolver.resolve, hbare.notBuiltin, hfound] at hr
  split at hr
  · cases hr
  · cases hpath : (bare? resolver.config fs specifier context resolver.manifests).1 with
    | none =>
        rw [hpath] at hr
        cases hr
    | some path =>
        rw [hpath] at hr
        cases hr
        refine ⟨path, rfl, ?_⟩
        simp only [bare?, bind, StateT.bind, hsearch] at hpath
        cases hplaces : inPlaces? resolver.config fs context.conditions (splitPackage specifier).1
            (splitPackage specifier).2 (dependencyPlaces resolver.config context.base)
            resolver.manifests with
        | mk answer later =>
            rw [hplaces] at hpath
            cases answer with
            | none => cases hpath
            | some file =>
                cases hpath
                rfl

/-! ## The package that decides -/

/-- A path whose pieces are all names. -/
structure HasPieces (path : Path) (pieces : List Name) : Prop where
  split : Path.split path.bytes = pieces
  isPiece : ∀ piece ∈ pieces, IsPiece piece

theorem HasPieces.relative {pieces : List Name} (h : HasPieces path pieces) :
    path.isAbsolute = false := by
  cases hsplit : Path.split path.bytes with
  | nil => exact absurd hsplit (Path.split_ne_nil _)
  | cons first rest =>
      refine Path.isAbsolute_eq_false hsplit (h.isPiece first ?_).ne_nil
      rw [← h.split, hsplit]
      exact List.mem_cons_self

theorem HasPieces.stepsTo {pieces : List Name} (h : HasPieces path pieces) :
    stepsTo path = pieces.map .down := by
  obtain ⟨hsplit, hpieces⟩ := h
  rw [FileSystem.stepsTo, hsplit]
  clear hsplit
  induction pieces with
  | nil => rfl
  | cons piece pieces ih =>
      rw [List.filterMap_cons_some (Step.ofPiece?_of_isPiece (hpieces piece List.mem_cons_self)),
        ih fun other hother => hpieces other (List.mem_cons_of_mem piece hother), List.map_cons]

/-- Such a path goes down by its pieces. -/
theorem HasPieces.locate_join {pieces : List Name} (h : HasPieces path pieces) (base : Path) :
    fs.locate (base.join path) = fs.locate base ++ pieces := by
  have hup : .up ∉ FileSystem.stepsTo path := by
    rw [h.stepsTo]
    simp
  have hnames : namesOf (FileSystem.stepsTo path) = pieces := by
    rw [h.stepsTo, namesOf, List.filterMap_map]
    exact List.filterMap_some
  rw [FileSystem.locate_join, h.relative, if_neg Bool.false_ne_true, landing_eq_append hup, hnames]

/-- Such a path ends in a name, also when it is seen from a directory. -/
theorem HasPieces.stepsOf_join {pieces : List Name} (h : HasPieces path pieces) (base : Path) :
    (base.join path).bytes.getLast? ≠ some Path.slash ∧
      ∃ steps name, stepsOf (base.join path) = steps ++ [.down name] := by
  have hne : pieces ≠ [] := fun hnil => Path.split_ne_nil path.bytes (h.split.trans hnil)
  have hpieces := List.dropLast_concat_getLast hne
  have hlast := h.isPiece _ (List.getLast_mem hne)
  have hnonempty : path.bytes ≠ [] := by
    intro hnil
    have hempty := h.split
    rw [hnil] at hempty
    exact (h.isPiece [] (by rw [← hempty]; exact List.mem_singleton_self [])).ne_nil rfl
  have hend : (base.join path).bytes.getLast? ≠ some Path.slash := by
    rw [getLast?_join base h.relative hnonempty]
    exact Path.getLast?_ne_slash (h.split.trans hpieces.symm) hlast.ne_nil
  refine ⟨hend, FileSystem.stepsTo base ++ pieces.dropLast.map .down, pieces.getLast hne, ?_⟩
  have hsteps : stepsOf (base.join path) = FileSystem.stepsTo (base.join path) := by
    rw [stepsOf, if_neg hend, FileSystem.stepsTo]
  rw [hsteps, stepsTo_join base h.relative, h.stepsTo, List.append_assoc]
  congr 1
  conv => lhs; rw [← hpieces, List.map_append]
  rfl

theorem isPiece_append {name suffix : Bytes} (h : IsPiece name) (hsuffix : Path.slash ∉ suffix) :
    IsPiece (name ++ suffix) := by
  have hnil := h.ne_nil
  have hpoint := h.ne_point
  have hpoints := h.ne_points
  refine ⟨by simp [hnil], by simp [h.slash_notMem, hsuffix], ?_, ?_⟩
  · intro heq
    rcases List.append_eq_singleton_iff.mp heq with ⟨hempty, -⟩ | ⟨hname, -⟩
    · exact hnil hempty
    · exact hpoint hname
  · rcases name with - | ⟨first, - | ⟨second, rest⟩⟩
    · exact absurd rfl hnil
    · intro heq
      exact hpoint (by rw [(List.cons.inj heq).1])
    · intro heq
      have hrest : rest ++ suffix = [] := (List.cons.inj (List.cons.inj heq).2).2
      apply hpoints
      rw [← heq, (List.append_eq_nil_iff.mp hrest).2, List.append_nil]

/-- With an extension the name of a package is that of a file beside it. -/
theorem HasPieces.append {pieces : List Name} (h : HasPieces path pieces)
    (hn : IsPackageName pieces) {suffix : String} (hsuffix : Path.slash ∉ Bytes.ofText suffix) :
    ∃ others, HasPieces (path.append suffix) others ∧ IsPackageName others := by
  obtain ⟨before, last, hsplit, happend⟩ := Path.split_append hsuffix path.bytes
  have hpieces : pieces = before ++ [last] := h.split.symm.trans hsplit
  have hlast : IsPiece last := h.isPiece last (by simp [hpieces])
  refine ⟨before ++ [last ++ Bytes.ofText suffix], ⟨happend, ?_⟩, ?_⟩
  · intro piece hpiece
    rw [List.mem_append, List.mem_singleton] at hpiece
    rcases hpiece with hbefore | rfl
    · exact h.isPiece piece (by simp [hpieces, hbefore])
    · exact isPiece_append hlast hsuffix
  · cases hn with
    | plain name hplain =>
        have heq : before ++ [last] = [] ++ [name] := hpieces.symm
        obtain ⟨rfl, rfl⟩ := List.append_singleton_inj.mp heq
        rw [List.head?_eq_some_head hlast.ne_nil] at hplain
        refine .plain _ ?_
        rw [List.head?_append, List.head?_eq_some_head hlast.ne_nil]
        exact hplain
    | inScope scope name hscope =>
        have heq : before ++ [last] = [scope] ++ [name] := hpieces.symm
        obtain ⟨rfl, rfl⟩ := List.append_singleton_inj.mp heq
        exact .inScope scope _ hscope

/-! ## The promise -/

/-- A manifest of a package that has an `exports` field. -/
def Seals (config : Config) (fs : FileSystem) (manifest : Manifest) (package : Location) : Prop :=
  ∃ directory, fs.DirectoryAt directory package ∧
    manifestOf config fs directory = some manifest ∧ manifest.exports.isSome

/-- Under some subpath the exports of a package name a file. -/
def Lists (config : Config) (fs : FileSystem) (conditions : List String) (manifest : Manifest)
    (package location : Location) : Prop :=
  ∃ directory subpath target path, fs.DirectoryAt directory package ∧
    manifest.export? subpath conditions = some target ∧
    file? config fs (directory.join (.ofString target)) = some path ∧ fs.FileAt path location

/-- If the package a file belongs to has an `exports` field, this lists the file. -/
def KeepsToExports (config : Config) (fs : FileSystem) (conditions : List String)
    (location : Location) : Prop :=
  ∀ package manifest, BelongsTo config location package → Seals config fs manifest package →
    Lists config fs conditions manifest package location

/-- A file that is a package of its own belongs to no other one. -/
theorem keepsToExports_of_isPackage (h : IsPackage config location)
    (hfile : fs.FileAt found location) : KeepsToExports config fs conditions location := by
  rintro package manifest hbelongs ⟨directory, hdirectory, -⟩
  have hle := hbelongs.innermost location h (List.prefix_refl location)
  obtain rfl : package = location :=
    hbelongs.isPrefix.eq_of_length (Nat.le_antisymm hbelongs.isPrefix.length_le hle)
  obtain ⟨content, time, hfind⟩ := hfile
  have hdir := (placeOf_of_find hdirectory).2
  rw [(placeOf_of_find hfind).2] at hdir
  cases hdir

/-- A specifier that names a package and goes down in it. -/
structure NamesPackage (config : Config) (specifier : String) : Prop where
  /-- In front stands the name of a package, not a scope alone and nothing like `..`. -/
  name : ∃ pieces, HasPieces (.ofString (splitPackage specifier).1) pieces ∧
    IsPackageName pieces ∧ ∀ piece ∈ pieces, Apart config piece
  /-- The path behind it stays in the package. -/
  inside : ∀ text, (splitPackage specifier).2 = some text → GoesDown config (.ofString text)

/-- The manifests of a package point into it, and the path of its own is not too long to be
read. -/
structure Orderly (config : Config) (fs : FileSystem) (conditions : List String)
    (directory : Path) : Prop where
  targets : TargetsGoDown config fs conditions (fs.locate directory)
  short : (directory.join (.ofString config.manifestName)).bytes.length ≤ pathLimit

theorem keepsToExports_of_inPackage? (hlinks : fs.LinkFree) (hplain : PlainNames config)
    {place name : Path} {pieces : List Name} {inside : Option String}
    (hplace : IsDependencyDirectory config (fs.locate place)) (hpieces : HasPieces name pieces)
    (hname : IsPackageName pieces) (hapart : ∀ piece ∈ pieces, Apart config piece)
    (hinside : ∀ text, inside = some text → GoesDown config (.ofString text))
    (horderly : Orderly config fs conditions (place.join name))
    (hd : fs.isDirectory (place.join name) = true)
    (h : (inPackage? config fs conditions (place.join name) inside
      (.ofName config.manifestName)).1 = some found) :
    fs.FileAt found (fs.locate found) ∧ KeepsToExports config fs conditions (fs.locate found) := by
  obtain ⟨hin, hlists⟩ := inPackage?_spec hplain horderly.targets rfl hinside h
  have hfile := hlinks.fileAt hin.isFile
  refine ⟨hfile, ?_⟩
  rintro package manifest hbelongs ⟨directory, hdirectory, hread, hexports⟩
  have hliesIn := hin.liesIn
  rw [hpieces.locate_join] at hliesIn
  obtain rfl : package = fs.locate place ++ pieces := hbelongs.eq_of_liesIn hplace hname hapart hliesIn
  obtain ⟨hend, steps, last, hsteps⟩ := hpieces.stepsOf_join place
  have hhere : fs.DirectoryAt (place.join name) (fs.locate place ++ pieces) := by
    rw [← hpieces.locate_join]
    exact hlinks.directoryAt hsteps hd
  have hsame : manifestOf config fs (place.join name) = some manifest := by
    rw [manifestOf_eq_some_iff] at hread ⊢
    obtain ⟨content, hcontent, hload⟩ := of_load_eq_ok hread
    exact hload _
      (hlinks.read_join hplain.manifest hdirectory hhere hend horderly.short hcontent)
  obtain ⟨subpath, target, htarget, hfound⟩ := hlists manifest hsame hexports
  exact ⟨_, subpath, target, found, hhere, htarget, hfound, hfile⟩

/-- **Exports seal a package** against specifiers that name a package and go down in it, if
the manifests of the packages of this name point into them: the file such a specifier resolves
to is listed by the package it belongs to, where that has an `exports` field. -/
theorem resolve_keepsToExports {resolver : Resolver} {specifier : String}
    {context : ResolveContext} {resolution : Resolution} (hlinks : fs.LinkFree)
    (hsearch : resolver.config.searchPaths = [])
    (hnew : resolver.manifests = .ofName resolver.config.manifestName)
    (hplain : PlainNames resolver.config) (hbare : IsBare resolver specifier)
    (hname : NamesPackage resolver.config specifier)
    (horderly : ∀ place ∈ dependencyPlaces resolver.config context.base,
      Orderly resolver.config fs context.conditions
        (place.join (.ofString (splitPackage specifier).1)))
    (hr : (resolver.resolve fs specifier context).1 = .ok resolution) :
    ∃ path location, resolution.url = (canonical fs path).toString ∧ fs.FileAt path location ∧
      KeepsToExports resolver.config fs context.conditions location := by
  obtain ⟨path, hurl, hplaces⟩ := hbare.resolve hsearch hr
  obtain ⟨pieces, hpieces, hpackage, hapart⟩ := hname.name
  rw [hnew] at hplaces
  refine ⟨path, fs.locate path, hurl, ?_⟩
  obtain ⟨place, hmem, ⟨hd, hanswer⟩ | ⟨file, hanswer, hfile⟩⟩ := inPlaces?_cases hplaces
  · exact keepsToExports_of_inPackage? hlinks hplain (isDependencyDirectory_of_mem hmem) hpieces
      hpackage hapart hname.inside (horderly place hmem) hd hanswer.symm
  · -- A single file is a package of its own.
    cases hanswer
    obtain ⟨hisFile, hspelled⟩ := of_file?_eq_some hfile
    have hat := hlinks.fileAt hisFile
    refine ⟨hat, keepsToExports_of_isPackage ?_ hat⟩
    have hdependency : IsDependencyDirectory resolver.config (fs.locate place) :=
      isDependencyDirectory_of_mem hmem
    rcases hspelled with rfl | ⟨extension, hextension, rfl⟩
    · exact ⟨_, pieces, hdependency, hpackage, hpieces.locate_join place⟩
    · have hslash := (hplain.suffixes extension hextension).slash_notMem
      obtain ⟨others, hothers, hpackage'⟩ := hpieces.append hpackage hslash
      rw [Path.append_join place hpieces.relative hslash]
      exact ⟨_, others, hdependency, hpackage', hothers.locate_join place⟩

/-! ## A way around -/

/-- The manifest of a package that exports one file. -/
def sealingText : String := "\x7b\"exports\":\"./a.js\"\x7d"

/-- The dependency directory of `/p`. -/
def dependencies : Location := [Bytes.ofText "p", Bytes.ofText "node_modules"]

/-- The location of a file of the package `s`. -/
def inSealed (name : String) : Location :=
  dependencies ++ [Bytes.ofText "s", Bytes.ofText name]

/-- A package `s` that exports `a.js` and has a file `b.js` besides, next to an empty
package `r`. -/
def sealedFiles : FileSystem :=
  { FileSystem.empty with nodes := [
      ([Bytes.ofText "p"], .directory),
      (dependencies, .directory),
      (dependencies ++ [Bytes.ofText "r"], .directory),
      (dependencies ++ [Bytes.ofText "s"], .directory),
      (inSealed "package.json", .file (Bytes.ofText sealingText) ⟨0, 0⟩),
      (inSealed "a.js", .file [] ⟨0, 0⟩),
      (inSealed "b.js", .file [] ⟨0, 0⟩)] }

/-- The manifest of the package. -/
def sealingManifest : Manifest := { exports := some (.string "./a.js") }

/-- A request made in `/p`. -/
def requestFor (specifier : String) : ResolveContext :=
  { specifier, base := .ofString "/p", conditions := ["require"], isMain := true }

theorem linkFree_sealedFiles : sealedFiles.LinkFree := by
  refine linkFree_of_nodes fun entry hentry target => ?_
  simp only [sealedFiles, List.mem_cons, List.not_mem_nil, or_false] at hentry
  rcases hentry with rfl | rfl | rfl | rfl | rfl | rfl | rfl <;> exact Node.noConfusion

/-- There are three files. -/
theorem of_node?_sealedFiles {location : Location} {content : Bytes} {time : Timestamp}
    (h : sealedFiles.node? location = some (.file content time)) :
    location = inSealed "package.json" ∧ content = Bytes.ofText sealingText ∨
      location = inSealed "a.js" ∧ content = [] ∨ location = inSealed "b.js" ∧ content = [] := by
  unfold node? at h
  split at h
  · cases h
  · have hmem := Association.mem_of_lookup h
    simp only [sealedFiles, List.mem_cons, Prod.mk.injEq, reduceCtorEq, and_false, false_or,
      Node.file.injEq, List.not_mem_nil, or_false] at hmem
    rcases hmem with ⟨hl, hc, -⟩ | ⟨hl, hc, -⟩ | ⟨hl, hc, -⟩
    · exact Or.inl ⟨hl, hc⟩
    · exact Or.inr (Or.inl ⟨hl, hc⟩)
    · exact Or.inr (Or.inr ⟨hl, hc⟩)

theorem ofText_sealingText : Manifest.ofText sealingText = .ok sealingManifest := by
  cbv

/-- All manifests there are say the same. -/
theorem eq_of_manifestOf {directory : Path} {manifest : Manifest}
    (h : manifestOf {} sealedFiles directory = some manifest) : manifest = sealingManifest := by
  rw [manifestOf_eq_some_iff, Manifest.load, readText] at h
  cases hread : sealedFiles.read (directory.join (.ofString ({} : Config).manifestName)) with
  | error e =>
      rw [hread] at h
      cases h
  | ok content =>
      obtain ⟨place, time, -, -, hnode⟩ := read_eq_ok_iff.mp hread
      have htext : Bytes.text? content = some sealingText ∨ Bytes.text? content = some "" := by
        rcases of_node?_sealedFiles hnode with ⟨-, rfl⟩ | ⟨-, rfl⟩ | ⟨-, rfl⟩
        · exact Or.inl (by decide +kernel)
        · exact Or.inr (by decide +kernel)
        · exact Or.inr (by decide +kernel)
      rw [hread] at h
      simp only [bind, Except.bind, pure, Except.pure] at h
      rcases htext with htext | htext
      · rw [htext] at h
        simp only [ofText_sealingText, Except.ok.injEq] at h
        exact h.symm
      · rw [htext] at h
        have hempty : Manifest.ofText "" = .error .notJson := by cbv
        simp only [hempty] at h
        cases h

theorem of_export? {subpath target : String} {conditions : List String}
    (h : sealingManifest.export? subpath conditions = some target) : target = "./a.js" := by
  have hexports : sealingManifest.export? subpath conditions =
      if subpath = "." then some "./a.js" else none := rfl
  rw [hexports] at h
  split at h
  · exact (Option.some.inj h).symm
  · cases h

/-- The usual names of packages and files are apart from those of dependency directories. -/
theorem apart_default {name : Name} (h : Bytes.ofText "node_modules" ≠ name) :
    Apart {} name := by
  refine apart_of_ne fun text htext => ?_
  obtain rfl : text = "node_modules" := by simpa using htext
  exact ⟨⟨by decide, by decide, by decide, by decide⟩, h⟩

theorem goesDown_default {path : Path} (name : Name) (hr : path.isAbsolute = false)
    (hs : stepsTo path = [.stay, .down name] ∨ stepsTo path = [.down name])
    (h : Bytes.ofText "node_modules" ≠ name) : GoesDown {} path := by
  refine ⟨hr, ?_, fun other hother => ?_⟩
  · rcases hs with hs | hs <;> simp [hs]
  · obtain rfl : other = name := by
      rcases hs with hs | hs <;> simpa [hs] using hother
    exact apart_default h

theorem plainNames_default : PlainNames {} := by
  refine ⟨fun extension hextension => ?_, ⟨by decide, by decide, by decide, by decide⟩, ?_⟩
  · have hall : ∀ extension ∈ ({} : Config).extensions,
        Path.slash ∉ Bytes.ofText extension ∧ Bytes.ofText extension ≠ [Path.point] ∧
          Bytes.ofText extension ≠ [Path.point, Path.point] := by decide
    obtain ⟨hslash, hpoint, hpoints⟩ := hall extension hextension
    exact ⟨hslash, hpoint, hpoints⟩
  · exact goesDown_default (Bytes.ofText "index") rfl (Or.inr (by decide)) (by decide)

theorem targetsGoDown_sealedFiles (conditions : List String) (package : Location) :
    TargetsGoDown {} sealedFiles conditions package := by
  intro directory manifest target _ hmanifest htarget
  obtain rfl := eq_of_manifestOf hmanifest
  obtain rfl : target = "./a.js" := by
    rcases htarget with hentry | ⟨subpath, hexport⟩
    · cases hpoint : sealingManifest.export? "." conditions with
      | none => cases hpoint
      | some answer =>
          rw [Manifest.entryPoint?, hpoint] at hentry
          cases hentry
          exact of_export? hpoint
    · exact of_export? hexport
  exact goesDown_default (Bytes.ofText "a.js") rfl (Or.inl (by decide)) (by decide)

/-- A specifier that resolves to a URL. -/
theorem resolve_of_url {specifier url : String} {context : ResolveContext} {resolver : Resolver}
    (h : (resolver.resolve fs specifier context).1.toOption.map (·.url) = some url) :
    ∃ resolution, (resolver.resolve fs specifier context).1 = .ok resolution ∧
      resolution.url = url := by
  cases hresolve : (resolver.resolve fs specifier context).1 with
  | error e =>
      rw [hresolve] at h
      cases h
  | ok resolution =>
      rw [hresolve] at h
      exact ⟨resolution, rfl, Option.some.inj h⟩

/-- The package is sealed against its own name. -/
theorem keepsToExports_ownName : ∃ resolution,
    ((Resolver.ofConfig {}).resolve sealedFiles "s" (requestFor "s")).1 = .ok resolution ∧
      ∃ path location, resolution.url = (canonical sealedFiles path).toString ∧
        sealedFiles.FileAt path location ∧
        KeepsToExports {} sealedFiles ["require"] location := by
  obtain ⟨resolution, hresolve, -⟩ := @resolve_of_url sealedFiles "s" "/p/node_modules/s/a.js"
    (requestFor "s") (Resolver.ofConfig {}) (by decide +kernel)
  have hsplit : splitPackage "s" = ("s", none) := by decide +kernel
  refine ⟨resolution, hresolve, resolve_keepsToExports linkFree_sealedFiles rfl rfl
    plainNames_default ⟨by decide +kernel, by decide +kernel, by decide +kernel⟩ ⟨?_, ?_⟩ ?_
    hresolve⟩
  · refine ⟨[Bytes.ofText "s"], ⟨by decide +kernel, ?_⟩, .plain _ (by decide), ?_⟩
    · intro piece hpiece
      rw [List.mem_singleton.mp hpiece]
      exact ⟨by decide, by decide, by decide, by decide⟩
    · intro piece hpiece
      rw [List.mem_singleton.mp hpiece]
      exact apart_default (by decide)
  · intro text htext
    rw [hsplit] at htext
    cases htext
  · intro place hplace
    rw [hsplit]
    refine ⟨targetsGoDown_sealedFiles _ _, ?_⟩
    have hall : ∀ place ∈ dependencyPlaces {} (.ofString "/p"),
        ((place.join (.ofString "s")).join (.ofString "package.json")).bytes.length ≤ pathLimit := by
      decide +kernel
    exact hall place hplace

/-- The file that is not exported belongs to the package all the same. -/
theorem belongsTo_sealed : BelongsTo {} (inSealed "b.js") (dependencies ++ [Bytes.ofText "s"]) := by
  have hname : ∀ directory, IsDependencyDirectory {} directory →
      directory.getLast? = some (Bytes.ofText "node_modules") := by
    rintro directory ⟨text, htext, above, rfl⟩
    obtain rfl : text = "node_modules" := by simpa using htext
    have hsteps : stepsTo (.ofString "node_modules") = [.down (Bytes.ofText "node_modules")] := by
      decide
    rw [hsteps]
    simp [landing, Step.landing]
  refine ⟨?_, ⟨[Bytes.ofText "b.js"], rfl⟩, ?_⟩
  · exact ⟨dependencies, [Bytes.ofText "s"], ⟨"node_modules", by decide, [Bytes.ofText "p"],
      by decide⟩, .plain _ (by decide), rfl⟩
  · rintro other ⟨directory, name, hdirectory, hpackage, rfl⟩ hprefix
    have hlast := hname directory hdirectory
    refine Nat.le_of_not_lt fun hlong => ?_
    -- Only the file itself is deeper down, and it stands in no dependency directory.
    have hall : directory ++ name = inSealed "b.js" := by
      refine hprefix.eq_of_length (Nat.le_antisymm hprefix.length_le ?_)
      exact hlong
    cases hpackage with
    | plain piece _ =>
        have hdir : directory = (inSealed "b.js").dropLast := by rw [← hall, List.dropLast_concat]
        rw [hdir] at hlast
        exact absurd hlast (by decide)
    | inScope scope piece hscope =>
        have hhead : scope = Bytes.ofText "s" := by
          have hfront := congrArg List.dropLast hall
          rw [show directory ++ [scope, piece] = (directory ++ [scope]) ++ [piece] by simp,
            List.dropLast_concat] at hfront
          have hend := congrArg List.getLast? hfront
          rw [List.getLast?_concat] at hend
          exact Option.some.inj (hend.trans (by decide))
        rw [hhead] at hscope
        exact absurd hscope (by decide)

/-- It is not listed. -/
theorem not_lists_sealed (conditions : List String) :
    ¬ Lists {} sealedFiles conditions sealingManifest (dependencies ++ [Bytes.ofText "s"])
      (inSealed "b.js") := by
  rintro ⟨directory, subpath, target, path, hdirectory, htarget, hfile, content, time, hfind⟩
  obtain rfl := of_export? htarget
  have hlocation := linkFree_sealedFiles.location_of_find hdirectory
  have hplace := linkFree_sealedFiles.location_of_find hfind
  obtain ⟨-, hspelled⟩ := of_file?_eq_some hfile
  have hsteps : ∃ name, stepsTo path = stepsTo directory ++ [.stay, .down name] ∧
      (directory.join (.ofString "./a.js")).isAbsolute = path.isAbsolute ∧
      name ≠ Bytes.ofText "b.js" := by
    rcases hspelled with rfl | ⟨extension, hextension, rfl⟩
    · refine ⟨Bytes.ofText "a.js", ?_, rfl, by decide⟩
      rw [stepsTo_join directory (by decide)]
      congr 1
    · have hall : ∀ extension ∈ ({} : Config).extensions,
          Path.slash ∉ Bytes.ofText extension ∧
            stepsTo ((Path.ofString "./a.js").append extension) =
              [.stay, .down (Bytes.ofText "a.js" ++ Bytes.ofText extension)] ∧
            ((Path.ofString "./a.js").append extension).isAbsolute = false ∧
            Bytes.ofText "a.js" ++ Bytes.ofText extension ≠ Bytes.ofText "b.js" := by
        decide
      obtain ⟨hslash, hsteps, hrelative, hne⟩ := hall extension hextension
      refine ⟨Bytes.ofText "a.js" ++ Bytes.ofText extension, ?_, ?_, hne⟩
      · rw [Path.append_join directory (by decide) hslash, stepsTo_join directory hrelative, hsteps]
      · rw [Path.append_join directory (by decide) hslash, isAbsolute_join directory hrelative,
          isAbsolute_join directory (by decide)]
  obtain ⟨name, hsteps, habs, hne⟩ := hsteps
  have hend : sealedFiles.locate path = sealedFiles.locate directory ++ [name] := by
    rw [isAbsolute_join directory (by decide)] at habs
    rw [locate, locate, startOf, startOf, habs, hsteps, landing_append]
    rfl
  rw [← hplace] at hend
  have hlast := congrArg List.getLast? hend
  rw [List.getLast?_concat] at hlast
  exact hne (Option.some.inj hlast).symm

/-- A bare specifier may lead to a file that the package it belongs to does not list: by the
name of a package beside it and a way up. -/
theorem not_resolve_keepsToExports : ¬ ∀ (resolver : Resolver) (fs : FileSystem)
    (specifier : String) (context : ResolveContext) (resolution : Resolution), fs.LinkFree →
    resolver.config.searchPaths = [] →
    resolver.manifests = .ofName resolver.config.manifestName →
    PlainNames resolver.config → IsBare resolver specifier →
    (resolver.resolve fs specifier context).1 = .ok resolution →
    ∃ path location, resolution.url = (canonical fs path).toString ∧ fs.FileAt path location ∧
      KeepsToExports resolver.config fs context.conditions location := by
  intro hall
  obtain ⟨resolution, hresolve, hurl⟩ := @resolve_of_url sealedFiles "r/../s/b.js"
    "/p/node_modules/s/b.js" (requestFor "r/../s/b.js") (Resolver.ofConfig {}) (by decide +kernel)
  obtain ⟨path, location, hpath, ⟨content, time, hfind⟩, hkeeps⟩ := hall (Resolver.ofConfig {})
    sealedFiles "r/../s/b.js" (requestFor "r/../s/b.js") resolution linkFree_sealedFiles rfl rfl
    plainNames_default ⟨by decide +kernel, by decide +kernel, by decide +kernel⟩ hresolve
  have hcanonical : canonical sealedFiles path = Location.toPath location := by
    have hshort : sealedFiles.HasShortPaths := ⟨by decide +kernel, by decide +kernel⟩
    rw [canonical, realPath_of_find hshort hfind (Or.inr rfl)]
  rw [hurl, hcanonical] at hpath
  have hlocation : location = inSealed "b.js" := by
    rcases of_node?_sealedFiles (placeOf_of_find hfind).2 with ⟨rfl, -⟩ | ⟨rfl, -⟩ | ⟨rfl, -⟩
    · exact absurd hpath (by decide +kernel)
    · exact absurd hpath (by decide +kernel)
    · rfl
  rw [hlocation] at hkeeps
  refine not_lists_sealed ["require"] (hkeeps _ sealingManifest belongsTo_sealed ?_)
  have hread : manifestOf {} sealedFiles (.ofString "/p/node_modules/s") =
      some sealingManifest := by
    rw [manifestOf_eq_some_iff]
    cbv
  exact ⟨.ofString "/p/node_modules/s", by rfl, hread, rfl⟩

end Resolver

end ScriptModules
