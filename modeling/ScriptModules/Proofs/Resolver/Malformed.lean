import ScriptModules.Proofs.Files.Dropping
import ScriptModules.Proofs.Package.Nearest
import ScriptModules.Proofs.Resolver.Looking
import ScriptModules.Proofs.Resolver.Reaching

/-!
# Malformed manifests

A manifest that is malformed reads as one that is not there (`IsMalformed.manifestAt`).  So it makes
no difference to any search for a file, which looks at manifests by what they say only
(`EndsAtFiles.run_dropNode`), unless the search finds this very file.

A search upward looks for files, however, and stops at a malformed manifest as at any other one.
Behind it there may be a good one, which is not seen then (`countsAsNone`).
-/

namespace ScriptModules

open FileSystem
open ScriptModules.Path (IsPiece)

/-! ## Reading manifests -/

namespace Package

variable {fs : FileSystem} {location : Location} {content : Bytes} {time : Timestamp}
  {finder : Finder} {path : Path}

/-- The manifest some contents are, if they are one. -/
def manifestOf? (content : Bytes) : Option Manifest :=
  Bytes.text? content >>= fun text => (Manifest.ofText text).toOption

theorem toOption_load {place : Place} (h : fs.find path = .ok (place, .file content time)) :
    (Manifest.load fs path).toOption = manifestOf? content := by
  simp only [Manifest.load, readText, FileSystem.read, h, manifestOf?, bind, Except.bind, pure,
    Except.pure]
  cases Bytes.text? content with
  | none => rfl
  | some text =>
      dsimp only [Option.bind]
      cases Manifest.ofText text <;> rfl

/-- A file that is no manifest. -/
def IsMalformed (fs : FileSystem) (location : Location) : Prop :=
  ∃ content time, fs.node? location = some (.file content time) ∧ manifestOf? content = none

theorem IsMalformed.isLeaf (h : IsMalformed fs location) : fs.IsLeaf location := by
  obtain ⟨content, time, hnode, -⟩ := h
  exact isLeaf_of_file hnode

/-- It reads as no manifest. -/
theorem IsMalformed.toOption_load (h : IsMalformed fs location) (hat : fs.FileAt path location) :
    (Manifest.load fs path).toOption = none := by
  obtain ⟨content, time, hnode, hbad⟩ := h
  obtain ⟨content', time', hfind⟩ := hat
  have hthere : fs.node? location = some (.file content' time') := (placeOf_of_find hfind).2
  rw [hnode] at hthere
  cases hthere
  rw [Package.toOption_load hfind, hbad]

/-- A manifest that is malformed reads as one that is not there. -/
theorem IsMalformed.manifestAt (h : IsMalformed fs location) (hg : fs.Grounded) (finder : Finder)
    (path : Path) : finder.manifestAt (fs.dropNode location) path = finder.manifestAt fs path := by
  have hanswer : (if (fs.dropNode location).isFile path then
        (Manifest.load (fs.dropNode location) path).toOption else none) =
      if fs.isFile path then (Manifest.load fs path).toOption else none := by
    by_cases hat : fs.FileAt path location
    · rw [h.toOption_load hat, ite_self, if_neg]
      exact fun hfile => ((isFile_dropNode_iff hg h.isLeaf).mp hfile).2 hat
    · have hsame : (fs.dropNode location).isFile path = true ↔ fs.isFile path = true := by
        rw [isFile_dropNode_iff hg h.isLeaf]
        exact and_iff_left hat
      by_cases hfile : fs.isFile path = true
      · rw [if_pos hfile, if_pos (hsame.mpr hfile), Manifest.load, Manifest.load,
          readText_dropNode hg h.isLeaf hfile hat]
      · rw [if_neg hfile, if_neg (mt hsame.mp hfile)]
  unfold Finder.manifestAt
  rw [hanswer]

end Package

namespace Resolver

open Package (Finder Manifest IsMalformed)

variable {config : Config} {fs : FileSystem} {resolver : Resolver} {specifier : String}
  {context : ResolveContext} {location : Location} {finder : Finder} {path : Path}

/-! ## Searches -/

/-- A search that does not find the file comes to the same without it. -/
theorem EndsAtFiles.run_dropNode {search : Search} (h : EndsAtFiles search)
    (hbad : IsMalformed fs location) (hg : fs.Grounded) (finder : Finder)
    (hnot : ∀ found, (search.run (answerLook fs) finder).1 = some found →
      ¬ fs.FileAt found location) :
    search.run (answerLook (fs.dropNode location)) finder = search.run (answerLook fs) finder := by
  induction h generalizing finder with
  | nothing => rfl
  | @file path next hthere _ ih =>
      simp only [Program.run, answerLook] at hnot ⊢
      have hfile : (fs.dropNode location).isFile path = fs.isFile path := by
        rw [Bool.eq_iff_iff, isFile_dropNode_iff hg hbad.isLeaf]
        refine and_iff_left_of_imp fun hfile => hnot path ?_
        rw [hfile, hthere]
        rfl
      rw [hfile]
      cases hanswer : fs.isFile path with
      | true => rw [hthere]; rfl
      | false =>
          rw [hanswer] at hnot
          exact ih finder hnot
  | directory _ ih =>
      simp only [Program.run, answerLook] at hnot ⊢
      rw [isDirectory_dropNode hg hbad.isLeaf]
      exact ih _ finder hnot
  | manifest _ ih =>
      simp only [Program.run, answerLook, Finder.manifestIn] at hnot ⊢
      rw [hbad.manifestAt hg]
      exact ih _ _ hnot

/-- So it is with the search for the file of a specifier. -/
theorem found?_dropNode (hbad : IsMalformed fs location) (hg : fs.Grounded)
    (hnot : ∀ found, (found? config fs specifier context finder).1 = .ok (some found) →
      ¬ fs.FileAt found location) :
    found? config (fs.dropNode location) specifier context finder =
      found? config fs specifier context finder := by
  rw [found?_eq] at hnot
  rw [found?_eq, found?_eq]
  cases hsearch : searchFor config specifier context with
  | error e => rfl
  | ok search =>
      rw [hsearch] at hnot
      have hends := endsAtFiles_of_searchFor hsearch
      have hsame := hends.run_dropNode hbad hg finder
        fun found hfound => hnot found (congrArg Except.ok hfound)
      simp only [hsame]

theorem canonical_dropNode (hg : fs.Grounded) (h : fs.IsLeaf location)
    (hfile : fs.isFile path = true) (hnot : ¬ fs.FileAt path location) :
    canonical (fs.dropNode location) path = canonical fs path := by
  have hiff := realPath_dropNode hg h hfile hnot
  unfold canonical
  cases hbefore : fs.realPath path with
  | ok real => rw [(hiff real).mpr hbefore]
  | error e =>
      cases hafter : (fs.dropNode location).realPath path with
      | ok real =>
          rw [(hiff real).mp hafter] at hbefore
          cases hbefore
      | error e' => rfl

/-- A specifier is resolved to a file. -/
structure LeadsTo (fs : FileSystem) (resolver : Resolver) (specifier : String)
    (context : ResolveContext) (location : Location) : Prop where
  isGood : flaw? specifier = none
  notBuiltin : resolver.builtinName? specifier = none
  finds : ∃ path, Finds fs resolver specifier context path ∧ fs.FileAt path location

/-- Everything else resolves as it does without the malformed file. -/
theorem resolve_dropNode (hbad : IsMalformed fs location) (hg : fs.Grounded)
    (hnot : ¬ LeadsTo fs resolver specifier context location) :
    resolver.resolve (fs.dropNode location) specifier context =
      resolver.resolve fs specifier context := by
  unfold resolve
  cases hflaw : flaw? specifier with
  | some reason => rfl
  | none =>
      cases hbuiltin : resolver.builtinName? specifier with
      | some name => rfl
      | none =>
          have hother : ∀ path, (found? resolver.config fs specifier context
              resolver.manifests).1 = .ok (some path) → ¬ fs.FileAt path location :=
            fun path hfinds hat => hnot ⟨hflaw, hbuiltin, path, hfinds, hat⟩
          have hfile := yields_found? resolver.config fs specifier context resolver.manifests
          dsimp only
          rw [found?_dropNode hbad hg hother]
          cases hfound : found? resolver.config fs specifier context resolver.manifests with
          | mk answer later =>
              rw [hfound] at hother hfile
              cases answer with
              | error e => rfl
              | ok answer =>
                  cases answer with
                  | none => rfl
                  | some path =>
                      dsimp only
                      rw [canonical_dropNode hg hbad.isLeaf (hfile path rfl) (hother path rfl)]

end Resolver

/-! ## The nearest manifest -/

namespace Package

variable {fs : FileSystem} {location : Location} {finder : Finder} {path : Path} {name : Name}

/-- The search upward from a path stops at a file. -/
def StopsAt (fs : FileSystem) (finder : Finder) (path : Path) (location : Location) : Prop :=
  ∃ found, (finder.find fs path).1 = some found ∧ fs.FileAt found location

/-- The nearest manifest is what the file says that is found. -/
theorem Finder.nearest_fst (finder : Finder) (fs : FileSystem) (path : Path) :
    (finder.nearest fs path).1 = (finder.find fs path).1.bind fun place =>
      (finder.manifestAt fs place).1.map (place, ·) := by
  have hsame : ∀ place, ((finder.find fs path).2.manifestAt fs place).1 =
      (finder.manifestAt fs place).1 := by
    intro place
    have hmanifests : (finder.find fs path).2.manifests = finder.manifests := rfl
    unfold manifestAt
    rw [hmanifests]
    cases finder.manifests.lookup place.components <;> rfl
  rw [nearest]
  cases hfind : finder.find fs path with
  | mk found later =>
      cases found with
      | none => rfl
      | some place =>
          have hplace := hsame place
          rw [hfind] at hplace
          dsimp only [Option.bind]
          rw [← hplace]
          cases later.manifestAt fs place with
          | mk manifest last => cases manifest <;> rfl

/-- A search that does not stop at the file comes to the same without it. -/
theorem IsMalformed.find (h : IsMalformed fs location) (hg : fs.Grounded)
    (hfresh : finder.directories = []) (hname : IsPiece name) (hfile : finder.fileName = ⟨name⟩)
    (hnot : ¬ StopsAt fs finder path location) :
    (finder.find (fs.dropNode location) path).1 = (finder.find fs path).1 := by
  have halters := alters_dropNode hg h.isLeaf.ne_nil h.isLeaf.ne_directory
  have habsolute : Finder.absolute (fs.dropNode location) path = Finder.absolute fs path := by
    rw [Finder.absolute, Finder.absolute, workingPath?, workingPath?, halters.lost]
    rfl
  have hother : ∀ found, (finder.find fs path).1 = some found → ¬ fs.FileAt found location :=
    fun found hfound hat => hnot ⟨found, hfound, hat⟩
  rw [Finder.find_found hfresh hname hfile] at hother
  have hrun := (Resolver.endsAtFiles_firstFile
    (lookedAt ⟨name⟩ (Finder.absolute fs path))).run_dropNode h hg finder
      (by rw [Resolver.run_firstFile]; exact hother)
  rw [Resolver.run_firstFile, Resolver.run_firstFile] at hrun
  rw [Finder.find_found hfresh hname hfile, Finder.find_found hfresh hname hfile, habsolute]
  exact congrArg Prod.fst hrun

/-- What stops at the file has no manifest. -/
theorem IsMalformed.nearest_eq_none (h : IsMalformed fs location)
    (hfresh : finder.manifests = []) (hstops : StopsAt fs finder path location) :
    (finder.nearest fs path).1 = none := by
  obtain ⟨found, hfound, hat⟩ := hstops
  have hnone : (finder.manifestAt fs found).1 = none := by
    rw [Finder.manifestAt, hfresh]
    simp only [List.lookup_nil, h.toOption_load hat, ite_self]
  rw [Finder.nearest_fst, hfound, Option.bind_some, hnone]
  rfl

/-- A search that does not stop at the file has the same manifest without it. -/
theorem IsMalformed.nearest (h : IsMalformed fs location) (hg : fs.Grounded)
    (hfresh : finder.directories = []) (hname : IsPiece name) (hfile : finder.fileName = ⟨name⟩)
    (hnot : ¬ StopsAt fs finder path location) :
    (finder.nearest (fs.dropNode location) path).1 = (finder.nearest fs path).1 := by
  rw [Finder.nearest_fst, Finder.nearest_fst, h.find hg hfresh hname hfile hnot]
  simp only [h.manifestAt hg]

end Package

namespace Resolver

open Package (Finder Manifest IsMalformed StopsAt)

variable {config : Config} {fs : FileSystem} {location : Location} {path : Path}

/-! ## Malformed manifests -/

/-- The kind a manifest gives. -/
def kindFrom (found : Option (Path × Manifest)) : ModuleKind :=
  if found.any fun (_, manifest) => manifest.moduleType == .module then .esm else .commonJs

theorem kindOf_fst (resolver : Resolver) (fs : FileSystem) (path : Path) :
    (resolver.kindOf fs path).1 =
      if path.extension? = some (Bytes.ofText "mjs") then .esm
      else if path.extension? = some (Bytes.ofText "cjs") then .commonJs
      else kindFrom (resolver.manifests.nearest fs path).1 := by
  unfold kindOf
  split
  · rfl
  · split <;> rfl

/-- What a malformed manifest changes. -/
structure CountsAsNone (fs : FileSystem) (location : Location) : Prop where
  /-- Nothing is resolved otherwise without it, but what is resolved to this very file. -/
  resolves {resolver : Resolver} {specifier : String} {context : ResolveContext}
    (hnot : ¬ LeadsTo fs resolver specifier context location) :
    resolver.resolve (fs.dropNode location) specifier context =
      resolver.resolve fs specifier context
  /-- The nearest manifest is another one without it, just if the search stops at it and finds one
  behind it. -/
  nearest_iff {fileName : String} {path : Path} (hname : IsPiece (Bytes.ofText fileName)) :
    ((Finder.ofName fileName).nearest (fs.dropNode location) path).1 =
        ((Finder.ofName fileName).nearest fs path).1 ↔
      (StopsAt fs (.ofName fileName) path location →
        ((Finder.ofName fileName).nearest (fs.dropNode location) path).1 = none)
  /-- The kind of a module is another one without it, just if the search stops at it and the module
  would be one of the other kind by a manifest behind it. -/
  kind_iff {config : Config} {path : Path} (hname : IsPiece (Bytes.ofText config.manifestName)) :
    ((Resolver.ofConfig config).kindOf (fs.dropNode location) path).1 =
        ((Resolver.ofConfig config).kindOf fs path).1 ↔
      (StopsAt fs (.ofName config.manifestName) path location →
        path.extension? ≠ some (Bytes.ofText "mjs") →
          ((Resolver.ofConfig config).kindOf (fs.dropNode location) path).1 = .commonJs)

/-- A malformed manifest makes no difference but where a search upward stops at it. -/
theorem countsAsNone (hg : fs.Grounded) (h : IsMalformed fs location) :
    CountsAsNone fs location := by
  have hstopped : ∀ {fileName : String} {path : Path},
      StopsAt fs (.ofName fileName) path location →
        ((Finder.ofName fileName).nearest fs path).1 = none :=
    fun hstops => h.nearest_eq_none rfl hstops
  have hpassed : ∀ {fileName : String} {path : Path}, IsPiece (Bytes.ofText fileName) →
      ¬ StopsAt fs (.ofName fileName) path location →
        ((Finder.ofName fileName).nearest (fs.dropNode location) path).1 =
          ((Finder.ofName fileName).nearest fs path).1 :=
    fun hname hnot => h.nearest hg rfl hname rfl hnot
  constructor
  case resolves => exact fun hnot => resolve_dropNode h hg hnot
  case nearest_iff =>
    intro fileName path hname
    by_cases hstops : StopsAt fs (.ofName fileName) path location
    · rw [hstopped hstops]
      exact ⟨fun hnone _ => hnone, fun hnone => hnone hstops⟩
    · exact ⟨fun _ hnever => absurd hnever hstops, fun _ => hpassed hname hstops⟩
  case kind_iff =>
    intro config path hname
    rw [kindOf_fst, kindOf_fst]
    by_cases hmjs : path.extension? = some (Bytes.ofText "mjs")
    · rw [if_pos hmjs, if_pos hmjs]
      exact ⟨fun _ _ hnever => absurd hmjs hnever, fun _ => rfl⟩
    · rw [if_neg hmjs, if_neg hmjs]
      by_cases hcjs : path.extension? = some (Bytes.ofText "cjs")
      · rw [if_pos hcjs, if_pos hcjs]
        exact ⟨fun _ _ _ => rfl, fun _ => rfl⟩
      · rw [if_neg hcjs, if_neg hcjs]
        have hmanifests : (Resolver.ofConfig config).manifests = .ofName config.manifestName := rfl
        rw [hmanifests]
        by_cases hstops : StopsAt fs (.ofName config.manifestName) path location
        · rw [hstopped hstops]
          exact ⟨fun hsame _ _ => hsame, fun hkind => hkind hstops hmjs⟩
        · rw [hpassed hname hstops]
          exact ⟨fun _ hnever => absurd hnever hstops, fun _ => rfl⟩

/-! ## A manifest behind a malformed one -/

/-- A package of modules with a directory in it that has a malformed manifest. -/
def brokenFiles : FileSystem :=
  { FileSystem.empty with nodes := [
      ([Bytes.ofText "p"], .directory),
      ([Bytes.ofText "p", Bytes.ofText "package.json"],
        .file (Bytes.ofText "\x7b\"type\":\"module\"\x7d") ⟨0, 0⟩),
      ([Bytes.ofText "p", Bytes.ofText "q"], .directory),
      ([Bytes.ofText "p", Bytes.ofText "q", Bytes.ofText "package.json"],
        .file (Bytes.ofText "\x7b broken") ⟨0, 0⟩),
      ([Bytes.ofText "p", Bytes.ofText "q", Bytes.ofText "a.js"], .file [] ⟨0, 0⟩)] }

/-- Where the malformed manifest stands. -/
def brokenManifest : Location :=
  [Bytes.ofText "p", Bytes.ofText "q", Bytes.ofText "package.json"]

theorem isMalformed_brokenFiles : IsMalformed brokenFiles brokenManifest :=
  ⟨_, _, by rfl, Option.isNone_iff_eq_none.mp (by decide +kernel)⟩

/-- The file beside it resolves as it does without it. -/
theorem countsAsNone_brokenFiles :
    (Resolver.ofConfig {}).resolve (brokenFiles.dropNode brokenManifest) "./a.js"
        (requestFrom "/p/q") =
      (Resolver.ofConfig {}).resolve brokenFiles "./a.js" (requestFrom "/p/q") := by
  refine (countsAsNone (grounded_of_root rfl) isMalformed_brokenFiles).resolves ?_
  rintro ⟨-, -, path, hfinds, hat⟩
  have hfound : (found? (Resolver.ofConfig {}).config brokenFiles "./a.js" (requestFrom "/p/q")
      (Resolver.ofConfig {}).manifests).1.toOption = some (some (.ofString "/p/q/./a.js")) := by
    decide +kernel
  rw [hfinds] at hfound
  cases hfound
  have hthere : brokenFiles.FileAt (.ofString "/p/q/./a.js")
      [Bytes.ofText "p", Bytes.ofText "q", Bytes.ofText "a.js"] := ⟨_, _, by rfl⟩
  exact absurd (hat.unique hthere) (by decide)

/-- Not every malformed manifest counts as none: the module beside it is no longer one of the
package it lies in. -/
theorem not_countsAsNone : ¬ ∀ (fs : FileSystem) (location : Location) (config : Config)
    (path : Path), fs.Grounded → IsMalformed fs location →
    IsPiece (Bytes.ofText config.manifestName) →
    ((Resolver.ofConfig config).kindOf (fs.dropNode location) path).1 =
      ((Resolver.ofConfig config).kindOf fs path).1 := by
  intro hall
  have hname : IsPiece (Bytes.ofText ({} : Config).manifestName) := by decide +kernel
  have hsame := hall brokenFiles brokenManifest {} (.ofString "/p/q/a.js") (grounded_of_root rfl)
    isMalformed_brokenFiles hname
  have hbefore : ((Resolver.ofConfig {}).kindOf brokenFiles (.ofString "/p/q/a.js")).1 =
      .commonJs := by decide +kernel
  have hafter : ((Resolver.ofConfig {}).kindOf (brokenFiles.dropNode brokenManifest)
      (.ofString "/p/q/a.js")).1 = .esm := by decide +kernel
  rw [hbefore, hafter] at hsame
  cases hsame

end Resolver

end ScriptModules
