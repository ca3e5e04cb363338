import ScriptModules.Package.Finder
import ScriptModules.Proofs.Package.Upward
import ScriptModules.Resolver

/-!
# The nearest manifest

Wherever a search for a manifest begins, it comes to the first manifest that one of the paths above
the path looks at (`find_found`).  Without `..` these are paths of the directories that a path is
in, and what is found is the manifest of the nearest one.  With `..` a path also comes by
directories that it leaves again, and their manifests are found as well.  What is found is right
just if it is none of these (`searchesUpward`).
-/

namespace ScriptModules

open FileSystem
open ScriptModules.Path (IsPiece)

namespace FileSystem

variable {fs : FileSystem} {name : Name} {location : Location} {path : Path}

/-! ## Nearest files -/

/-- The answer is the file of this name in the nearest directory, at a location or above it, that
has one; there is none if no directory has one. -/
def IsNearestFile (fs : FileSystem) (name : Name) (location : Location) : Option Path → Prop
  | none => ∀ directory, directory <+: location → ¬ fs.HasFile directory name
  | some found => ∃ directory, directory <+: location ∧ fs.FileAt found (directory ++ [name]) ∧
      ∀ other, other <+: location → fs.HasFile other name → other.length ≤ directory.length

/-- Every file that is found is in a directory at a location or above it. -/
def StaysAbove (fs : FileSystem) (name : Name) (location : Location) (answer : Option Path) :
    Prop :=
  ∀ found directory, answer = some found → fs.FileAt found (directory ++ [name]) →
    directory <+: location

theorem StaysAbove.of_isPrefix {answer : Option Path} {above : Location}
    (h : fs.StaysAbove name above answer) (hp : above <+: location) :
    fs.StaysAbove name location answer :=
  fun found directory hfound hat => (h found directory hfound hat).trans hp

/-- What is found at a location or above it is found above it if it is not there. -/
theorem StaysAbove.above {answer : Option Path} {last : Name}
    (h : fs.StaysAbove name (location ++ [last]) answer)
    (hnone : ¬ fs.HasFile (location ++ [last]) name) : fs.StaysAbove name location answer := by
  intro found directory hfound hat
  refine (List.prefix_concat_iff.mp (h found directory hfound hat)).resolve_left ?_
  rintro rfl
  exact hnone hat.node

/-- The nearest file stays the nearest one further down, where there is none. -/
theorem IsNearestFile.below {answer : Option Path} {last : Name}
    (h : fs.IsNearestFile name location answer) (hnone : ¬ fs.HasFile (location ++ [last]) name) :
    fs.IsNearestFile name (location ++ [last]) answer := by
  cases answer with
  | none =>
      intro directory hdirectory hfile
      rcases List.prefix_concat_iff.mp hdirectory with rfl | hunder
      · exact hnone hfile
      · exact h directory hunder hfile
  | some found =>
      obtain ⟨directory, hdirectory, hat, hnearest⟩ := h
      refine ⟨directory, hdirectory.trans (List.prefix_append _ _), hat, fun other hother hfile => ?_⟩
      rcases List.prefix_concat_iff.mp hother with rfl | hunder
      · exact absurd hfile hnone
      · exact hnearest other hunder hfile

/-- And further up, if it is there. -/
theorem IsNearestFile.of_staysAbove {answer : Option Path} {above : Location}
    (h : fs.IsNearestFile name location answer) (hp : above <+: location)
    (hstays : fs.StaysAbove name above answer) : fs.IsNearestFile name above answer := by
  cases answer with
  | none => exact fun directory hdirectory => h directory (hdirectory.trans hp)
  | some found =>
      obtain ⟨directory, -, hat, hnearest⟩ := h
      exact ⟨directory, hstays found directory rfl hat, hat,
        fun other hother => hnearest other (hother.trans hp)⟩

/-- A nearest file is at the location or above it. -/
theorem IsNearestFile.staysAbove {answer : Option Path}
    (h : fs.IsNearestFile name location answer) : fs.StaysAbove name location answer := by
  rintro found directory rfl hat
  obtain ⟨nearest, hnearest, hthere, -⟩ := h
  rw [(List.append_singleton_inj.mp (hat.unique hthere)).1]
  exact hnearest

/-- What is found where a path leads is the nearest file. -/
theorem isNearestFile_join (hl : fs.LinkFree) (hname : IsPiece name)
    (h : fs.isFile (path.join ⟨name⟩) = true) :
    fs.IsNearestFile name (fs.locate path) (some (path.join ⟨name⟩)) :=
  ⟨_, List.prefix_refl _, hl.fileAt_join hname h, fun _ hother _ => hother.length_le⟩

/-- A search upward from an absolute path finds the nearest file, if all it finds is at the
location or above it.  The induction is on the way up. -/
theorem isNearestFile_of_staysAbove (hl : fs.LinkFree) (ht : fs.IsTree) (hf : fs.HasFileNames)
    (hname : IsPiece name) (habs : path.isAbsolute = true)
    (h : fs.LeavesDirectories (movesOf path))
    (hshort : (path.join ⟨name⟩).bytes.length ≤ pathLimit)
    (hstays : fs.StaysAbove name (fs.locate path) ((lookedAt ⟨name⟩ path).find? fs.isFile)) :
    fs.IsNearestFile name (fs.locate path) ((lookedAt ⟨name⟩ path).find? fs.isFile) := by
  generalize hlength : path.bytes.length = length
  induction length using Nat.strongRecOn generalizing path with
  | ind length ih =>
      rcases find?_lookedAt_cases fs habs ⟨name⟩ with ⟨hfile, hfound⟩ | ⟨hfile, hrest⟩
      · rw [hfound]
        exact isNearestFile_join hl hname hfile
      · have hnone : ¬ fs.HasFile (fs.locate path) name := by
          intro hhas
          rw [(isFile_join_iff hl ht hf hname habs h hshort).mpr hhas] at hfile
          cases hfile
        rcases hrest with ⟨hmoves, hfound⟩ | ⟨parent, step, hgoes, hfound⟩
        · have hlocate : fs.locate path = [] := by
            rw [locate_of_isAbsolute habs, hmoves]
            rfl
          rw [hfound]
          intro directory hdirectory
          rw [hlocate] at hdirectory hnone
          rw [List.prefix_nil.mp hdirectory]
          exact hnone
        · have hlocate : fs.locate path = step.landing (fs.locate parent) := hgoes.locate habs
          rw [hgoes.moves] at h
          have hgo := ih _ (hlength ▸ hgoes.shorter) hgoes.absolute h.of_append
            (Nat.le_trans (hgoes.length_join_le hname) hshort)
          rw [hfound, hlocate] at hstays ⊢
          rw [hlocate] at hnone
          cases step with
          | stay => exact hgo hstays rfl
          | up =>
              have hup := List.dropLast_prefix (fs.locate parent)
              exact (hgo (hstays.of_isPrefix hup) rfl).of_staysAbove hup hstays
          | down last => exact (hgo (hstays.above hnone) rfl).below hnone

/-- Without `..` a search upward finds only what is at the location or above it. -/
theorem staysAbove_of_notMem (hl : fs.LinkFree) (hname : IsPiece name)
    (habs : path.isAbsolute = true) (hup : .up ∉ movesOf path) :
    fs.StaysAbove name (fs.locate path) ((lookedAt ⟨name⟩ path).find? fs.isFile) := by
  generalize hlength : path.bytes.length = length
  induction length using Nat.strongRecOn generalizing path with
  | ind length ih =>
      rcases find?_lookedAt_cases fs habs ⟨name⟩ with
        ⟨hfile, hfound⟩ | ⟨-, ⟨-, hfound⟩ | ⟨parent, step, hgoes, hfound⟩⟩
      · rw [hfound]
        exact (isNearestFile_join hl hname hfile).staysAbove
      · rw [hfound]
        exact nofun
      · have hlocate : fs.locate path = step.landing (fs.locate parent) := hgoes.locate habs
        rw [hgoes.moves, List.mem_append, not_or] at hup
        rw [hfound, hlocate]
        refine (ih _ (hlength ▸ hgoes.shorter) hgoes.absolute hup.1 rfl).of_isPrefix ?_
        cases step with
        | stay => exact List.prefix_refl _
        | up => exact absurd (List.mem_singleton_self _) hup.2
        | down last => exact List.prefix_append _ _

end FileSystem

/-! ## Searches -/

namespace Package.Finder

open FileSystem
open ScriptModules.Path (IsPiece)

variable {fs : FileSystem} {finder : Finder} {name : Name} {path parent : Path}

/-- A finder that remembers nothing takes the first manifest among the places it looks at. -/
theorem climb_found (h : finder.directories = []) (paths : List Path) :
    (finder.climb fs paths).found =
      ((paths.takeWhile (·.bytes ≠ [])).map (·.join finder.fileName)).find? fs.isFile := by
  induction paths with
  | nil => rfl
  | cons directory above ih =>
      rw [climb]
      split
      · rename_i hempty
        rw [List.takeWhile_cons_of_neg (by simpa using hempty)]
        rfl
      · rename_i hne
        rw [List.takeWhile_cons_of_pos (by simpa using hne), List.map_cons, List.find?_cons, h]
        cases hfile : fs.isFile (directory.join finder.fileName) with
        | true => simp [hfile]
        | false =>
            simp only [List.lookup_nil, hfile, Bool.false_eq_true, if_false]
            exact ih

/-- Wherever a search begins, it comes to the same as one that begins at the path itself. -/
theorem find_found (h : finder.directories = []) (hname : IsPiece name)
    (hfile : finder.fileName = ⟨name⟩) (fs : FileSystem) (path : Path) :
    (finder.find fs path).1 = (lookedAt ⟨name⟩ (absolute fs path)).find? fs.isFile := by
  have hfrom : ∀ directory, (finder.findFrom fs directory).1 =
      (lookedAt ⟨name⟩ directory).find? fs.isFile := by
    intro directory
    rw [← hfile]
    exact climb_found h directory.ancestors
  rw [find, hfrom]
  generalize absolute fs path = start
  unfold searchStart
  split
  · rfl
  · rename_i hdirectory
    split
    · cases hparent : start.parent? with
      | none => rfl
      | some parent =>
          have hne : start.bytes ≠ [] := by
            intro hnil
            have hempty : start = ⟨[]⟩ := congrArg Path.mk hnil
            rw [hempty] at hparent
            cases hparent
          have hnone : fs.isFile (start.join ⟨name⟩) = false := by
            rw [← Bool.not_eq_true]
            exact mt (isDirectory_of_isFile_join hname hne) hdirectory
          rw [lookedAt_cons (Path.ancestors_of_parent? hparent) hne, List.find?_cons, hnone]
          rfl
    · rfl

end Package.Finder

namespace Resolver

open FileSystem
open ScriptModules.Path (IsPiece)

/-- How the manifest of a path is found by a resolver that has seen nothing.  Its name is that of
the settings. -/
structure SearchesUpward (fs : FileSystem) (config : Config) : Prop where
  /-- Without `..` it is the nearest one, and there is none only if no directory has one. -/
  nearest {base path : Path} (habs : base.isAbsolute = true)
    (hup : .up ∉ movesOf (base.join path))
    (hshort : ((base.join path).join (.ofString config.manifestName)).bytes.length ≤ pathLimit) :
    fs.IsNearestFile (Bytes.ofText config.manifestName) (fs.locate (base.join path))
      ((Resolver.ofConfig config).findManifest fs (base.join path)).1
  /-- With `..` it is so just if the path does not leave the directory again in which a manifest is
  found first. -/
  nearest_iff {base path : Path} (habs : base.isAbsolute = true)
    (hleaves : fs.LeavesDirectories (movesOf (base.join path)))
    (hshort : ((base.join path).join (.ofString config.manifestName)).bytes.length ≤ pathLimit) :
    fs.IsNearestFile (Bytes.ofText config.manifestName) (fs.locate (base.join path))
        ((Resolver.ofConfig config).findManifest fs (base.join path)).1 ↔
      fs.StaysAbove (Bytes.ofText config.manifestName) (fs.locate (base.join path))
        ((Resolver.ofConfig config).findManifest fs (base.join path)).1

theorem searchesUpward {fs : FileSystem} {config : Config} (hl : fs.LinkFree) (ht : fs.IsTree)
    (hf : fs.HasFileNames) (hname : IsPiece (Bytes.ofText config.manifestName)) :
    SearchesUpward fs config := by
  have hjoin : ∀ {base path : Path}, base.isAbsolute = true →
      (base.join path).isAbsolute = true := by
    intro base path habs
    cases hpath : path.isAbsolute with
    | true => rwa [Path.join, hpath, if_pos rfl]
    | false => rwa [isAbsolute_join base hpath]
  have hanswer : ∀ {path : Path}, path.isAbsolute = true →
      ((Resolver.ofConfig config).findManifest fs path).1 =
        (lookedAt (.ofString config.manifestName) path).find? fs.isFile := by
    intro path habs
    have hfound : ((Package.Finder.ofName config.manifestName).find fs path).1 =
        (lookedAt (.ofString config.manifestName) (Package.Finder.absolute fs path)).find?
          fs.isFile := Package.Finder.find_found rfl hname rfl fs path
    rw [Package.Finder.absolute, if_pos habs] at hfound
    exact hfound
  constructor
  case nearest =>
    intro base path habs hup hshort
    rw [hanswer (hjoin habs)]
    exact isNearestFile_of_staysAbove hl ht hf hname (hjoin habs)
      (leavesDirectories_of_notMem hup) hshort (staysAbove_of_notMem hl hname (hjoin habs) hup)
  case nearest_iff =>
    intro base path habs hleaves hshort
    rw [hanswer (hjoin habs)]
    exact ⟨IsNearestFile.staysAbove,
      isNearestFile_of_staysAbove hl ht hf hname (hjoin habs) hleaves hshort⟩

/-! ## A directory that a path has left -/

/-- A package next to a file that is in none. -/
def besideFiles : FileSystem :=
  { FileSystem.empty with nodes := [
      ([Bytes.ofText "p"], .directory),
      ([Bytes.ofText "p", Bytes.ofText "a"], .directory),
      ([Bytes.ofText "p", Bytes.ofText "a", Bytes.ofText "package.json"],
        .file (Bytes.ofText "\x7b\x7d") ⟨0, 0⟩),
      ([Bytes.ofText "p", Bytes.ofText "b"], .directory),
      ([Bytes.ofText "p", Bytes.ofText "b", Bytes.ofText "x.js"], .file [] ⟨0, 0⟩)] }

theorem besideFiles_linkFree : besideFiles.LinkFree := by
  refine linkFree_of_nodes fun entry hentry target => ?_
  simp only [besideFiles, List.mem_cons, List.not_mem_nil, or_false] at hentry
  rcases hentry with rfl | rfl | rfl | rfl | rfl <;> exact Node.noConfusion

theorem besideFiles_isTree : besideFiles.IsTree :=
  isTree_of_nodes (by decide +kernel)

/-- The manifest is found for a file that is not there, seen from the directory beside it. -/
theorem searchesUpward_besideFiles :
    besideFiles.IsNearestFile (Bytes.ofText "package.json")
        (besideFiles.locate ((Path.ofString "/p/b").join (.ofString "../a/y.js")))
        ((Resolver.ofConfig {}).findManifest besideFiles
          ((Path.ofString "/p/b").join (.ofString "../a/y.js"))).1 := by
  have hname : IsPiece (Bytes.ofText ({} : Config).manifestName) := by decide +kernel
  have hupward := searchesUpward besideFiles_linkFree besideFiles_isTree (by decide +kernel) hname
  refine (hupward.nearest_iff rfl (by decide +kernel) (by decide +kernel)).mpr ?_
  have hanswer : ((Resolver.ofConfig {}).findManifest besideFiles
      ((Path.ofString "/p/b").join (.ofString "../a/y.js"))).1 =
        some (.ofString "/p/b/../a/package.json") := by decide +kernel
  intro found directory hfound hat
  rw [hanswer] at hfound
  cases hfound
  have hthere : besideFiles.FileAt (.ofString "/p/b/../a/package.json")
      ([Bytes.ofText "p", Bytes.ofText "a"] ++ [Bytes.ofText "package.json"]) := ⟨_, _, by rfl⟩
  rw [(List.append_singleton_inj.mp (hat.unique hthere)).1]
  decide +kernel

/-- Not every answer is the nearest manifest: for a file in no package the one is found of the
directory beside it, which the path goes through and leaves. -/
theorem not_searchesUpward : ¬ ∀ (fs : FileSystem) (config : Config) (base path : Path),
    fs.LinkFree → fs.IsTree → fs.HasFileNames → IsPiece (Bytes.ofText config.manifestName) →
    base.isAbsolute = true →
    ((base.join path).join (.ofString config.manifestName)).bytes.length ≤ pathLimit →
    fs.IsNearestFile (Bytes.ofText config.manifestName) (fs.locate (base.join path))
      ((Resolver.ofConfig config).findManifest fs (base.join path)).1 := by
  intro hall
  have hname : IsPiece (Bytes.ofText ({} : Config).manifestName) := by decide +kernel
  have hnearest := hall besideFiles {} (.ofString "/p/a") (.ofString "../b/x.js")
    besideFiles_linkFree besideFiles_isTree (by decide +kernel) hname rfl (by decide +kernel)
  have hanswer : ((Resolver.ofConfig {}).findManifest besideFiles
      ((Path.ofString "/p/a").join (.ofString "../b/x.js"))).1 =
        some (.ofString "/p/a/package.json") := by decide +kernel
  have hthere : besideFiles.FileAt (.ofString "/p/a/package.json")
      ([Bytes.ofText "p", Bytes.ofText "a"] ++ [Bytes.ofText "package.json"]) := ⟨_, _, by rfl⟩
  have habove := hnearest.staysAbove _ _ hanswer hthere
  revert habove
  decide +kernel

end Resolver

end ScriptModules
