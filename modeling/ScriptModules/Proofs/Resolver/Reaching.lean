import ScriptModules.Proofs.Files.RealPath
import ScriptModules.Proofs.Resolver.Names

/-!
# The ids of files

Every branch of the search for a file ends with a path that was tried and is one of a file
(`yields_found?`).  What a specifier resolves to is then the real path of this file, whatever
links lead there, and so there is one id for each file (`namesFiles`).

That takes a path that canonicalization accepts.  From a working directory that has been removed
`..` still leads to files, but no relative path has a canonical form there.  Then the path is
cleaned up by its spelling, and the id is a relative path (`not_resolve_isRealFile`).
-/

namespace ScriptModules

namespace Resolver

open FileSystem
open Package (Finder)
open ScriptModules.Path (IsPiece)

variable {config : Config} {fs : FileSystem} {resolver : Resolver} {specifier : String}
  {context : ResolveContext} {resolution : Resolution} {location : Location}

/-! ## What is found is a file -/

/-- What a search ends with, whatever is known of manifests. -/
def Yields {α : Type} (p : α → Prop) (search : StateM Finder α) : Prop :=
  ∀ finder, p (search finder).1

section
variable {α β : Type} {p : α → Prop} {q : β → Prop}

theorem yields_pure {answer : α} (h : p answer) : Yields p (pure answer) :=
  fun _ => h

theorem yields_true (search : StateM Finder α) : Yields (fun _ => True) search :=
  fun _ => trivial

theorem Yields.bind {first : StateM Finder α} {next : α → StateM Finder β} (h : Yields p first)
    (hnext : ∀ answer, p answer → Yields q (next answer)) : Yields q (first >>= next) :=
  fun finder => hnext (first finder).1 (h finder) (first finder).2

end

/-- If there is an answer, it is a path of a file. -/
def IsFileIfAny (fs : FileSystem) (answer : Option Path) : Prop :=
  ∀ found, answer = some found → fs.isFile found = true

theorem isFileIfAny_file? (config : Config) (fs : FileSystem) (path : Path) :
    IsFileIfAny fs (file? config fs path) :=
  fun _ => List.find?_some

theorem isFileIfAny_entryFile? (config : Config) (fs : FileSystem) (target : Path) :
    IsFileIfAny fs (entryFile? config fs target) := by
  unfold entryFile?
  split
  · rename_i heq
    exact heq ▸ isFileIfAny_file? config fs target
  · split
    · exact isFileIfAny_file? config fs _
    · exact nofun

theorem IsFileIfAny.bind {α : Type} {first : Option α} {next : α → Option Path}
    (h : ∀ value, IsFileIfAny fs (next value)) : IsFileIfAny fs (first >>= next) := by
  intro found hfound
  obtain ⟨value, -, hnext⟩ := Option.bind_eq_some_iff.mp hfound
  exact h value found hnext

variable (config fs) in
theorem yields_directory? (conditions : List String) (directory : Path) :
    Yields (IsFileIfAny fs) (directory? config fs conditions directory) := by
  refine (yields_true _).bind fun manifest _ => ?_
  dsimp only
  split
  · rename_i heq
    exact yields_pure (heq ▸ IsFileIfAny.bind fun target => isFileIfAny_entryFile? config fs _)
  · exact yields_pure (isFileIfAny_file? config fs _)

variable (config fs) in
theorem yields_path? (conditions : List String) (path : Path) :
    Yields (IsFileIfAny fs) (path? config fs conditions path) := by
  unfold path?
  split
  · rename_i heq
    exact yields_pure (heq ▸ isFileIfAny_file? config fs path)
  · split
    · exact yields_directory? config fs conditions path
    · exact yields_pure nofun

variable (config fs) in
theorem yields_inPackage? (conditions : List String) (package : Path) (inside : Option String) :
    Yields (IsFileIfAny fs) (inPackage? config fs conditions package inside) := by
  refine (yields_true _).bind fun manifest _ => ?_
  split
  · exact yields_pure (IsFileIfAny.bind fun target => isFileIfAny_file? config fs _)
  · split
    · exact yields_path? config fs conditions _
    · exact yields_directory? config fs conditions package

variable (config fs) in
theorem yields_inPlaces? (conditions : List String) (name : String) (inside : Option String)
    (places : List Path) : Yields (fun answer => ∀ found, answer = some found → IsFileIfAny fs found)
      (inPlaces? config fs conditions name inside places) := by
  induction places with
  | nil => exact yields_pure nofun
  | cons place places ih =>
      unfold inPlaces?
      dsimp only
      split
      · refine (yields_inPackage? config fs conditions _ inside).bind fun answer hanswer => ?_
        refine yields_pure fun found hfound => ?_
        exact Option.some.inj hfound ▸ hanswer
      · split
        · rename_i heq
          refine yields_pure fun found hfound => ?_
          rw [← Option.some.inj hfound, ← heq]
          split
          · exact isFileIfAny_file? config fs _
          · exact nofun
        · exact ih

variable (config fs) in
theorem yields_inSearchPaths? (conditions : List String) (specifier : String)
    (places : List Path) :
    Yields (IsFileIfAny fs) (inSearchPaths? config fs conditions specifier places) := by
  induction places with
  | nil => exact yields_pure nofun
  | cons place places ih =>
      refine (yields_path? config fs conditions _).bind fun answer hanswer => ?_
      split
      · exact yields_pure hanswer
      · exact ih

variable (config fs) in
theorem yields_bare? (specifier : String) (context : ResolveContext) :
    Yields (IsFileIfAny fs) (bare? config fs specifier context) := by
  refine (yields_inPlaces? config fs context.conditions _ _ _).bind fun answer hanswer => ?_
  split
  · exact yields_pure (hanswer _ rfl)
  · exact yields_inSearchPaths? config fs context.conditions specifier config.searchPaths

/-- Whichever way a file is looked for, what is found is one. -/
theorem yields_found? (config : Config) (fs : FileSystem) (specifier : String)
    (context : ResolveContext) : Yields (fun answer => ∀ found, answer = .ok (some found) →
      fs.isFile found = true) (found? config fs specifier context) := by
  have hok : ∀ {answer : Option Path}, IsFileIfAny fs answer →
      Yields (fun answer => ∀ found, answer = .ok (some found) → fs.isFile found = true)
        (pure (Except.ok answer : Except ModuleError (Option Path))) :=
    fun hanswer => yields_pure fun found hfound => hanswer found (Except.ok.inj hfound)
  unfold found?
  split
  · split
    · exact yields_pure nofun
    · split
      · exact yields_pure nofun
      · exact (yields_path? config fs context.conditions _).bind fun _ => hok
  · split
    · exact (yields_path? config fs context.conditions _).bind fun _ => hok
    · exact (yields_bare? config fs specifier context).bind fun _ => hok

/-! ## Ids -/

/-- The path that is found for a specifier. -/
def Finds (fs : FileSystem) (resolver : Resolver) (specifier : String) (context : ResolveContext)
    (path : Path) : Prop :=
  (found? resolver.config fs specifier context resolver.manifests).1 = .ok (some path)

/-- A specifier is resolved to an id, which is not one of a built-in module. -/
structure ResolvesTo (fs : FileSystem) (resolver : Resolver) (specifier : String)
    (context : ResolveContext) (url : String) : Prop where
  resolved : ∃ resolution, (resolver.resolve fs specifier context).1 = .ok resolution ∧
    resolution.url = url
  notBuiltin : ∀ name ∈ resolver.builtins, url ≠ builtinPrefix ++ name

/-- A specifier reaches a file by a path that canonicalization accepts. -/
def Reaches (fs : FileSystem) (resolver : Resolver) (specifier : String)
    (context : ResolveContext) (location : Location) : Prop :=
  ∃ path, Finds fs resolver specifier context path ∧ fs.FileAt path location ∧
    ∃ real, fs.realPath path = .ok real

/-- An id is the real path of a file. -/
structure IsRealFile (fs : FileSystem) (url : String) (location : Location) : Prop where
  spelled : Path.ofString url = Location.toPath location
  /-- The path is absolute and has no `.` and no `..` in it. -/
  components : (Path.ofString url).components = .root :: location.map .normal
  /-- Nothing on the way is a link. -/
  onDirectories : fs.OnDirectories location
  isFile : ∃ content time, fs.node? location = some (.file content time)

/-- A request that succeeds has named a built-in module, or has found a file. -/
theorem cases_of_resolve_eq_ok (h : (resolver.resolve fs specifier context).1 = .ok resolution) :
    (∃ name ∈ resolver.builtins, resolver.builtinName? specifier = some name) ∨
      resolver.builtinName? specifier = none ∧ ∃ path, Finds fs resolver specifier context path ∧
        fs.isFile path = true ∧ resolution = ⟨(canonical fs path).toString,
          some (formatOf resolver.config (canonical fs path)), false⟩ := by
  unfold resolve at h
  split at h
  · cases h
  · split at h
    · rename_i name hname
      split at h
      · rename_i hbuiltin
        exact Or.inl ⟨name, List.contains_iff_mem.mp hbuiltin, hname⟩
      · cases h
    · rename_i hname
      have hfile := yields_found? resolver.config fs specifier context resolver.manifests
      cases hfound : found? resolver.config fs specifier context resolver.manifests with
      | mk answer later =>
          rw [hfound] at h hfile
          cases answer with
          | error e => cases h
          | ok answer =>
              cases answer with
              | none => cases h
              | some path =>
                  cases h
                  exact Or.inr ⟨hname, path, congrArg Prod.fst hfound, hfile path rfl, rfl⟩

/-- A request that succeeds with no built-in module has found a file, and its id is the canonical
form of the path. -/
theorem ResolvesTo.finds {url : String} (h : ResolvesTo fs resolver specifier context url) :
    ∃ path location, Finds fs resolver specifier context path ∧ fs.FileAt path location ∧
      url = (canonical fs path).toString := by
  obtain ⟨⟨resolution, hresolve, rfl⟩, hnot⟩ := h
  rcases cases_of_resolve_eq_ok hresolve with ⟨name, hname, hbuiltin⟩ | ⟨-, path, hfinds, hfile, rfl⟩
  · obtain ⟨rfl, -⟩ := resolve_builtin fs context hbuiltin resolution hresolve
    exact absurd rfl (hnot name hname)
  · obtain ⟨location, hlocation⟩ := exists_fileAt hfile
    exact ⟨path, location, hfinds, hlocation, rfl⟩

/-- What an id says of the file that is reached. -/
theorem ResolvesTo.isRealFile {url : String} (hg : fs.Grounded) (hn : fs.HasTextNames)
    (h : ResolvesTo fs resolver specifier context url)
    (hr : Reaches fs resolver specifier context location) : IsRealFile fs url location := by
  obtain ⟨path, _, hfinds, -, rfl⟩ := h.finds
  obtain ⟨found, hfound, hfile, real, hreal⟩ := hr
  obtain rfl : path = found := Option.some.inj (Except.ok.inj (hfinds.symm.trans hfound))
  obtain ⟨place, node, hfind, rfl⟩ := of_realPath_eq_ok hreal
  have hplace : place.location = location := by
    obtain ⟨content, time, hthere⟩ := hfile
    rw [hthere] at hfind
    cases hfind
    rfl
  obtain ⟨content, time, hnode⟩ := hfile.node
  have hnames := hn.of_node? hnode
  have hspelled : Path.ofString (canonical fs path).toString = Location.toPath location := by
    rw [canonical, hreal, hplace]
    exact ofString_toString_toPath fun name hname => (hnames name hname).2
  refine ⟨hspelled, ?_, hfile.onDirectories hg, content, time, hnode⟩
  rw [hspelled]
  exact components_toPath fun name hname => (hnames name hname).1

/-- An id is the real path of one file. -/
theorem IsRealFile.eq_iff {first second : String} {other : Location} (hn : fs.HasTextNames)
    (h : IsRealFile fs first location) (ho : IsRealFile fs second other) :
    first = second ↔ location = other := by
  obtain ⟨_, _, hnode⟩ := h.isFile
  obtain ⟨_, _, hother⟩ := ho.isFile
  have hpieces := fun name hname => (hn.of_node? hnode name hname).1
  have hpieces' := fun name hname => (hn.of_node? hother name hname).1
  rw [← toPath_inj hpieces hpieces', ← h.spelled, ← ho.spelled]
  refine ⟨congrArg _, fun heq => ?_⟩
  rw [← Path.toString_ofString first, ← Path.toString_ofString second, heq]

/-- The ids a file system gives its files. -/
structure NamesFiles (fs : FileSystem) : Prop where
  /-- A specifier that is resolved, to no built-in module, has led to a file. -/
  finds {resolver : Resolver} {specifier : String} {context : ResolveContext} {url : String}
    (h : ResolvesTo fs resolver specifier context url) :
    ∃ path location, Finds fs resolver specifier context path ∧ fs.FileAt path location
  /-- The id is the real path of this file. -/
  real {resolver : Resolver} {specifier : String} {context : ResolveContext} {url : String}
    {location : Location} (h : ResolvesTo fs resolver specifier context url)
    (hr : Reaches fs resolver specifier context location) : IsRealFile fs url location
  /-- Two ids are equal just if they are ids of the same file. -/
  same {resolver other : Resolver} {specifier asked : String} {context given : ResolveContext}
    {url another : String} {location place : Location}
    (h : ResolvesTo fs resolver specifier context url)
    (hr : Reaches fs resolver specifier context location)
    (ho : ResolvesTo fs other asked given another) (hs : Reaches fs other asked given place) :
    url = another ↔ location = place
  /-- Canonicalization accepts every path that is found, unless it is relative while the working
  directory is lost, or something has too long a path. -/
  accepted {path : Path} {location : Location} (h : fs.FileAt path location)
    (hs : fs.HasShortPaths) (hhere : path.isAbsolute = true ∨ fs.lost = 0) :
    ∃ real, fs.realPath path = .ok real

/-- There is one id for each file, whatever the specifiers, bases, conditions and settings. -/
theorem namesFiles (hg : fs.Grounded) (hn : fs.HasTextNames) : NamesFiles fs where
  finds h := by
    obtain ⟨path, location, hfinds, hfile, -⟩ := h.finds
    exact ⟨path, location, hfinds, hfile⟩
  real h hr := h.isRealFile hg hn hr
  same h hr ho hs := (h.isRealFile hg hn hr).eq_iff hn (ho.isRealFile hg hn hs)
  accepted := by
    rintro path location ⟨content, time, hfind⟩ hs hhere
    exact ⟨_, realPath_of_find hs hfind hhere⟩

/-! ## Links, and a directory that is gone -/

/-- A file and a link to it. -/
def linkedFiles : FileSystem :=
  { FileSystem.empty with
    nodes := [([Bytes.ofText "p"], .directory),
      ([Bytes.ofText "p", Bytes.ofText "a.js"], .file [] ⟨0, 0⟩),
      ([Bytes.ofText "p", Bytes.ofText "é.js"], .link (.ofString "a.js"))] }

/-- A request from a directory. -/
def requestFrom (base : String) : ResolveContext :=
  ⟨"./a.js", .ofString base, ["require"], true⟩

theorem hasTextNames_of_texts (texts : List String)
    (hpieces : ∀ text ∈ texts, Bytes.ofText text ≠ [] ∧ Path.slash ∉ Bytes.ofText text ∧
      Bytes.ofText text ≠ [Path.point] ∧ Bytes.ofText text ≠ [Path.point, Path.point])
    (hnodes : ∀ entry ∈ fs.nodes, ∀ name ∈ entry.1, name ∈ texts.map Bytes.ofText) :
    fs.HasTextNames := by
  intro entry hentry name hname
  obtain ⟨text, htext, rfl⟩ := List.mem_map.mp (hnodes entry hentry name hname)
  obtain ⟨hnil, hslash, hpoint, hpoints⟩ := hpieces text htext
  exact ⟨⟨hnil, hslash, hpoint, hpoints⟩, text, rfl⟩

theorem resolvesTo_of_url {url : String} (hn : resolver.builtins = [])
    (h : (resolver.resolve fs specifier context).1.toOption.map (·.url) = some url) :
    ResolvesTo fs resolver specifier context url := by
  refine ⟨?_, fun name hname => ?_⟩
  · cases hresolve : (resolver.resolve fs specifier context).1 with
    | error e =>
        rw [hresolve] at h
        cases h
    | ok resolution =>
        rw [hresolve] at h
        exact ⟨resolution, rfl, Option.some.inj h⟩
  · rw [hn] at hname
    cases hname

/-- The link and the file have the id of the file. -/
theorem isRealFile_linkedFiles :
    ResolvesTo linkedFiles (.ofConfig {}) "./é.js" (requestFrom "/p") "/p/a.js" ∧
      ResolvesTo linkedFiles (.ofConfig {}) "./p/a.js" (requestFrom "/") "/p/a.js" ∧
      IsRealFile linkedFiles "/p/a.js" [Bytes.ofText "p", Bytes.ofText "a.js"] := by
  have hg : linkedFiles.Grounded := grounded_of_root rfl
  have hn : linkedFiles.HasTextNames :=
    hasTextNames_of_texts ["p", "a.js", "é.js"] (by decide +kernel) (by decide +kernel)
  have hlink : ResolvesTo linkedFiles (.ofConfig {}) "./é.js" (requestFrom "/p") "/p/a.js" :=
    resolvesTo_of_url rfl (by decide +kernel)
  refine ⟨hlink, resolvesTo_of_url rfl (by decide +kernel), ?_⟩
  refine (namesFiles hg hn).real hlink ?_
  exact ⟨.ofString "/p/./é.js", by rfl, ⟨[], ⟨0, 0⟩, by rfl⟩, .ofString "/p/a.js", by rfl⟩

/-- A file, seen from a working directory that has been removed. -/
def orphanedFiles : FileSystem :=
  { FileSystem.empty with
    nodes := [([Bytes.ofText "p"], .directory),
      ([Bytes.ofText "p", Bytes.ofText "a.js"], .file [] ⟨0, 0⟩)]
    workingDirectory := [Bytes.ofText "d"]
    lost := 1 }

/-- Not every id is a real path: by `..` the file is found still, but what it is called does not
begin with a slash. -/
theorem not_resolve_isRealFile : ¬ ∀ (fs : FileSystem) (resolver : Resolver) (specifier : String)
    (context : ResolveContext) (url : String), fs.Grounded → fs.HasTextNames →
    ResolvesTo fs resolver specifier context url → ∃ location, IsRealFile fs url location := by
  intro hall
  have hg : orphanedFiles.Grounded := by
    intro depth hdepth
    obtain rfl : depth = 0 := Nat.le_zero.mp (Nat.le_of_succ_le_succ hdepth)
    rfl
  have hn : orphanedFiles.HasTextNames :=
    hasTextNames_of_texts ["p", "a.js"] (by decide +kernel) (by decide +kernel)
  have hresolves : ResolvesTo orphanedFiles (.ofConfig {}) "./p/a.js" (requestFrom "..") "p/a.js" :=
    resolvesTo_of_url rfl (by decide +kernel)
  obtain ⟨location, hreal⟩ := hall _ _ _ _ _ hg hn hresolves
  have hroot : (Path.ofString "p/a.js").components.head? = some .root := by
    rw [hreal.components, List.head?_cons]
  exact absurd hroot (by decide +kernel)

end Resolver

end ScriptModules
