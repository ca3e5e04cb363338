import ScriptModules.Proofs.Resolver.Looking
import ScriptModules.Proofs.Resolver.Sealing

/-!
# The closest package decides

A bare specifier is looked for level by level, and after the last level in the search paths.  The
first level that has the package, as a directory or as a single file, decides: what the search comes
to, be it a file or nothing, is what it comes to at this level (`decidesByLevel`).

That nothing else is consulted is said by the looks of the search.  They are a few looks at each
level that is nearer, those of the deciding level, and no more (`levelsSearch_pass`,
`levelsSearch_stop`), and what a search comes to depends on its own looks alone (`run_of_trail`).
-/

namespace ScriptModules

namespace Resolver

open FileSystem
open Package (Finder Manifest)

variable {config : Config} {fs other : FileSystem} {conditions : List String} {name : String}
  {inside : Option String} {nearer further : List Level} {level : Level} {finder later last : Finder}
  {specifier : String} {found : Path}

/-! ## What a search depends on -/

/-- A search comes to the same wherever its looks are answered alike. -/
theorem run_of_trail {α : Type} (search : Program looking α) (finder : Finder)
    (h : ∀ look ∈ trail fs search finder, answerLook other look = answerLook fs look) :
    search.run (answerLook other) finder = search.run (answerLook fs) finder := by
  induction search generalizing finder with
  | done result => rfl
  | ask look rest ih =>
      obtain ⟨hlook, hrest⟩ := List.forall_mem_cons.mp h
      simp only [Program.run, hlook]
      exact ih _ _ hrest

/-! ## One level -/

/-- A level has a package: as a directory, or, if nothing inside it is asked for, as a file, with
or without one of the extensions. -/
def HasPackage (config : Config) (fs : FileSystem) (name : String) (inside : Option String)
    (level : Level) : Prop :=
  fs.isDirectory (level.package name) = true ∨
    inside = none ∧ ∃ path ∈ candidates config (level.package name), fs.isFile path = true

/-- What a level that has the package answers. -/
def atLevel? (config : Config) (fs : FileSystem) (conditions : List String) (name : String)
    (inside : Option String) (level : Level) : StateM Finder (Option Path) := do
  if fs.isDirectory (level.package name) then
    inPackage? config fs conditions (level.package name) inside
  else return file? config fs (level.package name)

/-- The looks at a level that does not have the package. -/
def Level.looks (config : Config) (name : String) (inside : Option String) (level : Level) :
    List Look :=
  .directory (level.package name) :: match inside with
    | none => (candidates config (level.package name)).map .file
    | some _ => []

theorem trail_firstFile {paths : List Path} (h : ∀ path ∈ paths, fs.isFile path ≠ true)
    (finder : Finder) : trail fs (firstFile paths) finder = paths.map .file := by
  induction paths with
  | nil => rfl
  | cons path paths ih =>
      obtain ⟨hpath, hpaths⟩ := List.forall_mem_cons.mp h
      have hfalse : fs.isFile path = false := Bool.not_eq_true _ ▸ hpath
      simp only [firstFile, trail, answerLook, hfalse, cond_false, ih hpaths, List.map_cons]

theorem not_hasPackage_iff : ¬ HasPackage config fs name inside level ↔
    fs.isDirectory (level.package name) = false ∧
      (inside = none → ∀ path ∈ candidates config (level.package name), fs.isFile path ≠ true) := by
  rw [HasPackage, not_or, Bool.not_eq_true]
  simp only [not_and, not_exists, ne_eq]

/-- A level without the package is passed with a few looks. -/
theorem singleSearch_of_not_hasPackage (h : ¬ HasPackage config fs name inside level)
    (finder : Finder) :
    (singleSearch config (level.package name) inside).run (answerLook fs) finder = (none, finder) ∧
      .directory (level.package name) ::
        trail fs (singleSearch config (level.package name) inside) finder =
          level.looks config name inside := by
  obtain ⟨-, hfiles⟩ := not_hasPackage_iff.mp h
  cases inside with
  | none =>
      have hnone := hfiles rfl
      refine ⟨?_, ?_⟩
      · rw [singleSearch, run_fileSearch]
        exact congrArg (·, finder) (List.find?_eq_none.mpr hnone)
      · rw [singleSearch, fileSearch, trail_firstFile hnone]
        rfl
  | some inside => exact ⟨rfl, rfl⟩

/-- A level with the package answers at once. -/
theorem run_levelSearch (h : HasPackage config fs name inside level) :
    (levelSearch config conditions name inside level).run (answerLook fs) =
      atLevel? config fs conditions name inside level := by
  funext finder
  simp only [levelSearch, Program.run, answerLook, atLevel?]
  by_cases hd : fs.isDirectory (level.package name) = true
  · rw [hd, cond_true, run_packageSearch, if_pos rfl]
  · obtain ⟨rfl, -⟩ := h.resolve_left hd
    rw [Bool.not_eq_true] at hd
    rw [hd, cond_false, run_singleSearch, if_neg Bool.false_ne_true]
    rfl

/-! ## All levels -/

variable {otherwise : Search}

variable (conditions otherwise) in
/-- A level without the package leaves the search to the next one. -/
theorem levelsSearch_skip (h : ¬ HasPackage config fs name inside level) (rest : List Level)
    (finder : Finder) :
    (levelsSearch config conditions name inside otherwise (level :: rest)).run (answerLook fs) finder =
        (levelsSearch config conditions name inside otherwise rest).run (answerLook fs) finder ∧
      trail fs (levelsSearch config conditions name inside otherwise (level :: rest)) finder =
        level.looks config name inside ++
          trail fs (levelsSearch config conditions name inside otherwise rest) finder := by
  obtain ⟨hrun, htrail⟩ := singleSearch_of_not_hasPackage h finder
  obtain ⟨hd, -⟩ := not_hasPackage_iff.mp h
  refine ⟨?_, ?_⟩
  · simp only [levelsSearch, Program.run, answerLook, hd, cond_false, run_orElse, hrun]
  · simp only [levelsSearch, trail, answerLook, hd, cond_false, trail_orElse, hrun]
    rw [← htrail, List.cons_append]

variable (conditions otherwise) in
/-- The levels without the package are passed one after the other. -/
theorem levelsSearch_pass (h : ∀ other ∈ nearer, ¬ HasPackage config fs name inside other)
    (rest : List Level) (finder : Finder) :
    (levelsSearch config conditions name inside otherwise (nearer ++ rest)).run (answerLook fs) finder =
        (levelsSearch config conditions name inside otherwise rest).run (answerLook fs) finder ∧
      trail fs (levelsSearch config conditions name inside otherwise (nearer ++ rest)) finder =
        nearer.flatMap (Level.looks config name inside) ++
          trail fs (levelsSearch config conditions name inside otherwise rest) finder := by
  induction nearer with
  | nil => exact ⟨rfl, rfl⟩
  | cons first nearer ih =>
      obtain ⟨hfirst, hnearer⟩ := List.forall_mem_cons.mp h
      obtain ⟨hrun, htrail⟩ := levelsSearch_skip conditions otherwise hfirst (nearer ++ rest) finder
      obtain ⟨hrunRest, htrailRest⟩ := ih hnearer
      rw [List.cons_append, hrun, htrail, hrunRest, htrailRest, List.flatMap_cons, List.append_assoc]
      exact ⟨rfl, rfl⟩

/-- A level with the package ends the search. -/
theorem levelsSearch_stop (h : HasPackage config fs name inside level) (finder : Finder) :
    (levelsSearch config conditions name inside otherwise (level :: further)).run (answerLook fs)
        finder = (levelSearch config conditions name inside level).run (answerLook fs) finder ∧
      trail fs (levelsSearch config conditions name inside otherwise (level :: further)) finder =
        trail fs (levelSearch config conditions name inside level) finder := by
  simp only [levelsSearch, levelSearch, Program.run, trail, answerLook]
  by_cases hd : fs.isDirectory (level.package name) = true
  · simp only [hd, cond_true, and_self]
  · obtain ⟨rfl, path, hpath, hfile⟩ := h.resolve_left hd
    rw [Bool.not_eq_true] at hd
    obtain ⟨single, hsingle⟩ : ∃ single, file? config fs (level.package name) = some single :=
      Option.isSome_iff_exists.mp (List.find?_isSome.mpr ⟨path, hpath, hfile⟩)
    have hrun : (fileSearch config (level.package name)).run (answerLook fs) finder =
        (file? config fs (level.package name), finder) := run_fileSearch _ finder
    rw [hsingle] at hrun
    simp only [hd, cond_false, singleSearch, run_orElse, trail_orElse, hrun, List.append_nil,
      and_self]

/-! ## Search paths -/

/-- None of some search paths has the specifier, one looked at after the other. -/
inductive Misses (config : Config) (fs : FileSystem) (conditions : List String)
    (specifier : String) : List Path → Finder → Finder → Prop where
  | nil (finder : Finder) : Misses config fs conditions specifier [] finder finder
  | cons {place : Path} {places : List Path} {finder later last : Finder}
      (h : path? config fs conditions (place.join (.ofString specifier)) finder = (none, later))
      (hrest : Misses config fs conditions specifier places later last) :
      Misses config fs conditions specifier (place :: places) finder last

/-- What is found in the search paths is what the first of them with a match gives. -/
theorem inSearchPaths?_eq_some_iff {places : List Path} :
    inSearchPaths? config fs conditions specifier places finder = (some found, last) ↔
      ∃ before place after later, places = before ++ place :: after ∧
        Misses config fs conditions specifier before finder later ∧
        path? config fs conditions (place.join (.ofString specifier)) later = (some found, last) := by
  constructor
  · intro h
    induction places generalizing finder with
    | nil => cases h
    | cons place places ih =>
        simp only [inSearchPaths?, bind, StateT.bind] at h
        cases hpath : path? config fs conditions (place.join (.ofString specifier)) finder with
        | mk answer later =>
            rw [hpath] at h
            cases answer with
            | some path => exact ⟨[], place, places, _, rfl, .nil _, hpath.trans h⟩
            | none =>
                obtain ⟨before, other, after, there, rfl, hbefore, hother⟩ := ih h
                exact ⟨place :: before, other, after, there, rfl, .cons hpath hbefore, hother⟩
  · rintro ⟨before, place, after, later, rfl, hbefore, hplace⟩
    induction hbefore with
    | nil finder =>
        simp only [List.nil_append, inSearchPaths?, bind, StateT.bind, hplace]
        rfl
    | cons hmiss _ ih =>
        simp only [List.cons_append, inSearchPaths?, bind, StateT.bind, hmiss]
        exact ih hplace

theorem inSearchPaths?_eq_none_iff {places : List Path} :
    inSearchPaths? config fs conditions specifier places finder = (none, last) ↔
      Misses config fs conditions specifier places finder last := by
  constructor
  · intro h
    induction places generalizing finder with
    | nil =>
        cases h
        exact .nil _
    | cons place places ih =>
        simp only [inSearchPaths?, bind, StateT.bind] at h
        cases hpath : path? config fs conditions (place.join (.ofString specifier)) finder with
        | mk answer later =>
            rw [hpath] at h
            cases answer with
            | some path => cases h
            | none => exact .cons hpath (ih h)
  · intro h
    induction h with
    | nil finder => rfl
    | cons hmiss _ ih =>
        simp only [inSearchPaths?, bind, StateT.bind, hmiss]
        exact ih

/-! ## Bare specifiers -/

/-- What is answered to a specifier when the search for its file has come to an end. -/
def settled (config : Config) (fs : FileSystem) (specifier : String) (context : ResolveContext) :
    Option Path → Except ModuleError Resolution
  | none => .error (notFound specifier context)
  | some path =>
    .ok ⟨(canonical fs path).toString, some (formatOf config (canonical fs path)), false⟩

/-- A bare specifier resolves to what the search for a bare specifier comes to. -/
theorem IsBare.resolve_eq {resolver : Resolver} {context : ResolveContext}
    (h : IsBare resolver specifier) (hflaw : flaw? specifier = none) :
    resolver.resolve fs specifier context =
      (settled resolver.config fs specifier context
          (bare? resolver.config fs specifier context resolver.manifests).1,
        { resolver with
          manifests := (bare? resolver.config fs specifier context resolver.manifests).2 }) := by
  have hfound : found? resolver.config fs specifier context resolver.manifests =
      (.ok (bare? resolver.config fs specifier context resolver.manifests).1,
        (bare? resolver.config fs specifier context resolver.manifests).2) := by
    unfold found?
    rw [h.notUrl]
    simp only [h.notPath]
    rfl
  simp only [Resolver.resolve, hflaw, h.notBuiltin, hfound]
  cases (bare? resolver.config fs specifier context resolver.manifests).1 <;> rfl

/-- How a bare specifier is looked for: the first level that has the package decides, and if none
has it the first search path with a match. -/
structure DecidesByLevel (config : Config) (fs : FileSystem) (specifier : String)
    (context : ResolveContext) : Prop where
  /-- The search is made of looks. -/
  looks : (bareSearch config specifier context).run (answerLook fs) =
    bare? config fs specifier context
  /-- What it comes to is what it comes to at the first level that has the package. -/
  decided {nearer further : List Level} {level : Level}
    (hlevels : levels config context.base = nearer ++ level :: further)
    (hnearer : ∀ other ∈ nearer,
      ¬ HasPackage config fs (splitPackage specifier).1 (splitPackage specifier).2 other)
    (h : HasPackage config fs (splitPackage specifier).1 (splitPackage specifier).2 level) :
    bare? config fs specifier context =
      atLevel? config fs context.conditions (splitPackage specifier).1 (splitPackage specifier).2
        level
  /-- And it looks at nothing behind this level. -/
  consulted {nearer further : List Level} {level : Level}
    (hlevels : levels config context.base = nearer ++ level :: further)
    (hnearer : ∀ other ∈ nearer,
      ¬ HasPackage config fs (splitPackage specifier).1 (splitPackage specifier).2 other)
    (h : HasPackage config fs (splitPackage specifier).1 (splitPackage specifier).2 level)
    (finder : Finder) : trail fs (bareSearch config specifier context) finder =
      nearer.flatMap (Level.looks config (splitPackage specifier).1 (splitPackage specifier).2) ++
        trail fs (levelSearch config context.conditions (splitPackage specifier).1
          (splitPackage specifier).2 level) finder
  /-- So nothing else makes a difference to it. -/
  settles {nearer further : List Level} {level : Level} {finder : Finder} {other : FileSystem}
    (hlevels : levels config context.base = nearer ++ level :: further)
    (hnearer : ∀ other ∈ nearer,
      ¬ HasPackage config fs (splitPackage specifier).1 (splitPackage specifier).2 other)
    (h : HasPackage config fs (splitPackage specifier).1 (splitPackage specifier).2 level)
    (halike : ∀ look ∈ nearer.flatMap (Level.looks config (splitPackage specifier).1
          (splitPackage specifier).2) ++ trail fs (levelSearch config context.conditions
            (splitPackage specifier).1 (splitPackage specifier).2 level) finder,
      answerLook other look = answerLook fs look) :
    bare? config other specifier context finder = bare? config fs specifier context finder
  /-- Without such a level the first search path with a match gives the file. -/
  matched (hnone : ∀ level ∈ levels config context.base,
      ¬ HasPackage config fs (splitPackage specifier).1 (splitPackage specifier).2 level)
    {found : Path} {finder last : Finder} :
    bare? config fs specifier context finder = (some found, last) ↔
      ∃ before place after later, config.searchPaths = before ++ place :: after ∧
        Misses config fs context.conditions specifier before finder later ∧
        path? config fs context.conditions (place.join (.ofString specifier)) later =
          (some found, last)
  /-- And if none has a match there is no file. -/
  missed (hnone : ∀ level ∈ levels config context.base,
      ¬ HasPackage config fs (splitPackage specifier).1 (splitPackage specifier).2 level)
    {finder last : Finder} : bare? config fs specifier context finder = (none, last) ↔
      Misses config fs context.conditions specifier config.searchPaths finder last
  /-- That is what the specifier resolves to. -/
  resolved {resolver : Resolver} (hconfig : resolver.config = config)
    (h : IsBare resolver specifier) (hflaw : flaw? specifier = none) :
    (resolver.resolve fs specifier context).1 = settled config fs specifier context
      (bare? config fs specifier context resolver.manifests).1

/-- Whatever the levels hold, a bare specifier is looked for so. -/
theorem decidesByLevel (config : Config) (fs : FileSystem) (specifier : String)
    (context : ResolveContext) : DecidesByLevel config fs specifier context := by
  have hpaths : (∀ level ∈ levels config context.base,
      ¬ HasPackage config fs (splitPackage specifier).1 (splitPackage specifier).2 level) →
      bare? config fs specifier context =
        inSearchPaths? config fs context.conditions specifier config.searchPaths := by
    intro hnone
    funext finder
    have hpass := (levelsSearch_pass context.conditions
      (searchPathsSearch config context.conditions specifier config.searchPaths) hnone []
      finder).1
    rw [List.append_nil] at hpass
    rw [← run_bareSearch, bareSearch, hpass, levelsSearch, run_searchPathsSearch]
  have htrail : ∀ {nearer further : List Level} {level : Level},
      levels config context.base = nearer ++ level :: further →
      (∀ other ∈ nearer,
        ¬ HasPackage config fs (splitPackage specifier).1 (splitPackage specifier).2 other) →
      HasPackage config fs (splitPackage specifier).1 (splitPackage specifier).2 level →
      ∀ finder, trail fs (bareSearch config specifier context) finder =
        nearer.flatMap (Level.looks config (splitPackage specifier).1 (splitPackage specifier).2) ++
          trail fs (levelSearch config context.conditions (splitPackage specifier).1
            (splitPackage specifier).2 level) finder := by
    intro nearer further level hlevels hnearer h finder
    rw [bareSearch, hlevels, (levelsSearch_pass _ _ hnearer _ finder).2, (levelsSearch_stop h finder).2]
  constructor
  case looks => exact run_bareSearch specifier context
  case decided =>
    intro nearer further level hlevels hnearer h
    funext finder
    rw [← run_bareSearch, bareSearch, hlevels, (levelsSearch_pass _ _ hnearer _ finder).1,
      (levelsSearch_stop h finder).1, run_levelSearch h]
  case consulted =>
    intro nearer further level hlevels hnearer h finder
    exact htrail hlevels hnearer h finder
  case settles =>
    intro nearer further level finder other hlevels hnearer h halike
    rw [← run_bareSearch, ← run_bareSearch]
    exact run_of_trail _ finder (htrail hlevels hnearer h finder ▸ halike)
  case matched =>
    intro hnone found finder last
    rw [hpaths hnone]
    exact inSearchPaths?_eq_some_iff
  case missed =>
    intro hnone finder last
    rw [hpaths hnone]
    exact inSearchPaths?_eq_none_iff
  case resolved =>
    rintro resolver rfl h hflaw
    rw [h.resolve_eq hflaw]

/-! ## A package that does not give a file -/

/-- A package in `/app` that exports one file, and one of the same name in the root with another
file. -/
def nestedPackages : FileSystem :=
  { FileSystem.empty with nodes := [
      ([Bytes.ofText "app"], .directory),
      ([Bytes.ofText "app", Bytes.ofText "node_modules"], .directory),
      ([Bytes.ofText "app", Bytes.ofText "node_modules", Bytes.ofText "pkg"], .directory),
      ([Bytes.ofText "app", Bytes.ofText "node_modules", Bytes.ofText "pkg",
        Bytes.ofText "package.json"], .file (Bytes.ofText sealingText) ⟨0, 0⟩),
      ([Bytes.ofText "node_modules"], .directory),
      ([Bytes.ofText "node_modules", Bytes.ofText "pkg"], .directory),
      ([Bytes.ofText "node_modules", Bytes.ofText "pkg", Bytes.ofText "private.js"],
        .file [] ⟨0, 0⟩)] }

/-- Packages may also stand in directories called `lib`. -/
def twoDirectories : Config :=
  { dependencyDirs := ["lib", "node_modules"] }

/-- A request made in `/app`. -/
def requestInApp : ResolveContext :=
  { specifier := "pkg/private.js", base := .ofString "/app", conditions := ["require"],
    isMain := true }

/-- The closer package has no such file for others, so there is none, though the package in the
root has one. -/
theorem decidesByLevel_nestedPackages :
    HasPackage twoDirectories nestedPackages "pkg" (some "private.js")
        ⟨.ofString "/", "node_modules"⟩ ∧
      (bare? twoDirectories nestedPackages "pkg/private.js" requestInApp
        (.ofName "package.json")).1 = none := by
  have hsplit : splitPackage "pkg/private.js" = ("pkg", some "private.js") := by decide +kernel
  have hlevels : levels twoDirectories requestInApp.base =
      [⟨.ofString "/app", "lib"⟩] ++ ⟨.ofString "/app", "node_modules"⟩ ::
        [⟨.ofString "/", "lib"⟩, ⟨.ofString "/", "node_modules"⟩] := by decide +kernel
  have hdecided := (decidesByLevel twoDirectories nestedPackages "pkg/private.js"
    requestInApp).decided hlevels
  rw [hsplit] at hdecided
  refine ⟨Or.inl (by decide +kernel), ?_⟩
  rw [hdecided ?_ (Or.inl (by decide +kernel))]
  · decide +kernel
  · intro level hlevel
    rw [List.mem_singleton.mp hlevel, not_hasPackage_iff]
    exact ⟨by decide +kernel, nofun⟩

end Resolver

end ScriptModules
