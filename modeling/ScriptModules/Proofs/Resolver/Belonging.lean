import ScriptModules.Proofs.Files.Spelling
import ScriptModules.Resolver

/-!
# The package a file belongs to

A package stands in a dependency directory, under one name or under a scope and a name.
Packages have dependency directories of their own, so a file may lie in several packages; it
belongs to the innermost one (`BelongsTo`).

Which package a file belongs to can be told from the way to it.  From a package on, as long
as the way only goes down and passes through no directory named like a dependency directory
(`GoesDown`), it comes to files that belong to this package and to no other
(`BelongsTo.eq_of_liesIn`).
-/

namespace ScriptModules

namespace Resolver

open FileSystem
open ScriptModules.Path (IsPiece)

variable {config : Config} {fs : FileSystem} {directory location package other : Location}
  {name : List Name}

/-! ## Packages -/

/-- A dependency directory of some directory. -/
def IsDependencyDirectory (config : Config) (location : Location) : Prop :=
  ∃ text ∈ config.dependencyDirs, ∃ above,
    location = landing (if (Path.ofString text).isAbsolute then [] else above)
      (stepsTo (.ofString text))

/-- The `@` a scope begins with. -/
def scopeMark : UInt8 := 0x40

/-- The pieces of the name of a package. -/
inductive IsPackageName : List Name → Prop where
  | plain (name : Name) (h : name.head? ≠ some scopeMark) : IsPackageName [name]
  | inScope (scope name : Name) (h : scope.head? = some scopeMark) : IsPackageName [scope, name]

/-- A location in a dependency directory under the name of a package. -/
def IsPackage (config : Config) (location : Location) : Prop :=
  ∃ directory name, IsDependencyDirectory config directory ∧ IsPackageName name ∧
    location = directory ++ name

/-- The innermost package a location is in.  A file that stands in a dependency directory
itself is a package of its own. -/
structure BelongsTo (config : Config) (location package : Location) : Prop where
  isPackage : IsPackage config package
  isPrefix : package <+: location
  innermost : ∀ other, IsPackage config other → other <+: location →
    other.length ≤ package.length

/-- The places where packages are looked for are dependency directories. -/
theorem isDependencyDirectory_of_mem {base place : Path}
    (h : place ∈ dependencyPlaces config base) :
    IsDependencyDirectory config (fs.locate place) := by
  unfold dependencyPlaces at h
  obtain ⟨ancestor, -, hplace⟩ := List.mem_flatMap.mp h
  obtain ⟨text, htext, rfl⟩ := List.mem_map.mp hplace
  exact ⟨text, (List.mem_filter.mp htext).1, fs.locate ancestor, locate_join ancestor _⟩

theorem IsPackageName.ne_nil (h : IsPackageName name) : name ≠ [] := by
  cases h <;> simp

/-- What begins one name of a package is no name of another one, unless they are as long. -/
theorem IsPackageName.length_eq {longer : List Name} (h : IsPackageName name)
    (hlonger : IsPackageName longer) (hhead : longer.head? = name.head?) :
    longer.length = name.length := by
  cases h with
  | plain piece hplain =>
      cases hlonger with
      | plain => rfl
      | inScope scope rest hscope =>
          cases hhead
          exact absurd hscope hplain
  | inScope scope piece hscope =>
      cases hlonger with
      | plain other hplain =>
          cases hhead
          exact absurd hscope hplain
      | inScope => rfl

theorem IsPackageName.length_le (h : IsPackageName name) : name.length ≤ 2 := by
  cases h <;> simp

/-! ## Ways down -/

/-- No dependency directory has this name. -/
def Apart (config : Config) (name : Name) : Prop :=
  ∀ directory, IsDependencyDirectory config directory → directory.getLast? ≠ some name

/-- A path that only goes down, and through no dependency directory. -/
structure GoesDown (config : Config) (path : Path) : Prop where
  relative : path.isAbsolute = false
  noParent : .up ∉ stepsTo path
  apart : ∀ name, .down name ∈ stepsTo path → Apart config name

/-- A place below a package, on a way through no dependency directory, which may lead on. -/
def Below (config : Config) (package location : Location) : Prop :=
  ∃ rest, location = package ++ rest ∧ ∀ name ∈ rest, Apart config name

/-- The same of the last place on a way. -/
def LiesIn (config : Config) (package location : Location) : Prop :=
  ∃ rest, location = package ++ rest ∧ ∀ name ∈ rest.dropLast, Apart config name

/-- A name is apart if no dependency directory is called so. -/
theorem apart_of_ne {name : Name}
    (h : ∀ text ∈ config.dependencyDirs, IsPiece (Bytes.ofText text) ∧ Bytes.ofText text ≠ name) :
    Apart config name := by
  rintro directory ⟨text, htext, above, rfl⟩
  obtain ⟨hpiece, hne⟩ := h text htext
  have hsteps : stepsTo (.ofString text) = [.down (Bytes.ofText text)] :=
    stepsTo_of_isPiece hpiece
  have hrelative : (Path.ofString text).isAbsolute = false := isAbsolute_of_isPiece hpiece
  rw [hsteps, hrelative]
  simpa [landing, Step.landing] using hne

theorem Below.refl (config : Config) (package : Location) : Below config package package :=
  ⟨[], by simp, by simp⟩

theorem Below.isPrefix (h : Below config package location) : package <+: location := by
  obtain ⟨rest, rfl, -⟩ := h
  exact List.prefix_append package rest

/-- A file on a way that goes on from below a package lies in it. -/
theorem Below.trans (h : Below config package location) (hl : LiesIn config location other) :
    LiesIn config package other := by
  obtain ⟨first, rfl, hfirst⟩ := h
  obtain ⟨rest, rfl, hrest⟩ := hl
  refine ⟨first ++ rest, by simp, ?_⟩
  intro name hname
  cases hnil : rest with
  | nil =>
      rw [hnil, List.append_nil] at hname
      exact hfirst name (List.dropLast_subset first hname)
  | cons piece pieces =>
      rw [List.dropLast_append_of_ne_nil (by simp [hnil]), List.mem_append] at hname
      exact hname.elim (hfirst name) (hrest name)

/-- Going down from below a package leads below the package. -/
theorem Below.join {base path : Path} (h : Below config package (fs.locate base))
    (hpath : GoesDown config path) : Below config package (fs.locate (base.join path)) := by
  obtain ⟨rest, hrest, hapart⟩ := h
  rw [locate_join, hpath.relative, if_neg Bool.false_ne_true,
    landing_eq_append hpath.noParent, hrest]
  refine ⟨rest ++ namesOf (stepsTo path), by simp, ?_⟩
  intro name hname
  rw [List.mem_append] at hname
  exact hname.elim (hapart name) fun hmem => hpath.apart name (mem_namesOf.mp hmem)

theorem Below.liesIn (h : Below config package location) : LiesIn config package location := by
  obtain ⟨rest, heq, hapart⟩ := h
  exact ⟨rest, heq, fun name hname => hapart name (List.dropLast_subset rest hname)⟩

/-! ## Suffixes -/

/-- A text that makes a name of a name when it is put after it. -/
structure IsSuffix (suffix : String) : Prop where
  slash_notMem : Path.slash ∉ Bytes.ofText suffix
  ne_point : Bytes.ofText suffix ≠ [Path.point]
  ne_points : Bytes.ofText suffix ≠ [Path.point, Path.point]

theorem ofPiece?_eq_up_iff {piece : Bytes} :
    Step.ofPiece? piece = some .up ↔ piece = [Path.point, Path.point] := by
  constructor
  · intro h
    unfold Step.ofPiece? at h
    split at h
    · cases h
    split at h
    · cases h
    split at h
    · assumption
    · cases h
  · rintro rfl
    rfl

/-- A suffix makes no step up of another step. -/
theorem IsSuffix.ofPiece?_ne_up {suffix : String} (h : IsSuffix suffix) {piece : Bytes}
    (hpiece : Step.ofPiece? piece ≠ some .up) :
    Step.ofPiece? (piece ++ Bytes.ofText suffix) ≠ some .up := by
  rw [ne_eq, ofPiece?_eq_up_iff] at hpiece ⊢
  intro heq
  rcases piece with - | ⟨first, - | ⟨second, rest⟩⟩
  · exact h.ne_points heq
  · exact h.ne_point (List.cons.inj heq).2
  · have hrest : rest ++ Bytes.ofText suffix = [] := (List.cons.inj (List.cons.inj heq).2).2
    apply hpiece
    rw [← heq, (List.append_eq_nil_iff.mp hrest).2, List.append_nil]

/-- A suffix on a way down changes its last place at most. -/
theorem Below.append {base path : Path} {suffix : String}
    (h : Below config package (fs.locate base)) (hpath : GoesDown config path)
    (hsuffix : IsSuffix suffix) :
    LiesIn config package (fs.locate ((base.join path).append suffix)) := by
  have hrelative := Path.isAbsolute_append hpath.relative hsuffix.slash_notMem
  obtain ⟨before, last, hsteps, hafter⟩ := stepsTo_append hsuffix.slash_notMem path
  have hup : .up ∉ stepsTo (path.append suffix) := by
    have hno := hpath.noParent
    rw [hsteps] at hno
    rw [hafter]
    simp only [List.mem_append, not_or, Option.mem_toList] at hno ⊢
    exact ⟨hno.1, hsuffix.ofPiece?_ne_up hno.2⟩
  rw [Path.append_join _ hpath.relative hsuffix.slash_notMem, locate_join, hrelative,
    if_neg Bool.false_ne_true, landing_eq_append hup]
  refine h.trans ⟨namesOf (stepsTo (path.append suffix)), rfl, ?_⟩
  intro name hname
  refine hpath.apart name ?_
  rw [hsteps, List.mem_append]
  refine Or.inl (mem_namesOf.mp ?_)
  rw [hafter] at hname
  cases hlast : Step.ofPiece? (last ++ Bytes.ofText suffix) with
  | none =>
      rw [hlast, Option.toList_none, List.append_nil] at hname
      exact List.dropLast_subset _ hname
  | some step =>
      rw [hlast] at hname
      exact mem_namesOf_of_dropLast hname

/-! ## The innermost package -/

/-- A way down from a package passes through no other one. -/
theorem BelongsTo.eq_of_liesIn (h : BelongsTo config location other)
    (hd : IsDependencyDirectory config directory) (hn : IsPackageName name)
    (hapart : ∀ piece ∈ name, Apart config piece)
    (hl : LiesIn config (directory ++ name) location) : other = directory ++ name := by
  have hbelow : Below config directory (directory ++ name) := ⟨name, rfl, hapart⟩
  obtain ⟨rest, hlocation, hrest⟩ := hbelow.trans hl
  have hprefix : directory ++ name <+: location := by
    obtain ⟨inside, hinside, -⟩ := hl
    exact ⟨inside, hinside.symm⟩
  have hlonger : (directory ++ name).length ≤ other.length :=
    h.innermost _ ⟨directory, name, hd, hn, rfl⟩ hprefix
  obtain ⟨place, called, hplace, hcalled, rfl⟩ := h.isPackage
  have hout : place <+: location := (List.prefix_append place called).trans h.isPrefix
  have hin : directory <+: location := ⟨rest, hlocation.symm⟩
  -- The dependency directory of the other package is not on the way.
  have hshort : place.length ≤ directory.length := by
    refine Nat.le_of_not_lt fun hlt => ?_
    obtain ⟨way, rfl⟩ := List.prefix_of_prefix_length_le hin hout (Nat.le_of_lt hlt)
    have hway : way ≠ [] := by
      rintro rfl
      simp at hlt
    obtain ⟨after, hafter⟩ := h.isPrefix
    have heq : rest = way ++ (called ++ after) := by
      rw [← hafter, List.append_assoc, List.append_assoc] at hlocation
      exact (List.append_cancel_left hlocation).symm
    have hlast : way.getLast hway ∈ rest.dropLast := by
      rw [heq, List.dropLast_append_of_ne_nil (by simp [hcalled.ne_nil]), List.mem_append]
      exact Or.inl (List.getLast_mem hway)
    refine hrest _ hlast _ hplace ?_
    rw [List.getLast?_append, List.getLast?_eq_some_getLast hway]
    rfl
  -- Nor does it stand above the other one's, or their names would not be as long as they are.
  have hsame : (place ++ called).length = (directory ++ name).length := by
    simp only [List.length_append] at hlonger ⊢
    have hnonempty := List.length_pos_iff.mpr hn.ne_nil
    have htwo := hcalled.length_le
    by_cases heq : place.length = directory.length
    · obtain rfl : place = directory :=
        (List.prefix_of_prefix_length_le hout hin hshort).eq_of_length heq
      have hhead : called.head? = name.head? := by
        obtain ⟨after, hafter⟩ := h.isPrefix
        obtain ⟨inside, hinside⟩ := hprefix
        rw [← hinside, List.append_assoc, List.append_assoc] at hafter
        have hheads := congrArg List.head? (List.append_cancel_left hafter)
        rw [List.head?_append, List.head?_append, List.head?_eq_some_head hcalled.ne_nil,
          List.head?_eq_some_head hn.ne_nil] at hheads
        rw [List.head?_eq_some_head hcalled.ne_nil, List.head?_eq_some_head hn.ne_nil]
        exact hheads
      rw [hn.length_eq hcalled hhead]
    · omega
  exact (List.prefix_of_prefix_length_le h.isPrefix hprefix (Nat.le_of_eq hsame)).eq_of_length
    hsame

end Resolver

end ScriptModules
