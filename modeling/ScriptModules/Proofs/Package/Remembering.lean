import ScriptModules.Package.Finder
import ScriptModules.Proofs.Package.Directories

/-!
# What a finder remembers

A search upward stops at the first directory whose answer is known, and leaves its own answer
with every directory it has passed.  What is remembered of a directory is then what a search from
there finds, whoever has asked first (`Recalls`).  So the answers of a finder do not depend on
what it has been asked (`Recalls.ask`), and since it passes only directories of which it knows
nothing, it knows just as many as it has looked at.

That holds of paths that are spelled plainly or are short.  A memory goes by components, and a
file system does not: with enough slashes in it a path is too long, and then there is no
manifest for any spelling of it (`not_answersAfresh`).
-/

namespace ScriptModules

open FileSystem
open ScriptModules.Path (Spelled Bounded IsTidy IsPiece componentOf)

namespace Package

variable {fs : FileSystem} {name : Name} {path other directory : Path}
  {pieces : List Bytes} {finder : Finder} {answer : Option Path}

/-! ## Questions -/

/-- What a finder can be asked to do. -/
inductive Question where
  | find (path : Path)
  | findFrom (directory : Path)
  | manifestAt (path : Path)
  | manifestIn (directory : Path)
  | nearest (path : Path)
  | clear

/-- The answer of a finder: a path, which is known by its components, and the contents of a
manifest. -/
structure Answer where
  place : Option (List Component) := none
  manifest : Option Manifest := none

/-- A path is usable for a directory: it can be spelled by pieces, and with the name of a
manifest behind it is plain or short. -/
structure Usable (name : Name) (directory : Path) : Prop where
  spelled : ∃ pieces, Spelled directory pieces
  bounded : (directory.join ⟨name⟩).Bounded

/-- A path is usable for a manifest. -/
structure Readable (path : Path) : Prop where
  spelled : ∃ pieces, Spelled path pieces
  bounded : path.Bounded

namespace Finder

/-- Asks a finder. -/
def ask (finder : Finder) (fs : FileSystem) : Question → Answer × Finder
  | .find path =>
    let (answer, finder) := finder.find fs path
    (⟨answer.map (·.components), none⟩, finder)
  | .findFrom directory =>
    let (answer, finder) := finder.findFrom fs directory
    (⟨answer.map (·.components), none⟩, finder)
  | .manifestAt path =>
    let (answer, finder) := finder.manifestAt fs path
    (⟨none, answer⟩, finder)
  | .manifestIn directory =>
    let (answer, finder) := finder.manifestIn fs directory
    (⟨none, answer⟩, finder)
  | .nearest path =>
    let (answer, finder) := finder.nearest fs path
    (⟨answer.map (·.1.components), answer.map (·.2)⟩, finder)
  | .clear => ({}, finder.clear)

/-- Asks a finder one thing after the other. -/
def askAll (finder : Finder) (fs : FileSystem) (questions : List Question) : Finder :=
  questions.foldl (fun finder question => (finder.ask fs question).2) finder

end Finder

/-- The path of a question is tidy, if it has one. -/
def Question.IsTidy : Question → Prop
  | .find path | .findFrom path | .manifestAt path | .manifestIn path | .nearest path => path.IsTidy
  | .clear => True

/-- The path of a question is plain or short, with the name of a manifest behind it where one is
looked for. -/
def Question.IsBounded (name : Name) : Question → Prop
  | .find path | .findFrom path | .manifestIn path | .nearest path => (path.join ⟨name⟩).Bounded
  | .manifestAt path => path.Bounded
  | .clear => True

/-- What may be asked of a finder. -/
structure Question.Allowed (name : Name) (question : Question) : Prop where
  tidy : question.IsTidy
  bounded : question.IsBounded name

/-! ## Directories -/

theorem Usable.readable (h : Usable name directory) (hname : IsPiece name) :
    Readable (directory.join ⟨name⟩) := by
  obtain ⟨pieces, hpieces⟩ := h.spelled
  exact ⟨⟨_, hpieces.join hname⟩, h.bounded⟩

theorem Usable.names_join (h : Usable name directory) (hname : IsPiece name) :
    (directory.join ⟨name⟩).names = directory.names ++ [name] := by
  obtain ⟨pieces, hpieces⟩ := h.spelled
  exact hpieces.names_join hname

/-- The way up from a directory: it is the root, or it goes on above the last name. -/
theorem Usable.cases (h : Usable name directory) (hname : IsPiece name) :
    (directory.names = [] ∧ directory.ancestors = [directory]) ∨
      ∃ parent last, Usable name parent ∧ directory.names = parent.names ++ [last] ∧
        directory.ancestors = directory :: parent.ancestors := by
  obtain ⟨⟨pieces, hpieces⟩, hbounded⟩ := h
  rcases List.eq_nil_or_concat pieces with rfl | ⟨front, last, heq⟩
  · exact Or.inl ⟨hpieces.names, hpieces.ancestors_root⟩
  · rw [List.concat_eq_append] at heq
    subst heq
    obtain ⟨parent, kept, hparent, hkept, hnames, hancestors⟩ := hpieces.ancestors
    refine Or.inr ⟨parent, last, ⟨⟨kept, hparent⟩, ?_⟩, hnames, hancestors⟩
    have hjoin := hpieces.join hname
    have hparentJoin := hparent.join hname
    obtain ⟨empties, rfl⟩ := hkept
    refine hbounded.imp (fun hplain => ?_) fun hshort => Nat.le_trans ?_ hshort
    · rw [hjoin.isPlain_iff] at hplain
      rw [hparentJoin.isPlain_iff]
      simp only [List.mem_append, not_or] at hplain ⊢
      exact ⟨hplain.1.1.1, hplain.2⟩
    · rw [hjoin.bytes (by simp), hparentJoin.bytes (by simp)]
      simp only [List.flatMap_append, List.length_append]
      omega

/-- A search starts at a usable directory. -/
theorem Usable.searchStart (h : Usable name path) (hname : IsPiece name) :
    Usable name (Finder.searchStart fs path) := by
  have hparent : Usable name (path.parent?.getD path) := by
    rcases h.cases hname with ⟨-, hroot⟩ | ⟨parent, last, hparent, -, hancestors⟩
    · have hnone : path.parent? = none := by
        rw [Path.parent?, (List.cons.inj hroot).2]
        rfl
      rw [hnone]
      exact h
    · have hsome : path.parent? = some parent := by
        rw [Path.parent?, (List.cons.inj hancestors).2]
        rfl
      rw [hsome]
      exact hparent
  unfold Finder.searchStart
  split
  · exact h
  · split
    · exact hparent
    · exact h

/-! ## True answers -/

/-- The names of the nearest manifest, for those of a directory, last first. -/
def nearestNames (fs : FileSystem) (name : Name) : List Bytes → Option (List Bytes)
  | [] => if fs.isFile (Location.toPath [name]) then some [name] else none
  | last :: above =>
    if fs.isFile (Location.toPath ((last :: above).reverse ++ [name])) then
      some ((last :: above).reverse ++ [name])
    else nearestNames fs name above

/-- The contents of a manifest. -/
def readManifest (fs : FileSystem) (path : Path) : Option Manifest :=
  if fs.isFile path then (Manifest.load fs path).toOption else none

/-- An answer is the nearest manifest of a directory with certain names. -/
structure IsNearest (fs : FileSystem) (name : Name) (names : List Bytes)
    (answer : Option Path) : Prop where
  names_eq : answer.map (·.names) = nearestNames fs name names.reverse
  readable : ∀ path, answer = some path → Readable path

theorem Readable.components (h : Readable path) :
    path.components = .root :: path.names.map componentOf := by
  obtain ⟨pieces, hpieces⟩ := h.spelled
  exact hpieces.components

theorem Readable.isFile (h : Readable path) :
    fs.isFile path = fs.isFile (Location.toPath path.names) := by
  obtain ⟨pieces, hpieces⟩ := h.spelled
  rw [FileSystem.isFile, FileSystem.isFile, hpieces.find_toPath_names h.bounded]

theorem Readable.readManifest (h : Readable path) :
    readManifest fs path = readManifest fs (Location.toPath path.names) := by
  obtain ⟨pieces, hpieces⟩ := h.spelled
  have htext : fs.readText path = fs.readText (Location.toPath path.names) := by
    rw [readText, readText, FileSystem.read, FileSystem.read, hpieces.find_toPath_names h.bounded]
  have hload : (Manifest.load fs path).toOption =
      (Manifest.load fs (Location.toPath path.names)).toOption := by
    rw [Manifest.load, Manifest.load, htext]
    split
    · rfl
    · split <;> rfl
  rw [Package.readManifest, Package.readManifest, h.isFile, hload]

/-- One look at a directory. -/
theorem Usable.nearestNames_here (h : Usable name directory) (hname : IsPiece name)
    (hfile : fs.isFile (directory.join ⟨name⟩) = true) :
    nearestNames fs name directory.names.reverse = some (directory.names ++ [name]) := by
  rw [(h.readable hname).isFile, h.names_join hname] at hfile
  cases hlast : directory.names.reverse with
  | nil =>
      rw [List.reverse_eq_nil_iff.mp hlast] at hfile ⊢
      rw [nearestNames]
      exact if_pos hfile
  | cons last above =>
      have hnames : (last :: above).reverse = directory.names := by
        rw [← hlast, List.reverse_reverse]
      rw [nearestNames, hnames, if_pos hfile]

theorem Usable.nearestNames_not_here (h : Usable name directory) (hname : IsPiece name)
    (hfile : fs.isFile (directory.join ⟨name⟩) = false) :
    nearestNames fs name directory.names.reverse =
      match directory.names.reverse with
      | [] => none
      | _ :: above => nearestNames fs name above := by
  rw [(h.readable hname).isFile, h.names_join hname, ← Bool.not_eq_true] at hfile
  cases hlast : directory.names.reverse with
  | nil =>
      rw [List.reverse_eq_nil_iff.mp hlast] at hfile
      rw [nearestNames]
      exact if_neg hfile
  | cons last above =>
      have hnames : (last :: above).reverse = directory.names := by
        rw [← hlast, List.reverse_reverse]
      rw [nearestNames, hnames, if_neg hfile]

/-! ## What is remembered -/

/-- All that a finder remembers is true. -/
structure Recalls (fs : FileSystem) (name : Name) (finder : Finder) : Prop where
  fileName : finder.fileName = ⟨name⟩
  directories : ∀ {directory answer}, (∃ pieces, Spelled directory pieces) →
    finder.directories.lookup directory.components = some answer →
      IsNearest fs name directory.names answer
  manifests : ∀ {path known}, Readable path →
    finder.manifests.lookup path.components = some known → known = readManifest fs path
  keys : (finder.directories.map (·.1)).Nodup

theorem recalls_ofName (fs : FileSystem) (fileName : String) :
    Recalls fs (Bytes.ofText fileName) (.ofName fileName) :=
  ⟨rfl, nofun, nofun, .nil⟩

theorem Recalls.clear (h : Recalls fs name finder) : Recalls fs name finder.clear :=
  ⟨h.fileName, nofun, nofun, .nil⟩

/-- A trip upward has found what is to be found, in directories of which nothing was known. -/
structure Explores (fs : FileSystem) (name : Name) (finder : Finder)
    (directory : Path) (trip : Finder.Climb) : Prop where
  found : IsNearest fs name directory.names trip.found
  passed : ∀ place ∈ trip.passed, (∃ pieces, Spelled place pieces) ∧
    place.names.length ≤ directory.names.length ∧ IsNearest fs name place.names trip.found ∧
      finder.directories.lookup place.components = none
  distinct : (trip.passed.map (·.components)).Nodup

/-- One directory on the way upward, if what is above it is explored where it has to be. -/
theorem Recalls.climb_cons (h : Recalls fs name finder) (hname : IsPiece name)
    (hd : Usable name directory) {above : List Path}
    (hfound : fs.isFile (directory.join ⟨name⟩) = false →
      IsNearest fs name directory.names (finder.climb fs above).found)
    (hpassed : ∀ place ∈ (finder.climb fs above).passed, (∃ pieces, Spelled place pieces) ∧
      place.names.length < directory.names.length ∧
        IsNearest fs name place.names (finder.climb fs above).found ∧
          finder.directories.lookup place.components = none)
    (hdistinct : ((finder.climb fs above).passed.map (·.components)).Nodup) :
    Explores fs name finder directory (finder.climb fs (directory :: above)) := by
  have hempty : directory.bytes ≠ [] := by
    obtain ⟨pieces, hpieces⟩ := hd.spelled
    exact hpieces.bytes_ne_nil
  rw [Finder.climb, if_neg hempty]
  cases hlookup : finder.directories.lookup directory.components with
  | some answer => exact ⟨h.directories hd.spelled hlookup, nofun, .nil⟩
  | none =>
      dsimp only
      rw [h.fileName]
      cases hfile : fs.isFile (directory.join ⟨name⟩) with
      | true =>
          rw [if_pos rfl]
          have hhere : IsNearest fs name directory.names (some (directory.join ⟨name⟩)) := by
            refine ⟨?_, ?_⟩
            · rw [hd.nearestNames_here hname hfile, Option.map_some, hd.names_join hname]
            · rintro _ ⟨⟩
              exact hd.readable hname
          exact ⟨hhere, List.forall_mem_singleton.mpr ⟨hd.spelled, Nat.le_refl _, hhere, hlookup⟩,
            List.pairwise_singleton _ _⟩
      | false =>
          rw [if_neg Bool.false_ne_true]
          have hrest := hfound hfile
          refine ⟨hrest, List.forall_mem_cons.mpr ⟨⟨hd.spelled, Nat.le_refl _, hrest, hlookup⟩, ?_⟩,
            List.nodup_cons.mpr ⟨fun hmem => ?_, hdistinct⟩⟩
          · intro place hplace
            obtain ⟨hspelled, hlt, hnearest⟩ := hpassed place hplace
            exact ⟨hspelled, Nat.le_of_lt hlt, hnearest⟩
          · -- What is passed further up has fewer names.
            obtain ⟨place, hplace, hsame⟩ := List.mem_map.mp hmem
            obtain ⟨⟨pieces, hpieces⟩, hlt, -⟩ := hpassed place hplace
            obtain ⟨_, hdirectory⟩ := hd.spelled
            rw [(Path.components_eq_iff hpieces hdirectory).mp hsame] at hlt
            exact Nat.lt_irrefl _ hlt

/-- The way upward ends at a directory whose answer is known, at a manifest, or above the root.
The induction is on the names of the directory. -/
theorem Recalls.climb (h : Recalls fs name finder) (hname : IsPiece name)
    (hd : Usable name directory) :
    Explores fs name finder directory (finder.climb fs directory.ancestors) := by
  generalize hdepth : directory.names.length = depth
  induction depth using Nat.strongRecOn generalizing directory with
  | ind depth ih =>
      rcases hd.cases hname with ⟨hroot, hancestors⟩ | ⟨parent, last, hparent, hnames, hancestors⟩
      · rw [hancestors]
        refine h.climb_cons hname hd (fun hfile => ⟨?_, nofun⟩) nofun .nil
        rw [hd.nearestNames_not_here hname hfile, hroot]
        rfl
      · have hlt : parent.names.length < directory.names.length := by
          rw [hnames, List.length_append]
          exact Nat.lt_succ_self _
        have hexplores := ih _ (hdepth ▸ hlt) hparent rfl
        rw [hancestors]
        refine h.climb_cons hname hd (fun hfile => ⟨?_, hexplores.found.readable⟩) ?_
          hexplores.distinct
        · rw [hd.nearestNames_not_here hname hfile, hexplores.found.names_eq, hnames,
            List.reverse_append]
          rfl
        · intro place hplace
          obtain ⟨hspelled, hle, hnearest⟩ := hexplores.passed place hplace
          exact ⟨hspelled, Nat.lt_of_le_of_lt hle hlt, hnearest⟩

namespace Finder

/-! ## Remembering answers -/

theorem lookup_remember (answer : Option Path) (memory : List (List Component × Option Path))
    (directory : Path) (key : List Component) : (remember answer memory directory).lookup key =
      if key = directory.components then some answer else memory.lookup key := by
  unfold remember
  rw [List.lookup_cons]
  by_cases heq : key = directory.components
  · rw [if_pos heq, heq, beq_self_eq_true]
  · have hlook := Association.lookup_filter memory
      (fun other => decide (other ≠ directory.components)) key
    rw [if_neg heq, beq_eq_false_iff_ne.mpr heq]
    simpa [heq] using hlook

theorem lookup_foldl_remember (answer : Option Path) (passed : List Path)
    (memory : List (List Component × Option Path)) (key : List Component) :
    (passed.foldl (remember answer) memory).lookup key =
      if key ∈ passed.map (·.components) then some answer else memory.lookup key := by
  induction passed generalizing memory with
  | nil => rfl
  | cons place passed ih =>
      rw [List.foldl_cons, ih, lookup_remember]
      by_cases hmem : key ∈ passed.map (·.components) <;> by_cases heq : key = place.components <;>
        simp [hmem, heq]

/-- New keys are added, each once. -/
theorem keys_foldl_remember (answer : Option Path) {passed : List Path}
    {memory : List (List Component × Option Path)}
    (hnew : ∀ place ∈ passed, memory.lookup place.components = none)
    (hdistinct : (passed.map (·.components)).Nodup) :
    (passed.foldl (remember answer) memory).map (·.1) =
      (passed.map (·.components)).reverse ++ memory.map (·.1) := by
  induction passed generalizing memory with
  | nil => rfl
  | cons place passed ih =>
      obtain ⟨hplace, hrest⟩ := List.forall_mem_cons.mp hnew
      rw [List.map_cons, List.nodup_cons] at hdistinct
      have hkept : memory.filter (·.1 ≠ place.components) = memory := by
        rw [List.filter_eq_self]
        intro entry hentry
        have hne := List.lookup_eq_none_iff.mp hplace entry hentry
        exact decide_eq_true fun heq => bne_iff_ne.mp hne heq.symm
      rw [List.foldl_cons, ih ?_ hdistinct.2, List.map_cons, List.reverse_cons, List.append_assoc,
        remember, hkept]
      · rfl
      · intro other hother
        rw [lookup_remember, if_neg ?_]
        · exact hrest other hother
        · intro heq
          exact hdistinct.1 (heq ▸ List.mem_map_of_mem hother)

end Finder

/-! ## One question -/

/-- A finder goes on with a memory that is true, in which there is one directory more for each
one that was looked at. -/
structure Settles (fs : FileSystem) (name : Name) (finder after : Finder) : Prop where
  recalls : Recalls fs name after
  counted : after.probes + finder.directories.length = finder.probes + after.directories.length

theorem Settles.trans {between after : Finder} (h : Settles fs name finder between)
    (ha : Settles fs name between after) : Settles fs name finder after := by
  refine ⟨ha.recalls, ?_⟩
  have hfirst := h.counted
  have hsecond := ha.counted
  omega

theorem Recalls.findFrom (h : Recalls fs name finder) (hname : IsPiece name)
    (hd : Usable name directory) :
    IsNearest fs name directory.names (finder.findFrom fs directory).1 ∧
      Settles fs name finder (finder.findFrom fs directory).2 := by
  have hexplores := h.climb hname hd
  unfold Finder.findFrom
  dsimp only
  generalize finder.climb fs directory.ancestors = trip at hexplores
  have hnew := fun place hplace => (hexplores.passed place hplace).2.2.2
  have hkeys := Finder.keys_foldl_remember trip.found hnew hexplores.distinct
  refine ⟨hexplores.found, ⟨h.fileName, ?_, h.manifests, ?_⟩, ?_⟩
  · rintro other answer ⟨pieces, hpieces⟩ hlookup
    rw [Finder.lookup_foldl_remember] at hlookup
    split at hlookup
    · rename_i hmem
      obtain ⟨place, hplace, hsame⟩ := List.mem_map.mp hmem
      obtain ⟨⟨rest, hrest⟩, -, hnearest, -⟩ := hexplores.passed place hplace
      rw [← (Path.components_eq_iff hrest hpieces).mp hsame, ← Option.some.inj hlookup]
      exact hnearest
    · exact h.directories ⟨pieces, hpieces⟩ hlookup
  · rw [hkeys, List.nodup_append]
    refine ⟨List.pairwise_reverse.mpr (hexplores.distinct.imp Ne.symm), h.keys, ?_⟩
    rintro key hpassed _ hold rfl
    obtain ⟨place, hplace, rfl⟩ := List.mem_map.mp (List.mem_reverse.mp hpassed)
    obtain ⟨entry, hentry, hsame⟩ := List.mem_map.mp hold
    exact bne_iff_ne.mp (List.lookup_eq_none_iff.mp (hnew place hplace) entry hentry) hsame.symm
  · have hlength := congrArg List.length hkeys
    simp only [List.length_map, List.length_append, List.length_reverse] at hlength
    dsimp only
    rw [hlength, Nat.add_assoc]

theorem Recalls.find (h : Recalls fs name finder) (hname : IsPiece name) (hu : Usable name path) :
    IsNearest fs name (Finder.searchStart fs path).names (finder.find fs path).1 ∧
      Settles fs name finder (finder.find fs path).2 := by
  obtain ⟨pieces, hpieces⟩ := hu.spelled
  rw [Finder.find, Finder.absolute, if_pos hpieces.isAbsolute]
  exact h.findFrom hname (hu.searchStart hname)

theorem Recalls.manifestAt (h : Recalls fs name finder) (hr : Readable path) :
    (finder.manifestAt fs path).1 = readManifest fs path ∧
      Settles fs name finder (finder.manifestAt fs path).2 := by
  unfold Finder.manifestAt
  cases hlookup : finder.manifests.lookup path.components with
  | some known => exact ⟨h.manifests hr hlookup, h, rfl⟩
  | none =>
      refine ⟨rfl, ⟨h.fileName, h.directories, fun {other known} hother hsome => ?_, h.keys⟩, rfl⟩
      rw [List.lookup_cons] at hsome
      split at hsome
      · rename_i heq
        obtain ⟨pieces, hpieces⟩ := hr.spelled
        obtain ⟨rest, hrest⟩ := hother.spelled
        have hnames := (Path.components_eq_iff hrest hpieces).mp (beq_iff_eq.mp heq)
        rw [← Option.some.inj hsome, hother.readManifest, hnames, ← hr.readManifest]
        rfl
      · exact h.manifests hother hsome

/-- The components of some names. -/
def componentsOf (names : List Bytes) : List Component :=
  .root :: names.map componentOf

/-- The answer to a question, as the file system has it. -/
def expected (fs : FileSystem) (name : Name) : Question → Answer
  | .find path =>
    ⟨(nearestNames fs name (Finder.searchStart fs path).names.reverse).map componentsOf, none⟩
  | .findFrom directory =>
    ⟨(nearestNames fs name directory.names.reverse).map componentsOf, none⟩
  | .manifestAt path => ⟨none, readManifest fs path⟩
  | .manifestIn directory => ⟨none, readManifest fs (directory.join ⟨name⟩)⟩
  | .nearest path =>
    match nearestNames fs name (Finder.searchStart fs path).names.reverse with
    | none => {}
    | some names =>
      match readManifest fs (Location.toPath names) with
      | none => {}
      | some manifest => ⟨some (componentsOf names), some manifest⟩
  | .clear => {}

theorem IsNearest.components {names : List Bytes} (h : IsNearest fs name names answer) :
    answer.map (·.components) = (nearestNames fs name names.reverse).map componentsOf := by
  rw [← h.names_eq, Option.map_map]
  cases answer with
  | none => rfl
  | some path => exact congrArg some (h.readable path rfl).components

theorem Recalls.nearest (h : Recalls fs name finder) (hname : IsPiece name)
    (hu : Usable name path) : (finder.ask fs (.nearest path)).1 = expected fs name (.nearest path) ∧
      Settles fs name finder (finder.ask fs (.nearest path)).2 := by
  obtain ⟨hnearest, hsettles⟩ := h.find hname hu
  have hnames := hnearest.names_eq
  simp only [Finder.ask, Finder.nearest, expected]
  cases hfind : finder.find fs path with
  | mk answer later =>
      rw [hfind] at hnearest hsettles hnames
      cases answer with
      | none =>
          rw [← hnames]
          exact ⟨rfl, hsettles⟩
      | some place =>
          have hreadable := hnearest.readable place rfl
          have hlater : Settles fs name finder later := hsettles
          obtain ⟨hread, hafter⟩ := hlater.recalls.manifestAt hreadable
          have hcounted := hlater.trans hafter
          rw [hreadable.readManifest] at hread
          rw [← hnames]
          dsimp only [Option.map_some]
          rw [← hread]
          cases hat : later.manifestAt fs place with
          | mk known last =>
              rw [hat] at hcounted
              cases known with
              | none => exact ⟨rfl, hcounted⟩
              | some manifest =>
                  refine ⟨?_, hcounted⟩
                  rw [Option.map_some, hreadable.components]
                  rfl

/-- The answer to a question is that of the file system, whatever was asked before. -/
theorem Recalls.ask (h : Recalls fs name finder) (hname : IsPiece name) {question : Question}
    (hq : question.Allowed name) : (finder.ask fs question).1 = expected fs name question ∧
      Recalls fs name (finder.ask fs question).2 ∧
        (question ≠ .clear → Settles fs name finder (finder.ask fs question).2) := by
  have hall : ∀ {answer : Answer} {after : Finder}, answer = expected fs name question ∧
      Settles fs name finder after → answer = expected fs name question ∧
        Recalls fs name after ∧ (question ≠ .clear → Settles fs name finder after) :=
    fun hsettles => ⟨hsettles.1, hsettles.2.recalls, fun _ => hsettles.2⟩
  cases question with
  | find path =>
      obtain ⟨hnearest, hsettles⟩ := h.find hname ⟨IsTidy.spelled hq.tidy, hq.bounded⟩
      exact hall ⟨congrArg (Answer.mk · none) hnearest.components, hsettles⟩
  | findFrom directory =>
      obtain ⟨hnearest, hsettles⟩ := h.findFrom hname ⟨IsTidy.spelled hq.tidy, hq.bounded⟩
      exact hall ⟨congrArg (Answer.mk · none) hnearest.components, hsettles⟩
  | manifestAt path =>
      obtain ⟨hread, hsettles⟩ := h.manifestAt ⟨IsTidy.spelled hq.tidy, hq.bounded⟩
      exact hall ⟨congrArg (Answer.mk none) hread, hsettles⟩
  | manifestIn directory =>
      have husable : Usable name directory := ⟨IsTidy.spelled hq.tidy, hq.bounded⟩
      obtain ⟨hread, hsettles⟩ := h.manifestAt (husable.readable hname)
      simp only [Finder.ask, Finder.manifestIn, h.fileName]
      exact hall ⟨congrArg (Answer.mk none) hread, hsettles⟩
  | nearest path => exact hall (h.nearest hname ⟨IsTidy.spelled hq.tidy, hq.bounded⟩)
  | clear => exact ⟨rfl, h.clear, fun hne => absurd rfl hne⟩

/-! ## Any sequence of questions -/

theorem Recalls.askAll (h : Recalls fs name finder) (hname : IsPiece name)
    {questions : List Question} (hq : ∀ question ∈ questions, question.Allowed name) :
    Recalls fs name (finder.askAll fs questions) := by
  induction questions generalizing finder with
  | nil => exact h
  | cons question questions ih =>
      obtain ⟨hfirst, hrest⟩ := List.forall_mem_cons.mp hq
      exact ih (h.ask hname hfirst).2.1 hrest

/-- While nothing is forgotten, there is one directory more for each one that was looked at. -/
theorem Recalls.counted (h : Recalls fs name finder) (hname : IsPiece name)
    {questions : List Question} (hq : ∀ question ∈ questions, question.Allowed name)
    (hclear : .clear ∉ questions) :
    (finder.askAll fs questions).probes + finder.directories.length =
      finder.probes + (finder.askAll fs questions).directories.length := by
  induction questions generalizing finder with
  | nil => rfl
  | cons question questions ih =>
      obtain ⟨hfirst, hrest⟩ := List.forall_mem_cons.mp hq
      rw [List.mem_cons, not_or] at hclear
      obtain ⟨-, hrecalls, hsettles⟩ := h.ask hname hfirst
      have hone := (hsettles (Ne.symm hclear.1)).counted
      have hmore := ih hrecalls hrest hclear.2
      have hrun : finder.askAll fs (question :: questions) =
          (finder.ask fs question).2.askAll fs questions := rfl
      rw [hrun]
      omega

/-- The memory of a finder makes no difference but to how often it looks. -/
structure AnswersAfresh (fs : FileSystem) (fileName : String) : Prop where
  /-- Each answer is what the file system has. -/
  agrees {asked : List Question} {question : Question}
    (hasked : ∀ question ∈ asked, question.Allowed (Bytes.ofText fileName))
    (hquestion : question.Allowed (Bytes.ofText fileName)) :
    (((Finder.ofName fileName).askAll fs asked).ask fs question).1 =
      expected fs (Bytes.ofText fileName) question
  /-- So it is that of a new finder. -/
  answers {asked : List Question} {question : Question}
    (hasked : ∀ question ∈ asked, question.Allowed (Bytes.ofText fileName))
    (hquestion : question.Allowed (Bytes.ofText fileName)) :
    (((Finder.ofName fileName).askAll fs asked).ask fs question).1 =
      ((Finder.ofName fileName).ask fs question).1
  /-- As many directories were looked at, since all was forgotten, as are remembered. -/
  counted {before after : List Question}
    (hbefore : ∀ question ∈ before, question.Allowed (Bytes.ofText fileName))
    (hafter : ∀ question ∈ after, question.Allowed (Bytes.ofText fileName))
    (hclear : .clear ∉ after) :
    (((Finder.ofName fileName).askAll fs before).clear.askAll fs after).probes =
      ((Finder.ofName fileName).askAll fs before).probes +
        (((Finder.ofName fileName).askAll fs before).clear.askAll fs after).directories.length
  /-- And each of these is remembered once. -/
  distinct {asked : List Question}
    (hasked : ∀ question ∈ asked, question.Allowed (Bytes.ofText fileName)) :
    (((Finder.ofName fileName).askAll fs asked).directories.map (·.1)).Nodup

/-- Every finder answers as a new one, whatever it has been asked. -/
theorem answersAfresh (fs : FileSystem) {fileName : String}
    (hname : IsPiece (Bytes.ofText fileName)) : AnswersAfresh fs fileName := by
  have hnew := recalls_ofName fs fileName
  constructor
  case agrees =>
    intro asked question hasked hquestion
    exact ((hnew.askAll hname hasked).ask hname hquestion).1
  case answers =>
    intro asked question hasked hquestion
    rw [((hnew.askAll hname hasked).ask hname hquestion).1, (hnew.ask hname hquestion).1]
  case counted =>
    intro before after hbefore hafter hclear
    exact (hnew.askAll hname hbefore).clear.counted hname hafter hclear
  case distinct =>
    intro asked hasked
    exact (hnew.askAll hname hasked).keys

/-! ## A path that is too long -/

/-- A manifest in the root. -/
def packageFiles : FileSystem :=
  { FileSystem.empty with
    nodes := [([Bytes.ofText "package.json"], .file (Bytes.ofText "\x7b\"name\":\"a\"\x7d") ⟨0, 0⟩)] }

theorem isPiece_package : IsPiece (Bytes.ofText "package.json") :=
  ⟨by decide, by decide, by decide, by decide⟩

/-- What was found from one spelling of a directory is found for a file in another one, and is
remembered for all directories that were looked at. -/
theorem answers_packageFiles :
    (((Finder.ofName "package.json").askAll packageFiles [.findFrom (.ofString "/a//b")]).ask
      packageFiles (.find (.ofString "/a/b/c.js"))).1 =
        ((Finder.ofName "package.json").ask packageFiles (.find (.ofString "/a/b/c.js"))).1 ∧
      (((Finder.ofName "package.json").askAll packageFiles []).clear.askAll packageFiles
        [.findFrom (.ofString "/a//b"), .find (.ofString "/a/b/c.js")]).probes = 3 := by
  have hafresh := answersAfresh packageFiles isPiece_package
  have hfirst : Question.Allowed (Bytes.ofText "package.json") (.findFrom (.ofString "/a//b")) :=
    ⟨⟨rfl, by decide, by decide⟩, Or.inr (by decide +kernel)⟩
  have hsecond : Question.Allowed (Bytes.ofText "package.json") (.find (.ofString "/a/b/c.js")) :=
    ⟨⟨rfl, by decide, by decide⟩, Or.inr (by decide +kernel)⟩
  refine ⟨hafresh.answers (List.forall_mem_singleton.mpr hfirst) hsecond, ?_⟩
  rw [hafresh.counted (List.forall_mem_nil _)
    (List.forall_mem_cons.mpr ⟨hfirst, List.forall_mem_singleton.mpr hsecond⟩) (by simp)]
  decide +kernel

/-- The pieces of the manifest's path with many slashes in front. -/
def slashedPieces : List Bytes :=
  List.replicate pathLimit [] ++ [Bytes.ofText "package.json"]

theorem spelled_slashedPieces : Spelled (Location.toPath slashedPieces) slashedPieces := by
  refine ⟨rfl, ?_, ?_, ?_⟩
  · refine List.forall_mem_append.mpr ⟨fun piece hpiece => ?_,
      List.forall_mem_singleton.mpr isPiece_package.slash_notMem⟩
    rw [List.eq_of_mem_replicate hpiece]
    exact List.not_mem_nil
  · refine List.forall_mem_append.mpr ⟨fun piece hpiece => ?_,
      List.forall_mem_singleton.mpr isPiece_package.ne_point⟩
    rw [List.eq_of_mem_replicate hpiece]
    exact (List.cons_ne_nil _ _).symm
  · rw [slashedPieces, List.getLast?_concat]
    exact fun heq => isPiece_package.ne_nil (Option.some.inj heq)

theorem isFile_slashedPieces : packageFiles.isFile (Location.toPath slashedPieces) = false := by
  refine isFile_eq_false_of_long ?_
  rw [spelled_slashedPieces.bytes (by simp [slashedPieces]), slashedPieces]
  simp

theorem components_slashedPieces :
    (Location.toPath slashedPieces).components = (Path.ofString "/package.json").components := by
  have hplain : Spelled (Path.ofString "/package.json") [Bytes.ofText "package.json"] :=
    ⟨rfl, by decide, by decide, by decide⟩
  rw [Path.components_eq_iff spelled_slashedPieces hplain, spelled_slashedPieces.names,
    hplain.names, slashedPieces, List.filter_append, List.filter_replicate_of_neg (by simp)]
  rfl

/-- Not all answers are those of a new finder: a manifest that was asked for with too many slashes
is missing from then on. -/
theorem not_answersAfresh : ¬ ∀ (fs : FileSystem) (fileName : String) (asked : List Question)
    (question : Question), IsPiece (Bytes.ofText fileName) →
    (∀ question ∈ asked, question.IsTidy) → question.IsTidy →
    (((Finder.ofName fileName).askAll fs asked).ask fs question).1 =
      ((Finder.ofName fileName).ask fs question).1 := by
  intro hall
  have hsame := hall packageFiles "package.json" [.manifestAt (Location.toPath slashedPieces)]
    (.manifestAt (.ofString "/package.json")) isPiece_package
    (List.forall_mem_singleton.mpr spelled_slashedPieces.isTidy) ⟨rfl, by decide, by decide⟩
  have hmemory : ((Finder.ofName "package.json").askAll packageFiles
      [.manifestAt (Location.toPath slashedPieces)]).manifests =
        [((Path.ofString "/package.json").components, none)] := by
    simp [Finder.askAll, Finder.ask, Finder.manifestAt, Finder.ofName, isFile_slashedPieces,
      components_slashedPieces]
  have hold : ((((Finder.ofName "package.json").askAll packageFiles
      [.manifestAt (Location.toPath slashedPieces)]).ask packageFiles
        (.manifestAt (.ofString "/package.json"))).1).manifest.isSome = false := by
    rw [Finder.ask, Finder.manifestAt, hmemory, List.lookup_cons_self]
    rfl
  have hnew : (((Finder.ofName "package.json").ask packageFiles
      (.manifestAt (.ofString "/package.json"))).1).manifest.isSome = true := by
    decide +kernel
  rw [hsame, hnew] at hold
  cases hold

end Package

end ScriptModules
