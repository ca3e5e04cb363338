import ScriptModules.Resolver

/-!
# Resolving with a memory

Resolving reads manifests through a finder that remembers them.  What it remembers may be
out of date, and then the answer is not the one of a finder that has seen nothing.  Here it
is shown that nothing else can make a difference: where a finder remembers no manifest
differently than another one reads it, both come to the same answer (`Stands`, `Tracks`).
Two finders are followed side by side through one search; all functions of the resolver
that search are built from a single look at a manifest.
-/

namespace ScriptModules

namespace Package.Finder

/-- A finder knows all that another one knows of manifests. -/
def Extends (later finder : Finder) : Prop :=
  ∀ place known, finder.manifests.lookup place = some known →
    later.manifests.lookup place = some known

theorem Extends.refl (finder : Finder) : finder.Extends finder :=
  fun _ _ h => h

theorem Extends.trans {first second third : Finder} (h₁ : third.Extends second)
    (h₂ : second.Extends first) : third.Extends first :=
  fun place known h => h₁ place known (h₂ place known h)

/-- A finder can stand in for another one, in a search that leaves the other one as
`last`: it has looked wherever the other one has, and what it remembers is what the other
one comes to know. -/
structure Stands (finder other last : Finder) : Prop where
  fileName : finder.fileName = other.fileName
  covers : ∀ {place now}, other.manifests.lookup place = some now →
    ∃ known, finder.manifests.lookup place = some known
  agrees : ∀ {place known now}, finder.manifests.lookup place = some known →
    last.manifests.lookup place = some now → known = now

/-- A search that only adds to what is known, and whose answer depends on nothing else. -/
structure Tracks {α : Type} (search : StateM Finder α) : Prop where
  fileName : ∀ finder, (search finder).2.fileName = finder.fileName
  grows : ∀ finder, (search finder).2.Extends finder
  follows : ∀ {finder other last : Finder}, last.Extends (search other).2 →
    finder.Stands other last →
      (search finder).1 = (search other).1 ∧ (search finder).2.Stands (search other).2 last

variable {α β : Type} {search : StateM Finder α}

theorem tracks_pure (answer : α) : Tracks (pure answer : StateM Finder α) :=
  ⟨fun _ => rfl, Extends.refl, fun _ hs => ⟨rfl, hs⟩⟩

theorem Tracks.bind (h : Tracks search) {next : α → StateM Finder β}
    (hn : ∀ answer, Tracks (next answer)) : Tracks (search >>= next) := by
  have hrun : ∀ finder, (search >>= next) finder =
      next (search finder).1 (search finder).2 := fun _ => rfl
  refine ⟨fun finder => ?_, fun finder => ?_, fun {finder other last} hlast hs => ?_⟩
  · rw [hrun, (hn _).fileName, h.fileName]
  · rw [hrun]
    exact Extends.trans ((hn _).grows _) (h.grows finder)
  · rw [hrun] at hlast
    obtain ⟨heq, hbetween⟩ := h.follows (Extends.trans hlast ((hn _).grows _)) hs
    rw [hrun, hrun, heq]
    exact (hn _).follows hlast hbetween

/-! ## Reading a manifest -/

section Reading

variable {finder other last : Finder} {fs : FileSystem} {path : Path}
  {known answer : Option Manifest}

/-- What a finder notes when it reads a manifest. -/
def learn (finder : Finder) (path : Path) (answer : Option Manifest) : Finder :=
  { finder with manifests := (path.components, answer) :: finder.manifests }

theorem manifestAt_of_lookup (h : finder.manifests.lookup path.components = some known) :
    finder.manifestAt fs path = (known, finder) := by
  unfold manifestAt
  rw [h]

theorem manifestAt_of_lookup_none (h : finder.manifests.lookup path.components = none) :
    finder.manifestAt fs path =
      (if fs.isFile path then (Manifest.load fs path).toOption else none,
        finder.learn path (if fs.isFile path then (Manifest.load fs path).toOption else none)) := by
  unfold manifestAt
  rw [h]
  rfl

theorem learn_extends (h : finder.manifests.lookup path.components = none)
    (answer : Option Manifest) : (finder.learn path answer).Extends finder := by
  intro place known hplace
  have hne : (place == path.components) = false := by
    rw [beq_eq_false_iff_ne]
    rintro rfl
    rw [h] at hplace
    cases hplace
  rw [learn, List.lookup_cons, hne]
  exact hplace

/-- A finder that knows the manifest need not read it when another one does. -/
theorem Stands.learn (hs : finder.Stands other last)
    (h : finder.manifests.lookup path.components = some known) (answer : Option Manifest) :
    finder.Stands (other.learn path answer) last := by
  refine ⟨hs.fileName, fun {place now} hplace => ?_, hs.agrees⟩
  rw [Finder.learn, List.lookup_cons] at hplace
  split at hplace
  · rename_i heq
    rw [beq_iff_eq.mp heq]
    exact ⟨known, h⟩
  · exact hs.covers hplace

theorem Stands.learn_both (hs : finder.Stands other last)
    (h : last.manifests.lookup path.components = some answer) :
    (finder.learn path answer).Stands (other.learn path answer) last := by
  refine ⟨hs.fileName, fun {place now} hplace => ?_, fun {place known now} hplace => ?_⟩
  · rw [Finder.learn, List.lookup_cons] at hplace ⊢
    split at hplace
    · exact ⟨_, rfl⟩
    · exact hs.covers hplace
  · rw [Finder.learn, List.lookup_cons] at hplace
    split at hplace
    · rename_i heq
      rw [beq_iff_eq.mp heq, h]
      exact fun hsame => Option.some.inj (hplace.symm.trans hsame)
    · exact hs.agrees hplace

end Reading

/-- A manifest is read where it is not known yet. -/
theorem tracks_manifestAt (fs : FileSystem) (path : Path) :
    Tracks fun finder => finder.manifestAt fs path := by
  refine ⟨fun finder => ?_, fun finder => ?_, fun {finder other last} hlast hs => ?_⟩
  · cases hlookup : finder.manifests.lookup path.components with
    | some known => rw [manifestAt_of_lookup hlookup]
    | none => rw [manifestAt_of_lookup_none hlookup]; rfl
  · cases hlookup : finder.manifests.lookup path.components with
    | some known =>
        rw [manifestAt_of_lookup hlookup]
        exact .refl finder
    | none =>
        rw [manifestAt_of_lookup_none hlookup]
        exact learn_extends hlookup _
  · cases hother : other.manifests.lookup path.components with
    | some now =>
        obtain ⟨known, hlookup⟩ := hs.covers hother
        rw [manifestAt_of_lookup hother] at hlast ⊢
        rw [manifestAt_of_lookup hlookup]
        exact ⟨hs.agrees hlookup (hlast _ _ hother), hs⟩
    | none =>
        rw [manifestAt_of_lookup_none hother] at hlast ⊢
        have hnow := hlast path.components _ (by rw [Finder.learn, List.lookup_cons_self])
        cases hlookup : finder.manifests.lookup path.components with
        | some known =>
            rw [manifestAt_of_lookup hlookup]
            exact ⟨hs.agrees hlookup hnow, hs.learn hlookup _⟩
        | none =>
            rw [manifestAt_of_lookup_none hlookup]
            exact ⟨rfl, hs.learn_both hnow⟩

theorem tracks_manifestIn (fs : FileSystem) (directory : Path) :
    Tracks fun finder => finder.manifestIn fs directory := by
  refine ⟨fun finder => (tracks_manifestAt fs _).fileName finder,
    fun finder => (tracks_manifestAt fs _).grows finder, fun {finder other last} hlast hs => ?_⟩
  unfold manifestIn at hlast ⊢
  rw [hs.fileName]
  exact (tracks_manifestAt fs _).follows hlast hs

/-- The search upward leaves the name of manifests alone. -/
theorem fileName_find (finder : Finder) (fs : FileSystem) (path : Path) :
    (finder.find fs path).2.fileName = finder.fileName := rfl

theorem fileName_nearest (finder : Finder) (fs : FileSystem) (path : Path) :
    (finder.nearest fs path).2.fileName = finder.fileName := by
  unfold nearest
  split
  · rename_i heq
    rw [← fileName_find finder fs path, heq]
  · rename_i place later heq
    have hat := (tracks_manifestAt fs place).fileName later
    rw [← fileName_find finder fs path, heq, ← hat]
    split
    · rename_i hnone
      rw [hnone]
    · rename_i hsome
      rw [hsome]

theorem nearest_extends (finder : Finder) (fs : FileSystem) (path : Path) :
    (finder.nearest fs path).2.Extends finder := by
  have hfound : (finder.find fs path).2.Extends finder := fun _ _ h => h
  unfold nearest
  split
  · rename_i heq
    rw [heq] at hfound
    exact hfound
  · rename_i place later heq
    rw [heq] at hfound
    have hread := Extends.trans ((tracks_manifestAt fs place).grows later) hfound
    split
    · rename_i hnone
      rw [hnone] at hread
      exact hread
    · rename_i hsome
      rw [hsome] at hread
      exact hread

end Package.Finder

namespace Resolver

open Package (Finder)
open Package.Finder (Tracks tracks_pure tracks_manifestIn)

/-! ## The searches of the resolver -/

variable (config : Config) (fs : FileSystem)

theorem tracks_directory? (conditions : List String) (directory : Path) :
    Tracks (directory? config fs conditions directory) := by
  refine (tracks_manifestIn fs directory).bind fun manifest => ?_
  dsimp only
  split
  · exact tracks_pure _
  · exact tracks_pure _

theorem tracks_path? (conditions : List String) (path : Path) :
    Tracks (path? config fs conditions path) := by
  unfold path?
  split
  · exact tracks_pure _
  · split
    · exact tracks_directory? config fs conditions path
    · exact tracks_pure _

theorem tracks_inPackage? (conditions : List String) (package : Path) (inside : Option String) :
    Tracks (inPackage? config fs conditions package inside) := by
  refine (tracks_manifestIn fs package).bind fun manifest => ?_
  split
  · exact tracks_pure _
  · split
    · exact tracks_path? config fs conditions _
    · exact tracks_directory? config fs conditions package

theorem tracks_inPlaces? (conditions : List String) (name : String) (inside : Option String)
    (places : List Path) : Tracks (inPlaces? config fs conditions name inside places) := by
  induction places with
  | nil => exact tracks_pure _
  | cons place places ih =>
      unfold inPlaces?
      dsimp only
      split
      · exact (tracks_inPackage? config fs conditions _ inside).bind fun _ => tracks_pure _
      · split
        · exact tracks_pure _
        · exact ih

theorem tracks_inSearchPaths? (conditions : List String) (specifier : String)
    (places : List Path) : Tracks (inSearchPaths? config fs conditions specifier places) := by
  induction places with
  | nil => exact tracks_pure _
  | cons place places ih =>
      refine (tracks_path? config fs conditions _).bind fun found => ?_
      split
      · exact tracks_pure _
      · exact ih

theorem tracks_bare? (specifier : String) (context : ResolveContext) :
    Tracks (bare? config fs specifier context) := by
  refine (tracks_inPlaces? config fs context.conditions _ _ _).bind fun found => ?_
  split
  · exact tracks_pure _
  · exact tracks_inSearchPaths? config fs context.conditions specifier config.searchPaths

theorem tracks_found? (specifier : String) (context : ResolveContext) :
    Tracks (found? config fs specifier context) := by
  unfold found?
  split
  · split
    · exact tracks_pure _
    · split
      · exact tracks_pure _
      · exact (tracks_path? config fs context.conditions _).bind fun _ => tracks_pure _
  · split
    · exact (tracks_path? config fs context.conditions _).bind fun _ => tracks_pure _
    · exact (tracks_bare? config fs specifier context).bind fun _ => tracks_pure _

/-! ## Resolvers side by side -/

variable {resolver other : Resolver}

/-- A specifier is settled without a look at any file, or else its answer is made of what
is found. -/
theorem resolve_cases (builtins : List String) (specifier : String) (context : ResolveContext) :
    (∃ answer, ∀ manifests, resolve ⟨config, manifests, builtins⟩ fs specifier context =
        (answer, ⟨config, manifests, builtins⟩)) ∨
      ∃ name : Except ModuleError (Option Path) → Except ModuleError Resolution,
        ∀ manifests, resolve ⟨config, manifests, builtins⟩ fs specifier context =
          (name (found? config fs specifier context manifests).1,
            ⟨config, (found? config fs specifier context manifests).2, builtins⟩) := by
  cases hflaw : flaw? specifier with
  | some reason =>
      refine Or.inl ⟨.error (.invalidSpecifier specifier reason), fun manifests => ?_⟩
      unfold resolve
      rw [hflaw]
  | none =>
      -- Built-in names are told apart without the manifests.
      cases hname : builtinName? ⟨config, .ofName "", builtins⟩ specifier with
      | some name =>
          have hname : ∀ manifests, builtinName? ⟨config, manifests, builtins⟩ specifier =
              some name := fun _ => hname
          refine Or.inl ⟨if builtins.contains name then
            .ok ⟨builtinPrefix ++ name, some .virtual, false⟩
            else .error (notFound specifier context), fun manifests => ?_⟩
          unfold resolve
          rw [hflaw, hname]
          dsimp only
          split <;> rfl
      | none =>
          have hname : ∀ manifests, builtinName? ⟨config, manifests, builtins⟩ specifier =
              none := fun _ => hname
          refine Or.inr ⟨fun answer => answer.bind fun found =>
            found.elim (.error (notFound specifier context)) fun path => .ok
              ⟨(canonical fs path).toString, some (formatOf config (canonical fs path)), false⟩, ?_⟩
          intro manifests
          unfold resolve
          rw [hflaw, hname]
          cases found? config fs specifier context manifests with
          | mk answer later =>
              cases answer with
              | error e => rfl
              | ok found => cases found <;> rfl

/-- Resolving changes only what is known of manifests, and adds to that. -/
theorem resolve_keeps (resolver : Resolver) (specifier : String) (context : ResolveContext) :
    (resolver.resolve fs specifier context).2.config = resolver.config ∧
      (resolver.resolve fs specifier context).2.builtins = resolver.builtins ∧
        (resolver.resolve fs specifier context).2.manifests.fileName = resolver.manifests.fileName ∧
          (resolver.resolve fs specifier context).2.manifests.Extends resolver.manifests := by
  obtain ⟨config, manifests, builtins⟩ := resolver
  have hfound := tracks_found? config fs specifier context
  rcases resolve_cases config fs builtins specifier context with ⟨answer, heq⟩ | ⟨name, heq⟩
  · rw [heq]
    exact ⟨rfl, rfl, rfl, .refl _⟩
  · rw [heq]
    exact ⟨rfl, rfl, hfound.fileName manifests, hfound.grows manifests⟩

/-- Resolvers with the same settings give the same answer where the manifests one of them
remembers are those the other one comes to know. -/
theorem resolve_follows {last : Finder} (specifier : String) (context : ResolveContext)
    (hconfig : resolver.config = other.config) (hbuiltins : resolver.builtins = other.builtins)
    (hlast : last.Extends (other.resolve fs specifier context).2.manifests)
    (hs : resolver.manifests.Stands other.manifests last) :
    (resolver.resolve fs specifier context).1 = (other.resolve fs specifier context).1 ∧
      (resolver.resolve fs specifier context).2.manifests.Stands
        (other.resolve fs specifier context).2.manifests last := by
  obtain ⟨config, manifests, builtins⟩ := resolver
  obtain ⟨config', manifests', builtins'⟩ := other
  cases hconfig
  cases hbuiltins
  rcases resolve_cases config fs builtins specifier context with ⟨answer, heq⟩ | ⟨name, heq⟩
  · rw [heq, heq]
    exact ⟨rfl, hs⟩
  · rw [heq] at hlast
    rw [heq, heq]
    obtain ⟨hsame, hstands⟩ :=
      (tracks_found? config fs specifier context).follows hlast hs
    exact ⟨congrArg name hsame, hstands⟩

end Resolver

end ScriptModules
