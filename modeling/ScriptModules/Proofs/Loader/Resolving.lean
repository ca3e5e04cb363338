import ScriptModules.Proofs.Loader.Composition
import ScriptModules.Proofs.Loader.Pursuit

/-!
# Resolving in two loaders

Resolve hooks may ask for anything, and then nothing can be said of what they give.  But
hooks that only go on, and at most work with what the embedder shares between its loaders,
come to an answer, and to the same one in any two loaders with the same settings — unless
one of these remembers a manifest that the other one reads differently.

How far the two may differ otherwise is given as a `Likeness`.
-/

namespace ScriptModules

open Package (Finder)

variable {σ H α β : Type} {n : Kind}

/-! ## Likenesses -/

/-- What may be different between two loaders while their hooks are asked, and what these may
ask for so that it makes no difference. -/
structure Likeness (σ H : Type) where
  contexts : ResolveContext → ResolveContext → Prop
  surroundings : Surroundings σ → Surroundings σ → Prop
  operations : Operation σ H → Prop
  resolve_eq {context other : ResolveContext} {first second : Surroundings σ}
    (hc : contexts context other) (hs : surroundings first second) (resolver : Resolver)
    (specifier : String) : resolver.resolve first.files specifier context =
      resolver.resolve second.files specifier other
  answer_eq {operation : Operation σ H} {session other : Session σ H} (ho : operations operation)
    (hs : surroundings session.toSurroundings other.toSurroundings) :
    (session.perform operation).1 = (other.perform operation).1
  keeps {operation : Operation σ H} {session other : Session σ H} (ho : operations operation)
    (hs : surroundings session.toSurroundings other.toSurroundings) :
    surroundings (session.perform operation).2.toSurroundings
      (other.perform operation).2.toSurroundings
  loader_eq {operation : Operation σ H} {session : Session σ H} (ho : operations operation) :
    (session.perform operation).2.loader = session.loader

/-- Whether an operation works with what loaders share and asks the loader nothing. -/
def Operation.isShared : Operation σ H → Bool
  | .readState | .writeState _ | .makeExports _ | .readExports _ | .writeExport .. => true
  | _ => false

/-- Contexts that may differ in whether they are those of the entry module. -/
def ResolveContext.SameButMain (context other : ResolveContext) : Prop :=
  other = { context with isMain := other.isMain }

/-- File systems in which every resolver finds the same, such as those with the same files
but for what a compile cache has written. -/
def FileSystem.ResolvesLike (first second : FileSystem) : Prop :=
  ∀ (resolver : Resolver) (specifier : String) (context : ResolveContext),
    resolver.resolve first specifier context = resolver.resolve second specifier context

namespace Likeness

/-- Two loaders in the same surroundings. -/
def shared (σ H : Type) : Likeness σ H where
  contexts := Eq
  surroundings := Eq
  operations operation := operation.isShared = true
  resolve_eq hc hs _ _ := by rw [hc, hs]
  answer_eq {operation session other} ho hs := by
    obtain ⟨surroundings, loader⟩ := session
    cases hs
    cases operation with
    | readState | writeState | makeExports | readExports | writeExport => rfl
    | _ => cases ho
  keeps {operation session other} ho hs := by
    obtain ⟨surroundings, loader⟩ := session
    cases hs
    cases operation with
    | readState | writeState | makeExports | readExports | writeExport => rfl
    | _ => cases ho
  loader_eq {operation _} ho := by
    cases operation with
    | readState | writeState | makeExports | readExports | writeExport => rfl
    | _ => cases ho

/-- One loader at two times, with the same files as far as resolving goes, for hooks that do
not look at whether a module is the entry module and ask for nothing. -/
def stateless (σ H : Type) : Likeness σ H where
  contexts := ResolveContext.SameButMain
  surroundings first second := first.files.ResolvesLike second.files
  operations _ := False
  resolve_eq {context other first second} hc hs resolver specifier := by
    rw [hc]
    exact hs resolver specifier context
  answer_eq ho _ := ho.elim
  keeps ho _ := ho.elim
  loader_eq ho := ho.elim

variable (likeness : Likeness σ H)

/-! ## Programs that do the same -/

/-- Work that does the same in both loaders. -/
inductive Works : Work σ H α → Work σ H α → Prop where
  | done (result : α) : Works (.done result) (.done result)
  | operation {operation : Operation σ H} {next twin : operation.Answer → Work σ H α}
      (ho : likeness.operations operation) (h : ∀ answer, Works (next answer) (twin answer)) :
      Works (.ask (.request (.operation operation)) next) (.ask (.request (.operation operation)) twin)
  | resolve {specifier : String} {context other : ResolveContext}
      {next twin : Except ModuleError Resolution → Work σ H α}
      (hc : likeness.contexts context other) (h : ∀ answer, Works (next answer) (twin answer)) :
      Works (.ask (.resolveDefault specifier context) next) (.ask (.resolveDefault specifier other) twin)

/-- A resolve hook that does the same in both loaders. -/
inductive Hooks : ResolveProgram σ H → ResolveProgram σ H → Prop where
  | done (result : Except Failure Resolution) : Hooks (.done result) (.done result)
  | operation {operation : Operation σ H} {next twin : operation.Answer → ResolveProgram σ H}
      (ho : likeness.operations operation) (h : ∀ answer, Hooks (next answer) (twin answer)) :
      Hooks (.ask (.request (.operation operation)) next) (.ask (.request (.operation operation)) twin)
  | next {specifier : String} {context other : ResolveContext}
      {next twin : Except ModuleError Resolution → ResolveProgram σ H}
      (hc : likeness.contexts context other) (h : ∀ answer, Hooks (next answer) (twin answer)) :
      Hooks (.ask (.next specifier context) next) (.ask (.next specifier other) twin)

variable {likeness}

theorem Works.bind {work twin : Work σ H α} (h : likeness.Works work twin)
    {next after : α → Work σ H β} (hn : ∀ result, likeness.Works (next result) (after result)) :
    likeness.Works (work.bind next) (twin.bind after) := by
  induction h with
  | done result => exact hn result
  | operation ho _ ih => exact .operation ho ih
  | resolve hc _ ih => exact .resolve hc ih

/-- The means to go on that do the same in both loaders. -/
def Nexts (likeness : Likeness σ H) (next twin : NextResolve σ H) : Prop :=
  ∀ specifier context other, likeness.contexts context other →
    likeness.Works (next specifier context) (twin specifier other)

theorem nexts_resolveDirectly : likeness.Nexts resolveDirectly resolveDirectly :=
  fun _ _ _ hc => .resolve hc .done

/-- Asking hooks that do the same is to do the same. -/
theorem Hooks.works {hook twin : ResolveProgram σ H} (h : likeness.Hooks hook twin)
    {next after : NextResolve σ H} (hn : likeness.Nexts next after) (id : Nat) :
    likeness.Works (resolveThrough id hook next) (resolveThrough id twin after) := by
  refine Works.bind ?_ fun result => ?_
  · generalize false = called
    induction h generalizing called with
    | done result => exact .done _
    | operation ho _ ih => exact .operation ho fun answer => ih answer called
    | @next specifier context other _ _ hc _ ih =>
        have hnext := (hn specifier context other hc).bind fun answer => .done (answer, true)
        exact hnext.bind fun pair => ih pair.1 pair.2
  · obtain ⟨result, called⟩ := result
    cases result <;> exact .done _

end Likeness

/-- The resolve hooks of a host do the same in both loaders. -/
def Host.ResolvesAlike (host : Host σ H) (likeness : Likeness σ H) : Prop :=
  ∀ hook specifier context other, likeness.contexts context other →
    likeness.Hooks (host.resolve hook specifier context) (host.resolve hook specifier other)

theorem Host.ResolvesAlike.dispatch {host : Host σ H} {likeness : Likeness σ H}
    (h : host.ResolvesAlike likeness) (hooks : List (Nat × H)) :
    likeness.Nexts (dispatchResolve host.resolve hooks resolveDirectly)
      (dispatchResolve host.resolve hooks resolveDirectly) := by
  induction hooks with
  | nil => exact Likeness.nexts_resolveDirectly
  | cons hook hooks ih =>
      obtain ⟨id, hook⟩ := hook
      exact fun specifier context other hc => (h hook specifier context other hc).works ih id

namespace Session

/-! ## Side by side -/

variable {host : Host σ H} {session twin middle last : Session σ H} {likeness : Likeness σ H}

/-- Specifiers mean to a loader what they meant before, and it may know more manifests. -/
structure Heeds (session last : Session σ H) : Prop where
  hooks : last.loader.hooks.registrations = session.loader.hooks.registrations
  config : last.loader.resolver.config = session.loader.resolver.config
  names : last.loader.resolver.builtins = session.loader.resolver.builtins
  manifests : last.loader.resolver.manifests.Extends session.loader.resolver.manifests

/-- A loader has the same modules, and may know more manifests. -/
structure Grows (session last : Session σ H) : Prop extends Heeds session last where
  registry : last.loader.registry = session.loader.registry
  builtins : last.loader.builtins = session.loader.builtins

theorem Heeds.trans (h₁ : session.Heeds middle) (h₂ : middle.Heeds last) : session.Heeds last :=
  ⟨h₂.hooks.trans h₁.hooks, h₂.config.trans h₁.config, h₂.names.trans h₁.names,
    h₂.manifests.trans h₁.manifests⟩

theorem Grows.trans (h₁ : session.Grows middle) (h₂ : middle.Grows last) : session.Grows last :=
  ⟨h₁.toHeeds.trans h₂.toHeeds, h₂.registry.trans h₁.registry, h₂.builtins.trans h₁.builtins⟩

theorem heeds_of_eq (hh : last.loader.hooks = session.loader.hooks)
    (hr : last.loader.resolver = session.loader.resolver) : session.Heeds last := by
  refine ⟨?_, ?_, ?_, ?_⟩
  · rw [hh]
  all_goals rw [hr]
  exact .refl _

theorem grows_of_eq (h : last.loader = session.loader) : session.Grows last :=
  ⟨heeds_of_eq (congrArg _ h) (congrArg _ h), congrArg _ h, congrArg _ h⟩

/-- A loader that has resolved a specifier without hooks. -/
def resolving (session : Session σ H) (specifier : String) (context : ResolveContext) :
    Session σ H :=
  { session with
    loader.resolver := (session.loader.resolver.resolve session.files specifier context).2 }

/-- Resolving without hooks only adds to what is known of manifests. -/
theorem grows_resolving (session : Session σ H) (specifier : String) (context : ResolveContext) :
    session.Grows (session.resolving specifier context) := by
  obtain ⟨hconfig, hnames, -, hmanifests⟩ :=
    Resolver.resolve_keeps session.files session.loader.resolver specifier context
  exact ⟨⟨rfl, hconfig, hnames, hmanifests⟩, rfl, rfl⟩

theorem Comes.operation {operation : Operation σ H}
    {next : operation.Answer → Work σ H (Value σ H n)} {value : Value σ H n}
    (h : Comes host ⟨n, next (session.perform operation).1, .nil⟩ (session.perform operation).2
      value last) :
    Comes host ⟨n, .ask (.request (.operation operation)) next, .nil⟩ session value last :=
  .step .running h

theorem Comes.resolveDefault {specifier : String} {context : ResolveContext}
    {next : Except ModuleError Resolution → Work σ H (Value σ H n)} {value : Value σ H n}
    (h : Comes host
      ⟨n, next (session.loader.resolver.resolve session.files specifier context).1, .nil⟩
      (session.resolving specifier context) value last) :
    Comes host ⟨n, .ask (.resolveDefault specifier context) next, .nil⟩ session value last :=
  .step .running h

/-- Work that does the same in two loaders comes to an answer in the second one.  It comes to
this answer in the first one too if what this one remembers of manifests is what the second
one comes to know. -/
theorem comes_alike {work other : Work σ H (Value σ H n)} (h : likeness.Works work other)
    (session twin : Session σ H)
    (hs : likeness.surroundings session.toSurroundings twin.toSurroundings)
    (hconfig : session.loader.resolver.config = twin.loader.resolver.config)
    (hnames : session.loader.resolver.builtins = twin.loader.resolver.builtins) :
    ∃ answer last, Comes host ⟨n, other, .nil⟩ twin answer last ∧ twin.Grows last ∧
      ∀ final : Finder, final.Extends last.loader.resolver.manifests →
        session.loader.resolver.manifests.Stands twin.loader.resolver.manifests final →
          ∃ after, Comes host ⟨n, work, .nil⟩ session answer after ∧ session.Grows after := by
  induction h generalizing session twin with
  | done result =>
      exact ⟨result, twin, .refl, grows_of_eq rfl,
        fun _ _ _ => ⟨session, .refl, grows_of_eq rfl⟩⟩
  | @operation operation next twinNext ho _ ih =>
      have hanswer := likeness.answer_eq ho hs
      have hfirst : (session.perform operation).2.loader = session.loader := likeness.loader_eq ho
      have hsecond : (twin.perform operation).2.loader = twin.loader := likeness.loader_eq ho
      obtain ⟨answer, last, hcomes, hgrows, hfollows⟩ :=
        ih (twin.perform operation).1 (session.perform operation).2 (twin.perform operation).2
          (likeness.keeps ho hs) (by rw [hfirst, hsecond, hconfig])
          (by rw [hfirst, hsecond, hnames])
      refine ⟨answer, last, .operation hcomes, (grows_of_eq hsecond).trans hgrows, ?_⟩
      intro final hfinal hstands
      obtain ⟨after, hafter, hgrown⟩ := hfollows final hfinal (by rw [hfirst, hsecond]; exact hstands)
      rw [← hanswer] at hafter
      exact ⟨after, .operation hafter, (grows_of_eq hfirst).trans hgrown⟩
  | @resolve specifier context other next twinNext hc _ ih =>
      have hfirst := session.grows_resolving specifier context
      have hsecond := twin.grows_resolving specifier other
      have htwin := likeness.resolve_eq hc hs twin.loader.resolver specifier
      obtain ⟨answer, last, hcomes, hgrows, hfollows⟩ :=
        ih (twin.loader.resolver.resolve twin.files specifier other).1
          (session.resolving specifier context) (twin.resolving specifier other) hs
          (by rw [hfirst.config, hsecond.config, hconfig])
          (by rw [hfirst.names, hsecond.names, hnames])
      refine ⟨answer, last, .resolveDefault hcomes, hsecond.trans hgrows, ?_⟩
      intro final hfinal hstands
      have hknown : final.Extends
          (twin.loader.resolver.resolve session.files specifier context).2.manifests := by
        rw [htwin]
        exact .trans hfinal hgrows.manifests
      have hfollow := Resolver.resolve_follows session.files specifier context hconfig hnames
        hknown hstands
      rw [htwin] at hfollow
      obtain ⟨heq, hafterwards⟩ := hfollow
      obtain ⟨after, hafter, hgrown⟩ := hfollows final hfinal hafterwards
      rw [← heq] at hafter
      exact ⟨after, .resolveDefault hafter, hfirst.trans hgrown⟩

/-- The hooks of a loader are about to be asked. -/
def asking (host : Host σ H) (session : Session σ H) (specifier : String)
    (context : ResolveContext) : Focus σ H .resolution × Session σ H :=
  (⟨.resolution, (session.resolveWork host specifier context).1, .nil⟩,
    (session.resolveWork host specifier context).2)

theorem grows_asking (host : Host σ H) (session : Session σ H) (specifier : String)
    (context : ResolveContext) : session.Grows (session.asking host specifier context).2 :=
  ⟨⟨rfl, rfl, rfl, .refl _⟩, rfl, rfl⟩

/-- Loaders with the same settings, built-in modules and hooks, all of which do the same in
both, resolve a specifier alike. -/
theorem asking_alike (hh : host.ResolvesAlike likeness) (session twin : Session σ H)
    (hs : likeness.surroundings session.toSurroundings twin.toSurroundings)
    (hhooks : session.loader.hooks.registrations = twin.loader.hooks.registrations)
    (hconfig : session.loader.resolver.config = twin.loader.resolver.config)
    (hnames : session.loader.resolver.builtins = twin.loader.resolver.builtins)
    (specifier : String) {context other : ResolveContext} (hc : likeness.contexts context other) :
    ∃ answer last, Comes host (twin.asking host specifier other).1
        (twin.asking host specifier other).2 answer last ∧ twin.Grows last ∧
      ∀ final : Finder, final.Extends last.loader.resolver.manifests →
        session.loader.resolver.manifests.Stands twin.loader.resolver.manifests final →
          ∃ after, Comes host (session.asking host specifier context).1
            (session.asking host specifier context).2 answer after ∧ session.Grows after := by
  have hworks : likeness.Works (session.asking host specifier context).1.work
      (twin.asking host specifier other).1.work := by
    have hselect : session.loader.hooks.select (·.resolve) =
        twin.loader.hooks.select (·.resolve) := by
      unfold HookChain.select
      rw [hhooks]
    have hwork : (session.resolveWork host specifier context).1 =
        dispatchResolve host.resolve (twin.loader.hooks.select (·.resolve)) resolveDirectly
          specifier context := by
      rw [← hselect]
      rfl
    show likeness.Works (session.resolveWork host specifier context).1 _
    rw [hwork]
    exact hh.dispatch _ specifier context other hc
  obtain ⟨answer, last, hcomes, hgrows, hfollows⟩ := comes_alike hworks
    (session.asking host specifier context).2 (twin.asking host specifier other).2 hs hconfig hnames
  refine ⟨answer, last, hcomes, (grows_asking ..).trans hgrows, fun final hfinal hstands => ?_⟩
  obtain ⟨after, hafter, hgrown⟩ := hfollows final hfinal hstands
  exact ⟨after, hafter, (grows_asking ..).trans hgrown⟩

end Session

end ScriptModules
