import ScriptModules.Proofs.Loader.Aftermath
import ScriptModules.Proofs.Loader.Reload
import ScriptModules.Proofs.Loader.Resolving

/-!
# Reloading and loaders that were just made

A reload resolves its specifier with what the loader remembers of manifests, and only then
forgets it.  So what it reports and loads again is what a loader that was just made resolves
the specifier to, as long as no manifest that this one reads was remembered differently
(`Traffic.Reached.reloads_anew`).  Where one was, it need not be: a manifest that has changed
since it was read leads the reload to the old module.
-/

namespace ScriptModules

open Registry (Claim)
open Package (Finder)

variable {σ H : Type}

/-- A loader that was just made, with the configuration, the hooks and the built-in modules
of another one.  Its modules and its compile cache do not matter. -/
structure Loader.IsAnew (fresh loader : Loader H) : Prop where
  config : fresh.config = loader.config
  hooks : fresh.hooks.registrations = loader.hooks.registrations
  resolver : fresh.resolver =
    { Resolver.ofConfig loader.config with builtins := loader.resolver.builtins }

/-- Such a loader. -/
def Loader.anew (loader : Loader H) : Loader H :=
  { config := loader.config
    resolver := { Resolver.ofConfig loader.config with builtins := loader.resolver.builtins }
    hooks := { registrations := loader.hooks.registrations }
    registry := { maxSize := loader.config.maxCacheSize }
    cache := none
    builtins := loader.builtins }

theorem Loader.isAnew_anew (loader : Loader H) : loader.anew.IsAnew loader :=
  ⟨rfl, rfl, rfl⟩

/-- The resolver of a loader has the settings of the loader. -/
structure Loader.IsConfigured (loader : Loader H) : Prop where
  config : loader.resolver.config = loader.config
  fileName : loader.resolver.manifests.fileName = .ofString loader.config.manifestName

namespace Package.Finder

/-- No manifest is known differently to two finders. -/
def Agrees (finder other : Finder) : Prop :=
  ∀ {place known now}, finder.manifests.lookup place = some known →
    other.manifests.lookup place = some now → known = now

/-- A finder stands in for one that knows nothing yet if it agrees with what this one comes
to know. -/
theorem Agrees.stands {finder last : Finder} {name : String} (h : finder.Agrees last)
    (hname : finder.fileName = .ofString name) : finder.Stands (.ofName name) last :=
  ⟨hname, fun hnever => (nomatch hnever), h⟩

end Package.Finder

namespace Session

variable {host : Host σ H} {session : Session σ H} {specifier : String} {base : Path}
  {answer : Except ModuleError Resolution}

/-- What it means that a specifier is reloaded as what `answer` says it resolves to. -/
structure ReloadsTo (host : Host σ H) (session : Session σ H) (specifier : String) (base : Path)
    (answer : Except ModuleError Resolution) : Prop where
  /-- This is what is reported as resolved. -/
  resolved : ∀ report last, Answers host session (.reload specifier base) report last →
    report.resolved = answer.toOption.map (·.url)
  /-- It is the module that is forgotten and loaded again, if it is not in flight. -/
  loaded : ∀ resolution, answer = .ok resolution →
    textAfter? builtinPrefix resolution.url = none →
    session.loader.registry.isLoading resolution.url = false →
    ∃ middle, session.Grows middle ∧ ∀ report last,
      Answers host session (.reload specifier base) report last ↔
        ∃ result, Answers host (middle.forget resolution.url).2 (.require resolution.url base)
            result last ∧
          report = (session.reloadOf specifier base).report (some resolution.url)
            (middle.forget resolution.url).1 (result.map (·.2)) last
  /-- If there is none, the error is reported. -/
  failed : ∀ e, answer = .error e → ∃ last, session.Grows last ∧ ∀ report after,
    Answers host session (.reload specifier base) report after ↔
      report = (session.reloadOf specifier base).report none false (.error e) last ∧ after = last

/-- A reload is one of what its specifier resolves to. -/
theorem reloadsTo_of_resolve {middle : Session σ H}
    (h : Answers host session (.resolve specifier base) answer middle) (hg : session.Grows middle) :
    ReloadsTo host session specifier base answer := by
  refine ⟨fun report last hreload => ((reload_iff_of_resolve h).mp hreload).resolved, ?_, ?_⟩
  · rintro resolution rfl hb hf
    rw [← hg.registry] at hf
    exact ⟨middle, hg, fun report last => reload_iff_required h hb hf⟩
  · rintro e rfl
    refine ⟨middle, hg, fun report after =>
      (reload_iff_of_resolve h).trans ⟨fun hrenews => ?_, ?_⟩⟩
    · cases hrenews
      exact ⟨rfl, rfl⟩
    · rintro ⟨rfl, rfl⟩
      exact .unresolved

/-- A loader and one that was just made resolve a specifier alike, unless the first one knows
a manifest differently than the second one reads it. -/
theorem resolve_anew {fresh : Loader H} (hh : host.ResolvesAlike (.shared σ H))
    (hf : fresh.IsAnew session.loader) (hc : session.loader.IsConfigured)
    (specifier : String) (base : Path) :
    ∃ (answer : Except ModuleError Resolution) (last : Session σ H),
      Answers host { session with loader := fresh } (.resolve specifier base) answer last ∧
        (session.loader.resolver.manifests.Agrees last.loader.resolver.manifests →
          ∃ middle, Answers host session (.resolve specifier base) answer middle ∧
            session.Grows middle) := by
  have hconfig : session.loader.resolver.config = fresh.resolver.config := by
    rw [hf.resolver, hc.config]
    rfl
  have hnames : session.loader.resolver.builtins = fresh.resolver.builtins := by
    rw [hf.resolver]
  have hcontext : (⟨specifier, base, session.loader.conditions LoadMode.immediate.name, false⟩ :
      ResolveContext) = ⟨specifier, base, fresh.conditions LoadMode.immediate.name, false⟩ := by
    unfold Loader.conditions
    rw [hf.config]
  obtain ⟨answer, last, hcomes, -, hfollows⟩ :=
    asking_alike hh session { session with loader := fresh } rfl hf.hooks.symm hconfig hnames
      specifier hcontext
  refine ⟨answer, last, answers_resolve_iff.mpr hcomes, fun hagrees => ?_⟩
  have hstands := hagrees.stands hc.fileName
  obtain ⟨middle, hmiddle, hgrows⟩ := hfollows _ (.refl _) (by
    rw [hf.resolver]
    exact hstands)
  exact ⟨middle, answers_resolve_iff.mpr hmiddle, hgrows⟩

end Session

namespace Traffic

variable {host : Host σ H} {traffic : Traffic σ H}

/-- All through every run the resolver of a loader has the settings of the loader. -/
theorem Reached.isConfigured (h : Reached host traffic) :
    traffic.session.loader.IsConfigured := by
  induction h with
  | @opened config before loader surroundings hopen =>
      obtain ⟨-, hconfig, hresolver⟩ := openWith_ok hopen
      refine ⟨?_, ?_⟩
      · show loader.resolver.config = loader.config
        rw [hresolver, hconfig]
        rfl
      · show loader.resolver.manifests.fileName = .ofString loader.config.manifestName
        rw [hresolver, hconfig]
        rfl
  | step event h ih =>
      have hsettings := (h.turn event).2
      obtain ⟨hconfig, hrest⟩ := Prod.mk.inj hsettings
      obtain ⟨hresolver, hname⟩ := Prod.mk.inj hrest
      exact ⟨by rw [hresolver, ih.config, hconfig], by rw [hname, ih.fileName, hconfig]⟩

/-- All through every run of a loader whose hooks ask it nothing, a reload is one of what a
loader that was just made resolves the specifier to, unless a manifest that this one reads is
remembered differently. -/
theorem Reached.reloads_anew (h : Reached host traffic) (hh : host.ResolvesAlike (.shared σ H))
    {fresh : Loader H} (hf : fresh.IsAnew traffic.session.loader) (specifier : String)
    (base : Path) :
    ∃ (answer : Except ModuleError Resolution) (last : Session σ H),
      Session.Answers host { traffic.session with loader := fresh } (.resolve specifier base)
          answer last ∧
        (traffic.session.loader.resolver.manifests.Agrees last.loader.resolver.manifests →
          Session.ReloadsTo host traffic.session specifier base answer) := by
  obtain ⟨answer, last, hanswer, halike⟩ :=
    Session.resolve_anew hh hf h.isConfigured specifier base
  refine ⟨answer, last, hanswer, fun hagrees => ?_⟩
  obtain ⟨middle, hmiddle, hgrows⟩ := halike hagrees
  exact Session.reloadsTo_of_resolve hmiddle hgrows

/-! ## A manifest that changes -/

/-- A host whose hook goes on, and whose modules are empty. -/
def forwardingHost : Host Unit Unit where
  engine := "1"
  resolve _ specifier context := .ask (.next specifier context) fun
    | .ok resolution => .done (.ok resolution)
    | .error _ => .done (.error (.message "no"))
  load _ _ _ := .done (.ready (.ok ⟨.script, some [], true⟩))
  compile source _ := .done (.ok source)
  execute _ _ _ := .done (.ok ())

/-- The package `lib` with two modules, and the text of its manifest. -/
def packageFiles (manifest : String) : FileSystem :=
  let file (text : String) : Node := .file (Bytes.ofText text) ⟨0, 0⟩
  let inside (name : String) : Location := [Bytes.ofText "lib", Bytes.ofText name]
  { FileSystem.empty with nodes := [
      ([Bytes.ofText "lib"], .directory), (inside "package.json", file manifest),
      (inside "a.js", file ""), (inside "b.js", file "")] }

/-- The package has been resolved, with the hook asked, when its entry point was `a.js`. -/
def resolvedLoader : Traffic Unit Unit :=
  idleLoader.afterAll forwardingHost <|
    .operated (.register (some { resolve := some () })) ::
      .changed ⟨packageFiles "\x7b\"main\":\"a.js\"\x7d", {}, ()⟩ ::
        .resolved "./lib" (.ofString "/") :: List.replicate 4 (.advanced 0)

theorem reached_resolvedLoader : Reached forwardingHost resolvedLoader :=
  (reached_idleLoader forwardingHost).afterAll _

theorem resolvesAlike_forwardingHost : forwardingHost.ResolvesAlike (.shared Unit Unit) :=
  fun _ _ _ _ hc => .next hc fun answer => by cases answer <;> exact .done _

/-- A manifest is remembered, and what the package is reloaded as. -/
theorem reloads_anew_resolvedLoader :
    resolvedLoader.session.loader.resolver.manifests.manifests.length = 1 ∧
      ∃ (answer : Except ModuleError Resolution) (last : Session Unit Unit),
        Session.Answers forwardingHost
            { resolvedLoader.session with loader := resolvedLoader.session.loader.anew }
            (.resolve "./lib" (.ofString "/")) answer last ∧
          (resolvedLoader.session.loader.resolver.manifests.Agrees
              last.loader.resolver.manifests →
            Session.ReloadsTo forwardingHost resolvedLoader.session "./lib" (.ofString "/") answer) :=
  ⟨by decide +kernel, reached_resolvedLoader.reloads_anew resolvesAlike_forwardingHost
    (Loader.isAnew_anew _) "./lib" (.ofString "/")⟩

/-- The same loader when the entry point has become `b.js`. -/
def changedLoader : Traffic Unit Unit :=
  resolvedLoader.after forwardingHost
    (.changed ⟨packageFiles "\x7b\"main\":\"b.js\"\x7d", {}, ()⟩)

theorem reached_changedLoader : Reached forwardingHost changedLoader :=
  reached_resolvedLoader.step _

/-- A reload then still reports `a.js`, though a loader that was just made gives `b.js`. -/
theorem not_reload_resolves_anew :
    ¬ ∀ traffic : Traffic Unit Unit, Reached forwardingHost traffic → traffic.tasks.length = 0 →
      ∀ (specifier : String) (base : Path) (report : ReloadResult) (last : Session Unit Unit)
        (answer : Except ModuleError Resolution) (after : Session Unit Unit),
        Session.Answers forwardingHost traffic.session (.reload specifier base) report last →
        Session.Answers forwardingHost
          { traffic.session with loader := traffic.session.loader.anew }
          (.resolve specifier base) answer after →
        report.resolved = answer.toOption.map (·.url) := by
  intro hclaim
  have hreload : (changedLoader.session.answer forwardingHost 20
      (.reload "./lib" (.ofString "/"))).1.map ReloadResult.resolved = some (some "/lib/a.js") := by
    decide +kernel
  have hresolve : (Session.answer forwardingHost 20
      { changedLoader.session with loader := changedLoader.session.loader.anew }
      (.resolve "./lib" (.ofString "/"))).1.map (fun answer : Except ModuleError Resolution =>
        answer.toOption.map (·.url)) = some (some "/lib/b.js") := by
    decide +kernel
  obtain ⟨report, hreport, hresolved⟩ := Option.map_eq_some_iff.mp hreload
  obtain ⟨answer, hanswer, hurl⟩ := Option.map_eq_some_iff.mp hresolve
  have hsame := hclaim changedLoader reached_changedLoader (by decide +kernel) "./lib"
    (.ofString "/") report _ answer _ (Session.answers_of_eq hreport)
    (Session.answers_of_eq hanswer)
  rw [hresolved, hurl] at hsame
  exact absurd hsame (by decide)

end Traffic

end ScriptModules
