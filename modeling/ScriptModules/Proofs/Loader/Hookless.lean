import ScriptModules.Proofs.Loader.Offers
import ScriptModules.Proofs.Loader.Renewal

/-!
# Loaders without hooks

Without hooks a loader resolves specifiers and fetches contents by itself, and each of the
two is one step.  So what a load comes to is what it makes of the answer of the resolver
(`Session.comes_load_iff`).
-/

namespace ScriptModules

variable {σ H : Type} {n : Kind}

/-- A loader without hooks. -/
def Loader.IsHookless (loader : Loader H) : Prop :=
  loader.hooks.registrations = []

namespace Session

variable {host : Host σ H} {session : Session σ H}

theorem resolveWork_of_isHookless (host : Host σ H) (h : session.loader.IsHookless)
    (specifier : String) (context : ResolveContext) :
    (session.resolveWork host specifier context).1 = resolveDirectly specifier context := by
  have hnone : session.loader.hooks.registrations = [] := h
  simp only [resolveWork, HookChain.resolveHooks, HookChain.select, hnone, List.filterMap_nil]
  rfl

theorem loadWork_of_isHookless (host : Host σ H) (h : session.loader.IsHookless) (url : String)
    (context : LoadContext) :
    (session.loadWork host url context).1 = loadDirectly url context := by
  have hnone : session.loader.hooks.registrations = [] := h
  simp only [loadWork, HookChain.loadHooks, HookChain.select, hnone, List.filterMap_nil]
  rfl

/-- The order of a load that starts now, in either mode. -/
def orderIn (session : Session σ H) (mode : LoadMode) (specifier : String) (base : Path) :
    LoadOrder :=
  { session.orderOf specifier base with mode, conditions := session.loader.conditions mode.name }

/-- What a specifier resolves to if no hook is asked, and what is known of manifests then. -/
def resolveIn (session : Session σ H) (order : LoadOrder) :
    Except ModuleError Resolution × Resolver :=
  session.loader.resolver.resolve session.files order.specifier (contextOf order)

/-- A loader without hooks that has resolved the specifier of a load. -/
def resolvedIn (session : Session σ H) (host : Host σ H) (order : LoadOrder) : Session σ H :=
  let stack : Stack σ H .module .module := .nil
  { (session.startLoad host order.mode order.specifier order.base stack).2 with
    loader.resolver := (session.resolveIn order).2 }

theorem offers_resolvedIn (host : Host σ H) (session : Session σ H) (order : LoadOrder) :
    (session.resolvedIn host order).loader.offers = session.loader.offers :=
  rfl

theorem startLoad_of_isHookless (host : Host σ H) (hh : session.loader.IsHookless)
    (mode : LoadMode) (specifier : String) (base : Path) (stack : Stack σ H .module n) :
    (session.startLoad host mode specifier base stack).1 =
      ⟨.resolution, resolveDirectly specifier (contextOf (session.orderIn mode specifier base)),
        .cons (.resolving (session.orderIn mode specifier base)) (.cons .counting stack)⟩ := by
  simp only [startLoad]
  rw [resolveWork_of_isHookless]
  · rfl
  · exact hh

/-- Without hooks, a load goes on with what the resolver itself says of its specifier. -/
theorem comes_load_iff (host : Host σ H) (hh : session.loader.IsHookless) (mode : LoadMode)
    (specifier : String) (base : Path) {order : LoadOrder}
    (ho : order = session.orderIn mode specifier base) {value : Value σ H .module}
    {last : Session σ H} :
    Comes host (session.startLoad host mode specifier base .nil).1
        (session.startLoad host mode specifier base .nil).2 value last ↔
      ∃ after, Comes host
          (receiveResolution host order (session.resolveIn order).1 .nil
            (session.resolvedIn host order)).1
          (receiveResolution host order (session.resolveIn order).1 .nil
            (session.resolvedIn host order)).2 value after ∧
        last = after.countOutcome value := by
  subst ho
  rw [startLoad_of_isHookless host hh]
  exact (comes_iff_of_running rfl).trans comes_ordered_iff

/-- Without hooks, a specifier resolves to what the resolver itself says of it. -/
theorem answers_resolve_of_isHookless (hh : session.loader.IsHookless) {specifier : String}
    {base : Path} {answer : Except ModuleError Resolution} {last : Session σ H}
    (h : Answers host session (.resolve specifier base) answer last) :
    ∃ context, answer = (session.loader.resolver.resolve session.files specifier context).1 ∧
      last.exports = session.exports ∧ last.loader.registry = session.loader.registry ∧
      last.loader.config = session.loader.config ∧
      last.loader.offers = session.loader.offers := by
  have hcomes := answers_resolve_iff.mp h
  have hwork := resolveWork_of_isHookless host hh specifier
    ⟨specifier, base, session.loader.conditions LoadMode.immediate.name, false⟩
  simp only [startResolve, hwork] at hcomes
  obtain ⟨rfl, rfl⟩ := comes_done_iff.mp ((comes_iff_of_running rfl).mp hcomes)
  exact ⟨_, rfl, rfl, rfl, rfl, rfl⟩

end Session

end ScriptModules
