import ScriptModules.Proofs.Hooks.Passing

/-!
# What holds of every chain of hooks

Hooks are in a chain in the order of their registrations, the newest one first, and they are asked
in this order, whatever they do (`dispatchesInOrder`).
-/

namespace ScriptModules

variable {σ H : Type}

namespace HookChain

/-- A chain after some registrations; one that is refused changes nothing. -/
def registerAll (options : List (Option (HookOptions H))) : HookChain H :=
  options.foldl (fun chain given => match chain.register given with
    | .ok (_, next) => next
    | .error _ => chain) {}

/-- Registrations are numbered from one, the oldest first. -/
def Numbered (chain : HookChain H) : Prop :=
  chain.registrations.map (·.id) = (List.range' 1 chain.size).reverse

theorem Numbered.register {chain next : HookChain H} {given : Option (HookOptions H)}
    {registration : Registration H} (h : chain.Numbered)
    (hregister : chain.register given = .ok (registration, next)) : next.Numbered := by
  unfold HookChain.register at hregister
  split at hregister
  · cases hregister
  · split at hregister
    · cases hregister
    · cases hregister
      unfold Numbered at h ⊢
      simp only [size, List.map_cons, List.length_cons, List.range'_concat, List.reverse_concat]
      rw [h]
      simp [size, Nat.add_comm]

theorem numbered_registerAll (options : List (Option (HookOptions H))) :
    (registerAll options).Numbered := by
  unfold registerAll
  refine List.foldlRecOn options _ (motive := Numbered) rfl fun chain h given _ => ?_
  split
  · exact h.register ‹_›
  · exact h

/-- The numbers of the hooks of one kind are among those of all registrations. -/
theorem select_sublist (hook : HookOptions H → Option H) (chain : HookChain H) :
    ((chain.select hook).map (·.1)).Sublist (chain.registrations.map (·.id)) := by
  unfold select
  induction chain.registrations with
  | nil => exact .slnil
  | cons registration rest ih =>
      cases hhook : hook registration.options with
      | none =>
          rw [List.filterMap_cons_none (by rw [hhook]; rfl)]
          exact ih.cons _
      | some h =>
          rw [List.filterMap_cons_some (by rw [hhook]; rfl)]
          exact ih.cons_cons _

/-- In a chain a hook comes before those that were registered before it. -/
theorem select_newestFirst {chain : HookChain H} (h : chain.Numbered)
    (hook : HookOptions H → Option H) : ((chain.select hook).map (·.1)).Pairwise (· > ·) := by
  refine List.Pairwise.sublist (select_sublist hook chain) ?_
  rw [h, List.pairwise_reverse]
  exact List.pairwise_lt_range'

end HookChain

open ChainNote

/-- Chains ask their hooks in order.

The log of a chain tells that only what is `ChainNote.Allowed` happens in it: the newest hook is
entered first, and any other one, like the default, as the hook before it goes on, and with what
that goes on with.  When a hook ends, what it gives is accepted if it has gone on or says that it
need not.  What a hook goes on with is a chain itself, of which all of this holds again. -/
structure DispatchesInOrder (σ H : Type) : Prop where
  newestFirst (options : List (Option (HookOptions H))) (kind : HookOptions H → Option H) :
    (((HookChain.registerAll options).select kind).map (·.1)).Pairwise (· > ·)
  resolve (program : H → String → ResolveContext → ResolveProgram σ H) (hooks : List (Nat × H))
    (last : NextResolve σ H) (specifier : String) (context : ResolveContext) :
    (resolveLogged program hooks last [] specifier context).Tells
      (dispatchResolve program hooks last specifier context)
      (Allowed acceptResolution (hooks.map (·.1)) (specifier, context))
      (fun result log => Returns [] (hooks.map (·.1))[0]? log result)
  /-- The same of load hooks, if what they reply is awaited. -/
  load (program : H → String → LoadContext → LoadProgram σ H) (hooks : List (Nat × H))
    (last : NextLoad σ H) (url : String) (context : LoadContext) :
    (loadAwaitLogged program hooks last url context).Tells
      ((dispatchLoad program hooks last url context).bind LoadReply.await)
      (Allowed acceptOutput (hooks.map (·.1)) (url, context))
      (fun result log => Returns [] (hooks.map (·.1))[0]? log result)
  /-- An invocation is one of the hook that follows those above it in the chain. -/
  invoked {A R : Type} {accept : Nat → Nat → Except ModuleError R → Except ModuleError R}
    {ids path : List Nat} {arguments given : A} {hook : Option Nat} {log : List (ChainNote A R)}
    (h : Program.Logged (Allowed accept ids arguments) log)
    (hentered : .entered path hook given ∈ log) : hook = ids[path.length]?
  /-- Nothing is done on behalf of a request to go on that a hook has not made. -/
  onBehalf {A R : Type} {accept : Nat → Nat → Except ModuleError R → Except ModuleError R}
    {ids path : List Nat} {arguments : A} {index : Nat} {note : ChainNote A R}
    {log : List (ChainNote A R)} (h : Program.Logged (Allowed accept ids arguments) log)
    (hnote : note ∈ log) (hpath : index :: path <:+ note.path) :
    ∃ given, .wentOn path index given ∈ log
  /-- Resolve hooks that only pass on change nothing, and each of them is entered once. -/
  resolvePassed (hooks : List (Nat × H)) (last : NextResolve σ H) :
    dispatchResolve (fun _ => passResolve) hooks last = last ∧
    ∀ specifier context exchanges log result,
      (resolveLogged (fun _ => passResolve) hooks last [] specifier context).Runs exchanges log
        (.done result) →
      entries log = (hooks.map fun hook => some hook.1) ++ [none]
  /-- Load hooks that only pass on change nothing, and each of them is entered once. -/
  loadPassed (deferred : H → Bool) (hooks : List (Nat × H)) (last : NextLoad σ H) :
    dispatchLoad (fun _ => passLoad false) hooks last = last ∧
    ∀ url context,
      (dispatchLoad (fun hook => passLoad (deferred hook)) hooks last url context).bind
        LoadReply.await = (last url context).bind LoadReply.await ∧
      ∀ exchanges log result,
        (loadAwaitLogged (fun hook => passLoad (deferred hook)) hooks last url context).Runs
          exchanges log (.done result) →
        entries log = (hooks.map fun hook => some hook.1) ++ [none]

/-- Every chain of hooks asks them in order, however many they are and whatever they do. -/
theorem dispatchesInOrder (σ H : Type) : DispatchesInOrder σ H where
  newestFirst options kind :=
    HookChain.select_newestFirst (HookChain.numbered_registerAll options) kind
  resolve := resolveLogged_tells
  load := loadAwaitLogged_tells
  invoked := entered_hook
  onBehalf := exists_wentOn
  resolvePassed hooks last := by
    refine ⟨dispatchResolve_passResolve hooks last, ?_⟩
    intro specifier context exchanges log result hruns
    exact ((resolveLogged_passResolve hooks last [] specifier context []).runs .nil hruns).2
  loadPassed deferred hooks last := by
    refine ⟨dispatchLoad_passLoad_false hooks last, fun url context =>
      ⟨await_dispatchLoad_passLoad deferred hooks last url context, ?_⟩⟩
    intro exchanges log result hruns
    have hsafe := Program.Safe.bind (loadLogged_passLoad deferred hooks last [] url context [])
    exact (hsafe.runs .nil hruns).2

end ScriptModules
