import ScriptModules.Proofs.Loader.Course
import ScriptModules.Proofs.Loader.Renewal

/-!
# What hooks are asked in a run

A loader puts two kinds of requests to its hooks: to resolve a specifier, and to load the module it
was resolved to.  Specifiers are resolved for loads, and without one, for the embedder or for a
reload.  What is asked at each event is told by `Traffic.dispatch?`; nothing else is asked, and
nothing else is counted (`Traffic.after_counts`).
-/

namespace ScriptModules

variable {σ H : Type} {k m n : Kind}

/-! ## Callers -/

/-- Who asks for a load. -/
inductive Caller where
  /-- The embedder: from outside, in a hook or in the compiler. -/
  | embedder
  /-- The body of a module. -/
  | body
  /-- A reload, for the module that it has forgotten. -/
  | reload
  deriving DecidableEq

/-- Whether a frame waits for the body of a module to end. -/
def Frame.isExecuting : Frame σ H k m → Bool
  | .executing _ _ => true
  | _ => false

/-- Whether the innermost frame does. -/
def Stack.runsBody : {k n : Kind} → Stack σ H k n → Bool
  | _, _, .nil => false
  | _, _, .cons frame _ => frame.isExecuting

/-- Who asked for the load whose outcome a stack waits for.  A program that asks for one is the
body of a module if its result is what the body ends with. -/
def Stack.caller : {k n : Kind} → Stack σ H k n → Caller
  | _, _, .nil => .embedder
  | _, _, .cons frame rest =>
    match frame with
    | .counting => rest.caller
    | .asking _ => if rest.runsBody then .body else .embedder
    | .renewing _ _ _ => .reload
    | _ => .embedder

/-! ## What hooks are asked -/

/-- A request that is put to hooks. -/
inductive Dispatch where
  /-- To resolve a specifier that no load has yet. -/
  | lookup (context : ResolveContext)
  /-- To resolve the specifier of a load. -/
  | resolve (caller : Caller) (order : LoadOrder)
  /-- To load the module a specifier was resolved to. -/
  | load (caller : Caller) (order : LoadOrder) (load : Load)
  deriving DecidableEq

namespace Dispatch

/-- Whether hooks are told that it is for the entry module. -/
def isMain : Dispatch → Bool
  | .lookup context => context.isMain
  | .resolve _ order => order.isMain
  | .load _ order _ => order.isMain

/-- Who asks for the load it is for. -/
def caller? : Dispatch → Option Caller
  | .lookup _ => none
  | .resolve caller _ => some caller
  | .load caller _ _ => some caller

end Dispatch

namespace HookChain

/-- How often hooks have been asked to resolve, and how often to load. -/
def dispatches (chain : HookChain H) : Nat × Nat :=
  (chain.resolveDispatches, chain.loadDispatches)

end HookChain

/-- What is asked of hooks when the specifier of a load is to be resolved. -/
def Focus.resolving? (next : Focus σ H n) : Option Dispatch :=
  match next with
  | ⟨.resolution, _, .cons (.resolving order) rest⟩ => some (.resolve rest.caller order)
  | _ => none

/-- What is asked of hooks when the specifier of a load has been resolved. -/
def Focus.loading? (order : LoadOrder) (next : Focus σ H n) : Option Dispatch :=
  match next with
  | ⟨.reply, _, .cons (.fetching load _) rest⟩ => some (.load rest.caller order load)
  | _ => none

/-- What is asked of hooks when a frame gets a value. -/
def Frame.dispatch? (frame : Frame σ H k m) (next : Focus σ H n) : Option Dispatch :=
  match frame with
  | .resolving order => next.loading? order
  | .reloading _ => next.resolving?
  | _ => none

theorem Frame.dispatch?_of_load? {frame : Frame σ H k m} {load : Load} (h : frame.load? = some load)
    (next : Focus σ H n) : frame.dispatch? next = none := by
  cases frame with
  | resolving order => cases h
  | reloading reload => cases h
  | _ => rfl

namespace Session

/-- What resolve hooks are told of a specifier that no load has yet. -/
def lookupContext (session : Session σ H) (specifier : String) (base : Path) : ResolveContext :=
  ⟨specifier, base, session.loader.conditions LoadMode.immediate.name, false⟩

/-- What is asked of hooks at the next step of a focus. -/
def dispatch? (host : Host σ H) (focus : Focus σ H n) (session : Session σ H) : Option Dispatch :=
  match focus with
  | ⟨_, .done value, .cons frame rest⟩ => frame.dispatch? (session.resume host frame value rest).1
  | ⟨_, .ask (.request (.resolve specifier base)) _, _⟩ =>
    some (.lookup (session.lookupContext specifier base))
  | ⟨_, .ask (.request (.require specifier base)) next, stack⟩ =>
    (session.startLoad host .immediate specifier base (.cons (.asking next) stack)).1.resolving?
  | ⟨_, .ask (.request (.reload specifier base)) _, _⟩ =>
    some (.lookup (session.lookupContext specifier base))
  | _ => none

/-- A dispatch begins: the hooks there are just now are asked, and this is counted. -/
inductive Asks (host : Host σ H) (session : Session σ H) :
    Dispatch → Focus σ H n × Session σ H → Prop where
  | lookup {context : ResolveContext} {stack : Stack σ H .resolution n} {after : Session σ H}
      (h : after.loader.hooks = session.loader.hooks.resolveHooks.2) :
      Asks host session (.lookup context)
        (⟨.resolution, dispatchResolve host.resolve session.loader.hooks.resolveHooks.1
          resolveDirectly context.specifier context, stack⟩, after)
  | resolve {order : LoadOrder} {stack : Stack σ H .module n} {after : Session σ H}
      (h : after.loader.hooks = session.loader.hooks.resolveHooks.2) :
      Asks host session (.resolve stack.caller order)
        (⟨.resolution, dispatchResolve host.resolve session.loader.hooks.resolveHooks.1
          resolveDirectly order.specifier (contextOf order),
          .cons (.resolving order) (.cons .counting stack)⟩, after)
  | load {order : LoadOrder} {load : Load} {format : Option ModuleFormat}
      {stack : Stack σ H .module n} {after : Session σ H}
      (h : after.loader.hooks = session.loader.hooks.loadHooks.2) :
      Asks host session (.load stack.caller order load)
        (⟨.reply, dispatchLoad host.load session.loader.hooks.loadHooks.1 loadDirectly load.key
          ⟨format, order.conditions, order.isMain⟩, .cons (.fetching load order.mode) stack⟩, after)

/-! ## Beginning a load -/

/-- The order of a load that begins now. -/
def ordering (session : Session σ H) (mode : LoadMode) (specifier : String) (base : Path) :
    LoadOrder :=
  ⟨mode, specifier, base, session.loader.conditions mode.name,
    session.loader.executing == 0 && !session.loader.mainLoaded⟩

variable {host : Host σ H} {session middle : Session σ H}

theorem resolving?_startLoad (host : Host σ H) (session : Session σ H) (mode : LoadMode)
    (specifier : String) (base : Path) (stack : Stack σ H .module n) :
    (session.startLoad host mode specifier base stack).1.resolving? =
      some (.resolve stack.caller (session.ordering mode specifier base)) :=
  rfl

theorem startLoad_asks (mode : LoadMode) (specifier : String) (base : Path)
    (stack : Stack σ H .module n) :
    Asks host session (.resolve stack.caller (session.ordering mode specifier base))
      (session.startLoad host mode specifier base stack) :=
  .resolve rfl

theorem startResolve_asks (specifier : String) (base : Path) (stack : Stack σ H .resolution n) :
    Asks host session (.lookup (session.lookupContext specifier base))
      (session.startResolve host specifier base stack) :=
  .lookup rfl

/-! ## Going on with a load -/

theorem Considers.reception {key : String} {answer : Except ModuleError (Option Handle)}
    (h : Considers key session (answer, middle)) :
    middle.loader.reception = session.loader.reception := by
  cases h <;> rfl

/-- What a load does when its specifier has been resolved: it is over, or it asks the load
hooks. -/
inductive Meets (host : Host σ H) (order : LoadOrder) (stack : Stack σ H .module n)
    (session : Session σ H) : Focus σ H n × Session σ H → Prop where
  | ends {answer : Except ModuleError LoadedModule} {after : Session σ H}
      (h : after.loader.reception = session.loader.reception) :
      Meets host order stack session (⟨.module, .done answer, stack⟩, after)
  | asks {load : Load} {format : Option ModuleFormat} {after : Session σ H}
      (hooks : after.loader.hooks = session.loader.hooks.loadHooks.2)
      (main : after.loader.mainLoaded = session.loader.mainLoaded) :
      Meets host order stack session
        (⟨.reply, dispatchLoad host.load session.loader.hooks.loadHooks.1 loadDirectly load.key
          ⟨format, order.conditions, order.isMain⟩, .cons (.fetching load order.mode) stack⟩, after)

theorem receiveResolution_meets (host : Host σ H) (order : LoadOrder)
    (answer : Except ModuleError Resolution) (stack : Stack σ H .module n)
    (session : Session σ H) :
    Meets host order stack session (receiveResolution host order answer stack session) := by
  have hadmits := admits host order answer stack session
  generalize receiveResolution host order answer stack session = result at hadmits ⊢
  cases hadmits with
  | unresolved => exact .ends rfl
  | refused _ => exact .ends rfl
  | served hserved => exact .ends (considers_of_eq hserved).reception
  | begins _ => exact .asks rfl rfl

/-- What a reload does when its specifier has been resolved: it is over, or a load begins. -/
inductive Restarts (host : Host σ H) (reload : Reload) (stack : Stack σ H .reload n)
    (session : Session σ H) : Focus σ H n × Session σ H → Prop where
  | ends {report : ReloadResult} {after : Session σ H}
      (h : after.loader.reception = session.loader.reception)
      (he : after.loader.executing = session.loader.executing) :
      Restarts host reload stack session (⟨.reload, .done report, stack⟩, after)
  | begins {key : String} {wasCached : Bool} {middle : Session σ H}
      (h : middle.loader.reception = session.loader.reception)
      (he : middle.loader.executing = session.loader.executing) :
      Restarts host reload stack session (middle.startLoad host .immediate key reload.base
        (.cons (.renewing reload key wasCached) stack))

theorem receiveReload_restarts (host : Host σ H) (reload : Reload)
    (answer : Except ModuleError Resolution) (stack : Stack σ H .reload n)
    (session : Session σ H) :
    Restarts host reload stack session (receiveReload host reload answer stack session) := by
  have hreloads := reloads host reload answer stack session
  generalize receiveReload host reload answer stack session = result at hreloads ⊢
  cases hreloads with
  | ends resolved wasCached outcome => exact .ends rfl rfl
  | @begins resolution wasCached _ =>
      obtain ⟨files, cache, hforgotten⟩ := session.forget_eq resolution.url
      refine .begins ?_ ?_
      · rw [hforgotten]
        rfl
      · rw [hforgotten]

/-! ## The hooks are asked -/

/-- No operation begins a load or asks hooks. -/
theorem keeps_perform (session : Session σ H) (operation : Operation σ H) :
    (session.perform operation).2.loader.hooks.dispatches = session.loader.hooks.dispatches ∧
      (session.perform operation).2.loader.mainLoaded = session.loader.mainLoaded ∧
        (session.perform operation).2.loader.executing = session.loader.executing := by
  have hperforms := session.performs operation
  generalize (session.perform operation).2 = after at hperforms ⊢
  cases hperforms <;> exact ⟨rfl, rfl, rfl⟩

theorem Asks.congr {dispatch : Dispatch} {middle : Session σ H}
    {result : Focus σ H n × Session σ H} (h : Asks host middle dispatch result)
    (hsame : middle.loader.hooks = session.loader.hooks) : Asks host session dispatch result := by
  cases h with
  | lookup h =>
      rw [hsame] at h ⊢
      exact .lookup h
  | resolve h =>
      rw [hsame] at h ⊢
      exact .resolve h
  | load h =>
      rw [hsame] at h ⊢
      exact .load h

/-- Hooks are asked what a dispatch says, and if there is none, nothing is counted. -/
inductive Counts (host : Host σ H) (session : Session σ H) :
    Option Dispatch → Progress σ H n × Session σ H → Prop where
  | asks {dispatch : Dispatch} {progress : Progress σ H n} {next : Focus σ H n}
      {after : Session σ H} (hn : progress.focus? = some next)
      (h : Asks host session dispatch (next, after)) :
      Counts host session (some dispatch) (progress, after)
  | silent {result : Progress σ H n × Session σ H}
      (h : result.2.loader.hooks.dispatches = session.loader.hooks.dispatches) :
      Counts host session none result

theorem startLoad_counts (host : Host σ H) (mode : LoadMode) (specifier : String) (base : Path)
    (stack : Stack σ H .module n) (session : Session σ H) :
    Counts host session (session.startLoad host mode specifier base stack).1.resolving?
      (.running (session.startLoad host mode specifier base stack).1,
        (session.startLoad host mode specifier base stack).2) :=
  .asks rfl (startLoad_asks mode specifier base stack)

theorem resume_counts (host : Host σ H) (frame : Frame σ H k m) (value : Value σ H k)
    (stack : Stack σ H m n) (session : Session σ H) :
    Counts host session (frame.dispatch? (resume host frame value stack session).1)
      (.running (resume host frame value stack session).1,
        (resume host frame value stack session).2) := by
  have hsilent : ∀ {progress : Progress σ H n} {after : Session σ H},
      after.loader.reception = session.loader.reception →
        Counts host session none (progress, after) :=
    fun h => .silent (congrArg HookChain.dispatches (congrArg Prod.fst h))
  cases frame using Frame.cases_load with
  | asking next => exact hsilent rfl
  | counting => exact hsilent rfl
  | resolving order =>
      have hmeets := receiveResolution_meets host order value stack session
      show Counts host session ((receiveResolution host order value stack session).1.loading? order)
        (.running (receiveResolution host order value stack session).1,
          (receiveResolution host order value stack session).2)
      generalize receiveResolution host order value stack session = result at hmeets ⊢
      cases hmeets with
      | ends h => exact hsilent h
      | asks hooks _ => exact .asks rfl (.load hooks)
  | loading frame load hf =>
      rw [Frame.dispatch?_of_load? hf]
      exact hsilent (resume_continues host value stack session hf).reception
  | reloading reload =>
      have hrestarts := receiveReload_restarts host reload value stack session
      show Counts host session (receiveReload host reload value stack session).1.resolving?
        (.running (receiveReload host reload value stack session).1,
          (receiveReload host reload value stack session).2)
      generalize receiveReload host reload value stack session = result at hrestarts ⊢
      cases hrestarts with
      | ends h _ => exact hsilent h
      | @begins key wasCached middle h _ =>
          have hasks : Asks host middle _ _ := startLoad_asks .immediate key reload.base
            (.cons (.renewing reload key wasCached) stack)
          exact .asks rfl (hasks.congr (congrArg Prod.fst h))
  | renewing reload key wasCached => exact hsilent rfl

theorem step_counts (host : Host σ H) (focus : Focus σ H n) (session : Session σ H) :
    Counts host session (session.dispatch? host focus) (session.step host focus) := by
  obtain ⟨kind, work, stack⟩ := focus
  cases work with
  | done value =>
      cases stack with
      | nil => exact .silent rfl
      | cons frame rest => exact resume_counts host frame value rest session
  | ask request next =>
      cases request with
      | request request =>
          cases request with
          | operation operation => exact .silent (keeps_perform session operation).1
          | resolve specifier base => exact .asks rfl (startResolve_asks specifier base _)
          | require specifier base =>
              exact startLoad_counts host .immediate specifier base (.cons (.asking next) stack)
                session
          | reload specifier base => exact .asks rfl (startResolve_asks specifier base _)
      | pause =>
          rcases step_pause host next stack session with heq | heq <;> rw [heq] <;>
            exact .silent rfl
      | _ => exact .silent rfl

end Session

/-! ## Events -/

namespace Traffic

variable {host : Host σ H} {traffic : Traffic σ H}

/-- What is asked of hooks at an event. -/
def dispatch? (host : Host σ H) (traffic : Traffic σ H) : TrafficEvent σ H → Option Dispatch
  | .imported specifier base => (traffic.session.startImport host specifier base).1.resolving?
  | .required specifier base =>
    (traffic.session.startLoad host .immediate specifier base .nil).1.resolving?
  | .resolved specifier base | .reloaded specifier base =>
    some (.lookup (traffic.session.lookupContext specifier base))
  | .advanced index =>
    match traffic.tasks[index]? with
    | some task => traffic.session.dispatch? host task.focus
    | none => none
  | _ => none

/-- What is asked of hooks in a run of events. -/
def dispatches (host : Host σ H) : Traffic σ H → List (TrafficEvent σ H) → List Dispatch
  | _, [] => []
  | traffic, event :: events =>
    (traffic.dispatch? host event).toList ++ dispatches host (traffic.after host event) events

/-- Hooks are asked what a dispatch says, as a task starts or goes on. -/
inductive Counts (host : Host σ H) (traffic after : Traffic σ H) : Option Dispatch → Prop where
  | asks {dispatch : Dispatch} {task : Task σ H} (ht : task ∈ after.tasks)
      (h : Session.Asks host traffic.session dispatch (task.focus, after.session)) :
      Counts host traffic after (some dispatch)
  | silent (h : after.session.loader.hooks.dispatches = traffic.session.loader.hooks.dispatches) :
      Counts host traffic after none

theorem counts_start {started : Focus σ H n × Session σ H} {dispatch : Dispatch}
    (h : Session.Asks host traffic.session dispatch started) :
    Counts host traffic (traffic.start started) (some dispatch) :=
  .asks (List.mem_concat_self) h

theorem counts_proceed {index : Nat} {task : Task σ H} (ht : traffic.tasks[index]? = some task)
    {result : Progress σ H n × Session σ H} {dispatch : Option Dispatch}
    (h : Session.Counts host traffic.session dispatch result) :
    Counts host traffic (traffic.proceed index result) dispatch := by
  have hlt := (List.getElem?_eq_some_iff.mp ht).1
  cases h with
  | @asks dispatch progress next later hn h =>
      have hmem : (⟨n, next⟩ : Task σ H) ∈ (traffic.proceed index (progress, later)).tasks := by
        rw [tasks_proceed_of_some hn]
        exact List.mem_of_getElem? (List.getElem?_set_self hlt)
      refine .asks hmem ?_
      rw [session_proceed]
      exact h
  | silent h =>
      refine .silent ?_
      rw [session_proceed]
      exact h

/-- What is counted as a dispatch is what is asked of hooks. -/
theorem after_counts (host : Host σ H) (traffic : Traffic σ H) (event : TrafficEvent σ H) :
    Counts host traffic (traffic.after host event) (traffic.dispatch? host event) := by
  cases event with
  | imported specifier base => exact counts_start (Session.startLoad_asks .suspendable _ _ .nil)
  | required specifier base => exact counts_start (Session.startLoad_asks .immediate _ _ .nil)
  | resolved specifier base => exact counts_start (Session.startResolve_asks _ _ .nil)
  | reloaded specifier base => exact counts_start (Session.startResolve_asks _ _ _)
  | operated operation => exact .silent (Session.keeps_perform traffic.session operation).1
  | changed surroundings => exact .silent rfl
  | dropped index =>
      refine .silent ?_
      simp only [after]
      split <;> rfl
  | advanced index =>
      cases htask : traffic.tasks[index]? with
      | none =>
          simp only [after, dispatch?, htask]
          exact .silent rfl
      | some task =>
          simp only [after, dispatch?, htask]
          exact counts_proceed htask (Session.step_counts host task.focus traffic.session)

end Traffic

end ScriptModules
