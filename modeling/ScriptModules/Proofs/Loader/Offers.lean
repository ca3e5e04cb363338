import ScriptModules.Proofs.Association
import ScriptModules.Proofs.Loader.History

/-!
# What an embedder gives to a loader

An embedder gives built-in modules and hooks to a loader.  Whatever loads and reloads do,
both stay as they are (`Session.offers_resume`): only the operations that are there for it
change them, and none takes a hook back.  So the table of built-in modules holds what was
given last under each name (`Traffic.lookup_builtins_afterAll`).
-/

namespace ScriptModules

variable {σ H : Type} {k m n : Kind}

/-- The built-in modules of a loader and its hooks. -/
def Loader.offers (loader : Loader H) : List (String × Handle) × List (Registration H) :=
  (loader.builtins, loader.hooks.registrations)

namespace Session

variable {host : Host σ H} {session middle : Session σ H} {load : Load}
  {stack : Stack σ H .module n} {result : Focus σ H n × Session σ H}

/-! ## Loads -/

theorem Considers.offers {key : String} {answer : Except ModuleError (Option Handle)}
    (h : Considers key session (answer, middle)) :
    middle.loader.offers = session.loader.offers := by
  cases h <;> rfl

theorem Aside.offers (h : session.Aside middle) : middle.loader.offers = session.loader.offers := by
  cases h <;> rfl

theorem Carries.offers {rest? : Option (Work σ H (Except ModuleError LoadOutput))}
    {state : ModuleState} {exports : Option Handle}
    (hc : Carries host load rest? stack state exports session result) :
    result.2.loader.offers = session.loader.offers := by
  induction hc with
  | receives format _ ih => exact ih
  | aside ha _ ih => exact ih.trans ha.offers
  | _ => rfl

theorem Admits.offers {order : LoadOrder} {answer : Except ModuleError Resolution}
    (h : Admits host order stack session answer result) :
    result.2.loader.offers = session.loader.offers := by
  cases h with
  | served hserved => exact (considers_of_eq hserved).offers
  | _ => rfl

theorem Reloads.offers {reload : Reload} {answer : Except ModuleError Resolution}
    {stack : Stack σ H .reload n} {result : Focus σ H n × Session σ H}
    (h : Reloads host reload stack session answer result) :
    result.2.loader.offers = session.loader.offers := by
  cases h with
  | ends resolved wasCached outcome => rfl
  | @begins resolution wasCached _ =>
      have hforgotten :
          (session.forget resolution.url).2.loader.offers = session.loader.offers := by
        obtain ⟨files, cache, heq⟩ := session.forget_eq resolution.url
        rw [heq]
        rfl
      exact hforgotten

/-- Handing a value on leaves built-in modules and hooks alone. -/
theorem offers_resume (host : Host σ H) (frame : Frame σ H k m) (value : Value σ H k)
    (stack : Stack σ H m n) (session : Session σ H) :
    (resume host frame value stack session).2.loader.offers = session.loader.offers := by
  cases frame using Frame.cases_load with
  | asking next => rfl
  | counting => rfl
  | resolving order => exact (admits host order value stack session).offers
  | loading frame load hf =>
      obtain ⟨state, exports, -, -, hcarries⟩ := resume_carries host value stack session hf
      exact hcarries.offers
  | reloading reload => exact (reloads host reload value stack session).offers
  | renewing reload key wasCached => rfl

end Session

/-! ## Operations -/

/-- The built-in module an operation gives. -/
def Operation.defined? : Operation σ H → Option (String × Handle)
  | .defineBuiltin name handle => some (name, handle)
  | _ => none

namespace Session

/-- Of the operations only two change them: one gives a built-in module, and one may add
hooks. -/
theorem offers_perform (session : Session σ H) (operation : Operation σ H) :
    (operation.defined? = none ∧
      ((session.perform operation).2.loader.offers = session.loader.offers ∨
        ∃ registration, (session.perform operation).2.loader.offers =
          (session.loader.builtins, registration :: session.loader.hooks.registrations))) ∨
      ∃ name handle, operation = .defineBuiltin name handle := by
  cases hdefined : operation.defined? with
  | some given =>
      cases operation with
      | defineBuiltin name handle => exact Or.inr ⟨name, handle, rfl⟩
      | _ => cases hdefined
  | none =>
      refine Or.inl ⟨rfl, ?_⟩
      have hperforms := session.performs operation
      generalize (session.perform operation).2 = after at hperforms ⊢
      cases hperforms with
      | defines name handle => cases hdefined
      | registers registration => exact Or.inr ⟨registration, rfl⟩
      | _ => exact Or.inl rfl

/-- What an operation gives stands in the table from then on. -/
theorem lookup_builtins_perform (session : Session σ H) (operation : Operation σ H)
    (name : String) :
    (session.perform operation).2.loader.builtins.lookup name =
      (operation.defined?.toList ++ session.loader.builtins).lookup name := by
  rcases offers_perform session operation with ⟨hnone, hsame⟩ | ⟨given, handle, rfl⟩
  · have hbuiltins : (session.perform operation).2.loader.builtins = session.loader.builtins := by
      rcases hsame with hsame | ⟨_, hsame⟩ <;> exact congrArg Prod.fst hsame
    rw [hnone, hbuiltins]
    rfl
  · show ((given, handle) :: session.loader.builtins.filter (·.1 ≠ given)).lookup name =
      ((given, handle) :: session.loader.builtins).lookup name
    by_cases heq : name = given
    · rw [heq, List.lookup_cons_self, List.lookup_cons_self]
    · have hkept := Association.lookup_filter session.loader.builtins (· ≠ given) name
      rw [if_pos (by simpa using heq)] at hkept
      rw [List.lookup_cons, List.lookup_cons, ← hkept]

/-- No operation takes a hook back. -/
theorem hooks_perform {session : Session σ H} {operation : Operation σ H}
    (h : (session.perform operation).2.loader.hooks.registrations = []) :
    session.loader.hooks.registrations = [] := by
  rcases offers_perform session operation with ⟨-, hsame | ⟨_, hmore⟩⟩ | ⟨name, handle, rfl⟩
  · exact (congrArg Prod.snd hsame).symm.trans h
  · cases (congrArg Prod.snd hmore).symm.trans h
  · exact h

end Session

/-! ## Steps -/

/-- The operation a program is about to do. -/
def Focus.operation? (focus : Focus σ H n) : Option (Operation σ H) :=
  match focus with
  | ⟨_, .ask (.request (.operation operation)) _, _⟩ => some operation
  | _ => none

/-- A step does an operation, or it leaves built-in modules and hooks alone. -/
theorem Session.offers_step (host : Host σ H) (focus : Focus σ H n) (session : Session σ H) :
    (focus.operation? = none ∧
      (session.step host focus).2.loader.offers = session.loader.offers) ∨
      ∃ operation, focus.operation? = some operation ∧
        (session.step host focus).2 = (session.perform operation).2 := by
  obtain ⟨kind, work, stack⟩ := focus
  cases work with
  | done value =>
      cases stack with
      | nil => exact Or.inl ⟨rfl, rfl⟩
      | cons frame rest => exact Or.inl ⟨rfl, offers_resume host frame value rest session⟩
  | ask request next =>
      cases request with
      | request request =>
          cases request with
          | operation operation => exact Or.inr ⟨operation, rfl, rfl⟩
          | _ => exact Or.inl ⟨rfl, rfl⟩
      | pause =>
          left
          rcases step_pause host next stack session with heq | heq <;> rw [heq] <;>
            exact ⟨rfl, rfl⟩
      | _ => exact Or.inl ⟨rfl, rfl⟩

/-! ## Runs -/

namespace Traffic

variable {host : Host σ H} {traffic : Traffic σ H}

/-- The operation an event does, if it does one. -/
def operation? (traffic : Traffic σ H) : TrafficEvent σ H → Option (Operation σ H)
  | .operated operation => some operation
  | .advanced index => traffic.tasks[index]? >>= fun task => task.focus.operation?
  | _ => none

/-- The built-in module an event gives. -/
def defined? (traffic : Traffic σ H) (event : TrafficEvent σ H) : Option (String × Handle) :=
  traffic.operation? event >>= Operation.defined?

/-- An event does an operation, or it leaves built-in modules and hooks alone. -/
theorem offers_after (host : Host σ H) (traffic : Traffic σ H) (event : TrafficEvent σ H) :
    (traffic.operation? event = none ∧
      (traffic.after host event).session.loader.offers = traffic.session.loader.offers) ∨
      ∃ operation, traffic.operation? event = some operation ∧
        (traffic.after host event).session = (traffic.session.perform operation).2 := by
  cases event with
  | operated operation => exact Or.inr ⟨operation, rfl, rfl⟩
  | advanced index =>
      simp only [operation?, after]
      cases htask : traffic.tasks[index]? with
      | none => exact Or.inl ⟨rfl, rfl⟩
      | some task =>
          simp only [session_proceed]
          exact Session.offers_step host task.focus traffic.session
  | dropped index =>
      refine Or.inl ⟨rfl, ?_⟩
      simp only [after]
      split <;> rfl
  | _ => exact Or.inl ⟨rfl, rfl⟩

theorem lookup_builtins_after (host : Host σ H) (traffic : Traffic σ H)
    (event : TrafficEvent σ H) (name : String) :
    (traffic.after host event).session.loader.builtins.lookup name =
      ((traffic.defined? event).toList ++ traffic.session.loader.builtins).lookup name := by
  unfold defined?
  rcases offers_after host traffic event with ⟨hnone, hsame⟩ | ⟨operation, hop, hafter⟩
  · have hbuiltins : (traffic.after host event).session.loader.builtins =
        traffic.session.loader.builtins := congrArg Prod.fst hsame
    rw [hnone, hbuiltins]
    rfl
  · rw [hop, hafter]
    exact Session.lookup_builtins_perform traffic.session operation name

/-- What was given for built-in modules in a run of events, the latest first. -/
def definitions (host : Host σ H) : Traffic σ H → List (TrafficEvent σ H) → List (String × Handle)
  | _, [] => []
  | traffic, event :: events =>
    definitions host (traffic.after host event) events ++ (traffic.defined? event).toList

/-- All through a run the table holds what was given last under each name. -/
theorem lookup_builtins_afterAll (host : Host σ H) (traffic : Traffic σ H)
    (events : List (TrafficEvent σ H)) (name : String) :
    (traffic.afterAll host events).session.loader.builtins.lookup name =
      (traffic.definitions host events ++ traffic.session.loader.builtins).lookup name := by
  induction events generalizing traffic with
  | nil => rfl
  | cons event events ih =>
      refine (ih _).trans ?_
      rw [definitions, List.append_assoc]
      simp only [List.lookup_append]
      rw [lookup_builtins_after, List.lookup_append]

theorem hooks_after {event : TrafficEvent σ H}
    (h : (traffic.after host event).session.loader.hooks.registrations = []) :
    traffic.session.loader.hooks.registrations = [] := by
  rcases offers_after host traffic event with ⟨-, hsame⟩ | ⟨operation, -, hafter⟩
  · exact (congrArg Prod.snd hsame).symm.trans h
  · rw [hafter] at h
    exact Session.hooks_perform h

/-- Where there are no hooks, there were none before. -/
theorem hooks_afterAll {events : List (TrafficEvent σ H)}
    (h : (traffic.afterAll host events).session.loader.hooks.registrations = []) :
    traffic.session.loader.hooks.registrations = [] := by
  induction events generalizing traffic with
  | nil => exact h
  | cons event events ih => exact hooks_after (ih h)

end Traffic

end ScriptModules
