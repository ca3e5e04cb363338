import ScriptModules.Proofs.Loader.Cases
import ScriptModules.Proofs.Registry.InFlight

/-!
# Frames and their claims

A frame of a load that has a record claims it, in the state the load has brought it to.
Whatever one step of a task does, the registry goes on honoring the claims of all its
frames, and those of all other loads.  Only the innermost frame moves: its load goes on
with the same record, or it is over and its record is in a last state (`Proceeds`).
-/

namespace ScriptModules

open Registry (Claim InFlight)

variable {σ H : Type} {k m n : Kind}

/-! ## Claims -/

/-- What a load claims when it has brought its record to a state. -/
def Load.claim (load : Load) (state : ModuleState) (exports : Option Handle := none) : Claim :=
  { id := load.id, key := load.key, state, exports }

/-- What a frame claims. -/
def Frame.claims : Frame σ H k m → List Claim
  | .fetching load _ | .awaiting load => [load.claim .resolving]
  | .compiling load .. => [load.claim .compiling]
  | .executing load exports => [load.claim .executing (some exports)]
  | .asking _ | .counting | .resolving _ | .reloading _ | .renewing .. => []

/-- What the frames of a stack claim, innermost first. -/
def Stack.claims : {k n : Kind} → Stack σ H k n → List Claim
  | _, _, .nil => []
  | _, _, .cons frame rest => frame.claims ++ rest.claims

/-- The claims of a focus are those of its stack. -/
def Focus.claims (focus : Focus σ H n) : List Claim :=
  focus.stack.claims

/-- What the innermost frame of a stack claims. -/
def Stack.leading : {k n : Kind} → Stack σ H k n → List Claim
  | _, _, .nil => []
  | _, _, .cons frame _ => frame.claims

/-- The claims of the frame a focus hands its next value to. -/
def Focus.leading (focus : Focus σ H n) : List Claim :=
  focus.stack.leading

/-- What is claimed by what is left to do. -/
def Progress.claims : Progress σ H n → List Claim
  | .running focus | .suspended focus => focus.claims
  | .finished _ => []

namespace Session

variable {host : Host σ H} {session middle : Session σ H} {claims others : List Claim}
  {claim : Claim}

/-! ## Operations -/

/-- Of all operations only clearing the modules touches the registry. -/
theorem registry_perform (session : Session σ H) (operation : Operation σ H) :
    (session.perform operation).2.loader.registry = session.loader.registry ∨
      operation = .clearModules := by
  have hperforms := session.performs operation
  generalize (session.perform operation).2 = after at hperforms ⊢
  cases hperforms with
  | clears => exact Or.inr rfl
  | _ => exact Or.inl rfl

theorem inFlight_perform (h : InFlight session.loader.registry claims)
    (operation : Operation σ H) :
    InFlight (session.perform operation).2.loader.registry claims := by
  rcases registry_perform session operation with heq | rfl
  · rw [heq]
    exact h
  · exact h.clear

/-! ## Starting -/

theorem inFlight_startLoad (host : Host σ H) (mode : LoadMode) (specifier : String) (base : Path)
    (stack : Stack σ H .module n)
    (h : InFlight session.loader.registry (stack.claims ++ others)) :
    InFlight (session.startLoad host mode specifier base stack).2.loader.registry
        ((session.startLoad host mode specifier base stack).1.claims ++ others) ∧
      (session.startLoad host mode specifier base stack).1.claims = stack.claims :=
  ⟨h.of_eq rfl rfl rfl, rfl⟩

/-! ## Carrying on a load -/

/-- Where the load of a claim may come to: it goes on with its record in another state,
or it is over and its record is in a last one. -/
inductive Proceeds (claim : Claim) (stack : Stack σ H .module n) (others : List Claim) :
    Focus σ H n × Session σ H → Prop where
  | goesOn {result : Focus σ H n × Session σ H} (moved : Claim) (hid : moved.id = claim.id)
      (hkey : moved.key = claim.key) (hclaims : result.1.claims = moved :: stack.claims)
      (h : InFlight result.2.loader.registry (moved :: (stack.claims ++ others))) :
      Proceeds claim stack others result
  | ends {result : Focus σ H n × Session σ H} (hclaims : result.1.claims = stack.claims)
      (hsettled : result.2.loader.registry.Settled claim)
      (h : InFlight result.2.loader.registry (stack.claims ++ others)) :
      Proceeds claim stack others result

/-- Only the claim's record matters for where its load comes to. -/
theorem Proceeds.of_eq {moved : Claim} {stack : Stack σ H .module n}
    {result : Focus σ H n × Session σ H} (hp : Proceeds moved stack others result)
    (hid : moved.id = claim.id) (hkey : moved.key = claim.key) :
    Proceeds claim stack others result := by
  cases hp with
  | goesOn last hlast hlastKey hclaims h =>
      exact .goesOn last (hlast.trans hid) (hlastKey.trans hkey) hclaims h
  | ends hclaims hsettled h =>
      obtain ⟨record, hr, hk, ht⟩ := hsettled
      exact .ends hclaims ⟨record, hid ▸ hr, hk.trans hkey, ht⟩ h

variable {load : Load} {state : ModuleState} {exports : Option Handle}
  {stack : Stack σ H .module n}

theorem failLoad_proceeds (e : ModuleError)
    (h : InFlight session.loader.registry (load.claim state exports :: (stack.claims ++ others))) :
    Proceeds (load.claim state exports) stack others (failLoad load e stack session) := by
  obtain ⟨hrest, hsettled⟩ := h.fail e.message
  exact .ends rfl hsettled hrest

/-- The body of a module starts on the table its record has. -/
theorem startBody_proceeds (host : Host σ H) (bytecode : Bytes) (fingerprint : Option Fingerprint)
    (sourceLength : Nat) (hn : state.canAdvance .executing = true)
    (h : InFlight session.loader.registry (load.claim state :: (stack.claims ++ others))) :
    Proceeds (load.claim state) stack others
      (startBody host load bytecode fingerprint sourceLength stack session) := by
  have hcompiled : InFlight (session.loader.registry.setCompiled load.id fingerprint sourceLength)
      (load.claim state :: (stack.claims ++ others)) :=
    h.modify (fun _ => rfl) (fun _ => rfl) (fun _ => rfl)
  obtain ⟨handle, hbegun, hrunning⟩ := hcompiled.beginExecution session.exports hn
  have hbegun : ((session.loader.registry.setCompiled load.id fingerprint
      sourceLength).beginExecution session.exports load.id).1 = some handle := hbegun
  unfold startBody
  simp only [hbegun]
  exact .goesOn (load.claim .executing (some handle)) rfl rfl rfl hrunning

/-- Contents bring a record to be compiled. -/
theorem inFlight_receives (format : ModuleFormat)
    (h : InFlight session.loader.registry (load.claim .resolving :: (stack.claims ++ others))) :
    InFlight ((session.loader.registry.setFormat load.id format).advance load.id .compiling).2
      (load.claim .compiling :: (stack.claims ++ others)) := by
  have hformat : InFlight (session.loader.registry.setFormat load.id format)
      (load.claim .resolving :: (stack.claims ++ others)) :=
    h.modify (fun _ => rfl) (fun _ => rfl) (fun _ => rfl)
  exact hformat.advance rfl rfl rfl (by decide)

theorem Aside.registry (h : session.Aside middle) :
    middle.loader.registry = session.loader.registry := by
  cases h <;> rfl

/-- However a load carries on, its record goes along. -/
theorem Carries.proceeds {rest? : Option (Work σ H (Except ModuleError LoadOutput))}
    {result : Focus σ H n × Session σ H}
    (hc : Carries host load rest? stack state exports session result)
    (h : InFlight session.loader.registry (load.claim state exports :: (stack.claims ++ others))) :
    Proceeds (load.claim state exports) stack others result := by
  induction hc with
  | fails e _ _ => exact failLoad_proceeds e h
  | awaits _ => exact .goesOn (load.claim .resolving) rfl rfl rfl h
  | receives format _ ih => exact (ih (inFlight_receives format h)).of_eq rfl rfl
  | compiles source options fingerprint => exact .goesOn (load.claim .compiling) rfl rfl rfl h
  | begins bytecode fingerprint sourceLength => exact startBody_proceeds host _ _ _ rfl h
  | @adopts session handle _ =>
      obtain ⟨begun, -, hrunning⟩ :=
        (h.setExports handle rfl).beginExecution session.exports rfl
      obtain ⟨hrest, hsettled⟩ := hrunning.complete
      exact .ends rfl hsettled hrest
  | @completes session handle dependencies =>
      have hnoted : InFlight (session.loader.registry.setDependencies load.id dependencies)
          (load.claim .executing (some handle) :: (stack.claims ++ others)) :=
        h.modify (fun _ => rfl) (fun _ => rfl) (fun _ => rfl)
      obtain ⟨hrest, hsettled⟩ := hnoted.complete
      exact .ends rfl hsettled hrest
  | aside ha _ ih => exact ih (ha.registry ▸ h)

/-- Whatever value the frame of a load gets, the load carries on with what the frame claims.  It
claims exports from the start of the body on. -/
theorem resume_carries (host : Host σ H) {frame : Frame σ H k .module} (value : Value σ H k)
    (stack : Stack σ H .module n) (session : Session σ H) (hf : frame.load? = some load) :
    ∃ state exports, frame.claims = [load.claim state exports] ∧
      (exports = none → state.canAdvance .executing = true) ∧
        Carries host load value.rest? stack state exports session
          (resume host frame value stack session) := by
  cases frame with
  | fetching load' mode =>
      cases hf
      exact ⟨.resolving, none, rfl, fun _ => rfl, receiveReply_carries mode value⟩
  | awaiting load' =>
      cases hf
      exact ⟨.resolving, none, rfl, fun _ => rfl, receiveResult_carries value⟩
  | compiling load' source fingerprint =>
      cases hf
      exact ⟨.compiling, none, rfl, fun _ => rfl, receiveBytecode_carries source fingerprint value⟩
  | executing load' handle =>
      cases hf
      exact ⟨.executing, some handle, rfl, nofun, receiveExecution_carries handle value.1 value.2⟩
  | _ => cases hf

/-! ## What the registry decides -/

/-- Serving a module changes at most the order. -/
theorem Considers.inFlight {key : String} {answer : Except ModuleError (Option Handle)}
    (hc : Considers key session (answer, middle)) (h : InFlight session.loader.registry claims) :
    InFlight middle.loader.registry claims := by
  cases hc with
  | served _ hr hs _ _ =>
      have hcounted : InFlight session.loader.registry.countHit claims := h.of_eq rfl rfl rfl
      exact hcounted.touch hr (by rw [hs]; rfl)
  | _ => exact h

/-- A module that has to be loaded is not being loaded: one whose body runs has exports to
be served. -/
theorem Considers.terminal {key : String} (hc : Considers key session (.ok none, middle))
    (h : InFlight session.loader.registry claims) (record : ModuleRecord)
    (hf : session.loader.registry.find? key = some record) : record.state.isTerminal = true := by
  obtain ⟨id, hl, hr⟩ := Option.bind_eq_some_iff.mp hf
  cases hc with
  | running hl' hr' hs he =>
      cases hl.symm.trans hl'
      cases hr.symm.trans hr'
      have hexports := h.sound.exports hr hs
      rw [he] at hexports
      cases hexports
  | free hfree => rcases hfree id record hl hr with hs | ⟨hs, -⟩ <;> rw [hs] <;> rfl

/-- A load that begins claims the record made for it. -/
theorem inFlight_beginLoad {key : String} (format : Option ModuleFormat) (base : Path)
    (h : InFlight session.loader.registry claims)
    (ht : ∀ record, session.loader.registry.find? key = some record →
      record.state.isTerminal = true) :
    InFlight (session.beginLoad key format base).2.loader.registry
      ((session.beginLoad key format base).1.claim .resolving :: claims) := by
  have hcounted : InFlight session.loader.registry.countMiss claims := h.of_eq rfl rfl rfl
  have hmade := hcounted.insert (format.getD .script) ht
  exact hmade.advance rfl rfl rfl (by decide)

/-- What a specifier resolved to is refused, served, or loaded with a record of its own. -/
theorem Admits.inFlight {order : LoadOrder} {answer : Except ModuleError Resolution}
    {result : Focus σ H n × Session σ H} (he : Admits host order stack session answer result)
    (h : InFlight session.loader.registry (stack.claims ++ others)) :
    InFlight result.2.loader.registry (result.1.claims ++ others) ∧
      ∀ claim ∈ stack.claims, claim ∈ result.1.claims := by
  cases he with
  | unresolved => exact ⟨h, fun _ hclaim => hclaim⟩
  | refused _ => exact ⟨h, fun _ hclaim => hclaim⟩
  | served hserved => exact ⟨(considers_of_eq hserved).inFlight h, fun _ hclaim => hclaim⟩
  | @begins resolution hserved =>
      have hbegun := inFlight_beginLoad resolution.format order.base h
        ((considers_of_eq hserved).terminal h)
      exact ⟨hbegun, fun _ hclaim => List.mem_cons_of_mem _ hclaim⟩

/-! ## Reloading -/

theorem inFlight_forget (key : String) (h : InFlight session.loader.registry claims)
    (ht : ∀ record, session.loader.registry.find? key = some record →
      record.state.isTerminal = true) :
    InFlight (session.forget key).2.loader.registry claims := by
  obtain ⟨files, cache, hforgotten⟩ := session.forget_eq key
  rw [hforgotten]
  exact h.invalidate ht

/-- A reload drops a module only if it is not being loaded. -/
theorem Reloads.inFlight {reload : Reload} {answer : Except ModuleError Resolution}
    {stack : Stack σ H .reload n} {result : Focus σ H n × Session σ H}
    (hr : Reloads host reload stack session answer result)
    (h : InFlight session.loader.registry (stack.claims ++ others)) :
    InFlight result.2.loader.registry (result.1.claims ++ others) ∧
      result.1.claims = stack.claims := by
  cases hr with
  | ends resolved wasCached outcome => exact ⟨h, rfl⟩
  | begins wasCached ht =>
      exact inFlight_startLoad host .immediate _ reload.base _ (inFlight_forget _ h ht)

theorem inFlight_countOutcome (result : Except ModuleError LoadedModule)
    (h : InFlight session.loader.registry claims) :
    InFlight (session.countOutcome result).loader.registry claims := by
  cases result with
  | ok loaded => exact h.of_eq rfl rfl rfl
  | error e => exact h.of_eq rfl rfl rfl

/-! ## Steps -/

/-- The load of a claim goes on with the same record. -/
def GoesOn (claim : Claim) (claims : List Claim) : Prop :=
  ∃ moved ∈ claims, moved.id = claim.id ∧ moved.key = claim.key

/-- What one step leaves: a registry that honors the claims there are, among them all
there were, save that one of the `leading` ones may be settled. -/
structure Leaves (leading before others : List Claim) (after : List Claim)
    (registry : Registry) : Prop where
  inFlight : InFlight registry (after ++ others)
  kept : ∀ claim ∈ before, GoesOn claim after ∨ (claim ∈ leading ∧ registry.Settled claim)

/-- A claim that is still there goes on. -/
theorem goesOn_of_mem (hc : claim ∈ claims) : GoesOn claim claims :=
  ⟨claim, hc, rfl, rfl⟩

theorem Leaves.of_proceeds {result : Focus σ H n × Session σ H}
    (hp : Proceeds claim stack others result) :
    Leaves [claim] (claim :: stack.claims) others result.1.claims result.2.loader.registry := by
  cases hp with
  | goesOn moved hid hkey hclaims h =>
      rw [hclaims]
      refine ⟨h, fun other hother => Or.inl ?_⟩
      rcases List.mem_cons.mp hother with rfl | hrest
      · exact ⟨moved, List.mem_cons_self, hid, hkey⟩
      · exact goesOn_of_mem (List.mem_cons_of_mem _ hrest)
  | ends hclaims hsettled h =>
      rw [hclaims]
      refine ⟨h, fun other hother => ?_⟩
      rcases List.mem_cons.mp hother with rfl | hrest
      · exact Or.inr ⟨List.mem_cons_self, hsettled⟩
      · exact Or.inl (goesOn_of_mem hrest)

/-- A step that leaves all claims as they are. -/
theorem Leaves.of_eq {leading before after : List Claim} {registry : Registry}
    (h : InFlight registry (after ++ others)) (heq : after = before) :
    Leaves leading before others after registry := by
  refine ⟨h, fun claim hclaim => Or.inl (goesOn_of_mem ?_)⟩
  rw [heq]
  exact hclaim

/-- Handing a value to a frame moves the load of this frame only. -/
theorem leaves_resume (host : Host σ H) (frame : Frame σ H k m) (value : Value σ H k)
    (stack : Stack σ H m n)
    (h : InFlight session.loader.registry (frame.claims ++ (stack.claims ++ others))) :
    Leaves frame.claims (frame.claims ++ stack.claims) others
      (resume host frame value stack session).1.claims
      (resume host frame value stack session).2.loader.registry := by
  cases frame using Frame.cases_load with
  | asking next => exact .of_eq h rfl
  | counting => exact .of_eq (inFlight_countOutcome value h) rfl
  | resolving order =>
      obtain ⟨hinFlight, hkept⟩ := (admits host order value stack session).inFlight h
      exact ⟨hinFlight, fun claim hclaim => Or.inl (goesOn_of_mem (hkept claim hclaim))⟩
  | loading frame load hf =>
      obtain ⟨state, exports, hclaims, -, hcarries⟩ := resume_carries host value stack session hf
      rw [hclaims] at h ⊢
      exact .of_proceeds (hcarries.proceeds h)
  | reloading reload =>
      obtain ⟨hinFlight, hclaims⟩ := (reloads host reload value stack session).inFlight h
      exact .of_eq hinFlight hclaims
  | renewing reload key wasCached => exact .of_eq h rfl

/-- A step of a task moves the load of its innermost frame only. -/
theorem leaves_step (host : Host σ H) (focus : Focus σ H n)
    (h : InFlight session.loader.registry (focus.claims ++ others)) :
    Leaves focus.leading focus.claims others (session.step host focus).1.claims
      (session.step host focus).2.loader.registry := by
  obtain ⟨kind, work, stack⟩ := focus
  cases work with
  | done value =>
      cases stack with
      | nil => exact .of_eq h rfl
      | cons frame rest =>
          have hassoc : InFlight session.loader.registry
              (frame.claims ++ (rest.claims ++ others)) := by
            rw [← List.append_assoc]
            exact h
          exact leaves_resume host frame value rest hassoc
  | ask request next =>
      cases request with
      | request request =>
          cases request with
          | operation operation => exact .of_eq (inFlight_perform h operation) rfl
          | resolve specifier base => exact .of_eq h rfl
          | require specifier base =>
              exact .of_eq (inFlight_startLoad host .immediate specifier base
                (.cons (.asking next) stack) h).1 rfl
          | reload specifier base => exact .of_eq h rfl
      | resolveDefault specifier context => exact .of_eq h rfl
      | loadDefault url context => exact .of_eq h rfl
      | pause =>
          rcases step_pause host next stack session with heq | heq <;> rw [heq]
          · exact .of_eq h rfl
          · exact .of_eq h rfl

end Session

end ScriptModules
