import ScriptModules.Proofs.Loader.History

/-!
# What loads give

A load gives its module to whoever asked for it.  From the step that decides on the exports
to the end of the call nothing happens but counting.  So when a call that loads a module
succeeds, the registry holds the module with the exports that were given.

The invariant is about the value that is handed on (`Focus.Given`): only loads give
modules, and what is handed on is held by the registry.  It may be asked for some modules
only, since other tasks can cost the rest their records meanwhile.
-/

namespace ScriptModules

open Registry (Claim InFlight)

variable {σ H : Type} {k m n : Kind} {keys : String → Prop}

/-- No program is waited for to give a module. -/
def Frame.IsPlain : Frame σ H k m → Prop
  | .asking _ => m ≠ .module
  | _ => True

/-- Nor in a stack. -/
def Stack.IsPlain : {k n : Kind} → Stack σ H k n → Prop
  | _, _, .nil => True
  | _, _, .cons frame rest => frame.IsPlain ∧ rest.IsPlain

/-- If what is handed on is a module with one of these keys, the registry holds it. -/
inductive Focus.Given (keys : String → Prop) (registry : Registry) : Focus σ H n → Prop where
  | other {kind : Kind} {work : Work σ H (Value σ H kind)} {stack : Stack σ H kind n}
      (hk : kind ≠ .module) (hs : stack.IsPlain) : Given keys registry ⟨kind, work, stack⟩
  | result {result : Except ModuleError LoadedModule} {stack : Stack σ H .module n}
      (hs : stack.IsPlain)
      (h : ∀ key handle, keys key → result = .ok (key, handle) → registry.Holds key handle) :
      Given keys registry ⟨.module, .done result, stack⟩

/-- So it is with whatever a step comes to. -/
inductive Progress.Given (keys : String → Prop) (registry : Registry) :
    Progress σ H n → Prop where
  | running {focus : Focus σ H n} (h : focus.Given keys registry) :
      Given keys registry (.running focus)
  | suspended {focus : Focus σ H n} (h : focus.Given keys registry) :
      Given keys registry (.suspended focus)
  | finished {value : Value σ H n} (h : Focus.Given keys registry ⟨n, .done value, .nil⟩) :
      Given keys registry (.finished value)

/-- A module that stays there can be handed on later. -/
theorem Focus.Given.mono {focus : Focus σ H n} {registry later : Registry}
    (h : focus.Given keys registry)
    (hstill : ∀ key handle, keys key → registry.Holds key handle → later.Holds key handle) :
    focus.Given keys later := by
  cases h with
  | other hk hs => exact .other hk hs
  | result hs h =>
      exact .result hs fun key handle hkey heq => hstill key handle hkey (h key handle hkey heq)

/-- The module that is handed on at the next step. -/
def Focus.module? (focus : Focus σ H n) : Option LoadedModule :=
  match focus with
  | ⟨.module, .done (.ok loaded), _⟩ => some loaded
  | _ => none

theorem Focus.Given.holds {focus : Focus σ H n} {registry : Registry} {key : String}
    {handle : Handle} (h : focus.Given keys registry) (hkey : keys key)
    (hm : focus.module? = some (key, handle)) : registry.Holds key handle := by
  cases h with
  | @other kind work stack hk hs =>
      cases kind with
      | module => exact absurd rfl hk
      | _ => cases hm
  | @result result stack hs h =>
      cases result with
      | error e => cases hm
      | ok loaded =>
          cases hm
          exact h key handle hkey rfl

/-- When no module with one of these keys is handed on, nothing need be held. -/
theorem Focus.Given.of_none {focus : Focus σ H n} {registry : Registry}
    (h : focus.Given (fun _ => False) registry)
    (hnone : ∀ key handle, keys key → focus.module? ≠ some (key, handle)) :
    focus.Given keys registry := by
  cases h with
  | other hk hs => exact .other hk hs
  | result hs _ =>
      refine .result hs fun key handle hkey heq => absurd ?_ (hnone key handle hkey)
      rw [heq]
      rfl

namespace Session

variable {session : Session σ H} {claims : List Claim}

theorem isPlain_of_load? {frame : Frame σ H k m} {load : Load} (h : frame.load? = some load) :
    frame.IsPlain := by
  cases frame with
  | asking next => cases h
  | _ => trivial

/-- What a load that has a record gives, the registry holds. -/
theorem Pursues.given {load : Load} {record : ModuleRecord} {stack : Stack σ H .module n}
    {result : Focus σ H n × Session σ H} (h : Pursues load record stack session result)
    (hr : session.loader.registry.get? load.id = some record) (hk : record.key = load.key)
    (hs : stack.IsPlain) (hsound : result.2.loader.registry.Sound) :
    result.1.Given keys result.2.loader.registry := by
  have hattests : ∀ act, Frame.pursuit? load result.1 = some act →
      Attests session result.2 act := fun _ ha => h.attests hr hk ha
  cases h with
  | waits hkind hf _ _ _ =>
      refine .other ?_ ⟨isPlain_of_load? hf, hs⟩
      rcases hkind with rfl | rfl <;> decide
  | begins _ _ _ _ _ => exact .other (by decide) ⟨trivial, hs⟩
  | succeeds _ _ _ =>
      refine .result hs fun key handle _ heq => ?_
      cases heq
      exact (hattests _ rfl).holds hsound rfl
  | fails _ _ _ => exact .result hs fun key handle _ heq => nomatch heq

/-- So does it with what it serves. -/
theorem Arrives.given {order : LoadOrder} {resolution : Resolution} {stack : Stack σ H .module n}
    {result : Focus σ H n × Session σ H} (h : Arrives order resolution stack session result)
    (hs : stack.IsPlain) (hsound : result.2.loader.registry.Sound) :
    result.1.Given keys result.2.loader.registry := by
  have hattests : ∀ act, Frame.arrival? result.1 = some act →
      Attests session result.2 act := fun _ ha => h.attests ha
  cases h with
  | refused => exact .result hs fun key handle _ heq => nomatch heq
  | served _ =>
      refine .result hs fun key handle _ heq => ?_
      cases heq
      exact (hattests _ rfl).holds hsound rfl
  | begins _ _ => exact .other (by decide) ⟨trivial, hs⟩

theorem given_resume (host : Host σ H) (frame : Frame σ H k m) (value : Value σ H k)
    (stack : Stack σ H m n)
    (h : InFlight session.loader.registry (frame.claims ++ claims))
    (ht : session.loader.registry.Tabled)
    (hsound : (resume host frame value stack session).2.loader.registry.Sound)
    (hg : Focus.Given keys session.loader.registry ⟨k, .done value, .cons frame stack⟩) :
    (resume host frame value stack session).1.Given keys
      (resume host frame value stack session).2.loader.registry := by
  have hplain : frame.IsPlain ∧ stack.IsPlain := by
    cases hg with
    | other _ hs => exact hs
    | result hs _ => exact hs
  cases frame using Frame.cases_load with
  | asking next => exact .other hplain.1 hplain.2
  | counting =>
      cases hg with
      | other hk _ => exact absurd rfl hk
      | result _ hheld =>
          refine .result hplain.2 fun key handle hkey heq => (hheld key handle hkey heq).congr ?_ ?_
          · cases value <;> rfl
          · cases value <;> rfl
  | resolving order =>
      cases value with
      | error e => exact .result hplain.2 fun key handle _ heq => nomatch heq
      | ok resolution =>
          exact (receiveResolution_arrives host order resolution h.sound).given hplain.2 hsound
  | loading frame load hf =>
      obtain ⟨record, hr, hk, -⟩ := record_of_frame hf h
      exact (resume_pursues host value hf h ht hr).given hr hk hplain.2 hsound
  | reloading reload =>
      have hreloads : Reloads host reload stack session value
          (resume host (.reloading reload) value stack session) :=
        reloads host reload value stack session
      generalize resume host (.reloading reload) value stack session = result at hreloads ⊢
      cases hreloads with
      | ends resolved wasCached outcome => exact .other (by decide) hplain.2
      | begins wasCached _ => exact .other (by decide) ⟨trivial, trivial, trivial, hplain.2⟩
  | renewing reload key wasCached => exact .other (by decide) hplain.2

theorem given_step (host : Host σ H) {focus : Focus σ H n}
    (h : InFlight session.loader.registry (focus.claims ++ claims))
    (ht : session.loader.registry.Tabled) (hg : focus.Given keys session.loader.registry) :
    (session.step host focus).1.Given keys (session.step host focus).2.loader.registry := by
  have hsound := (leaves_step host focus h).inFlight.sound
  obtain ⟨kind, work, stack⟩ := focus
  cases work with
  | done value =>
      cases stack with
      | nil => exact .finished hg
      | cons frame rest =>
          exact .running (given_resume host frame value rest (inFlight_frame h) ht hsound hg)
  | ask request next =>
      cases hg with
      | other hk hs =>
          cases request with
          | request request =>
              cases request with
              | operation operation => exact .running (.other hk hs)
              | resolve specifier base => exact .running (.other (by decide) ⟨hk, hs⟩)
              | require specifier base =>
                  exact .running (.other (by decide) ⟨trivial, trivial, hk, hs⟩)
              | reload specifier base => exact .running (.other (by decide) ⟨trivial, hk, hs⟩)
          | resolveDefault specifier context => exact .running (.other hk hs)
          | loadDefault url context => exact .running (.other hk hs)
          | pause =>
              rcases step_pause host next stack session with heq | heq <;> rw [heq]
              · exact .running (.other hk hs)
              · exact .suspended (.other hk hs)

end Session

namespace Traffic

variable {host : Host σ H} {traffic : Traffic σ H} {event : TrafficEvent σ H}

/-! ## Several tasks -/

/-- If what is handed on in some task is a module with one of these keys, the registry holds
it. -/
def IsGiven (keys : String → Prop) (traffic : Traffic σ H) : Prop :=
  ∀ task ∈ traffic.tasks, task.focus.Given keys traffic.session.loader.registry

/-- A task after an event is one from before, or what it has to hand on was decided just
now. -/
theorem Reached.given_or_mem (h : Reached host traffic) (hg : traffic.IsGiven keys)
    {task : Task σ H} (ht : task ∈ (traffic.after host event).tasks) :
    task ∈ traffic.tasks ∨
      task.focus.Given keys (traffic.after host event).session.loader.registry := by
  have hstart : ∀ {n : Kind} {started : Focus σ H n × Session σ H},
      started.1.Given keys started.2.loader.registry →
        task ∈ (traffic.start started).tasks → task ∈ traffic.tasks ∨
          task.focus.Given keys (traffic.start started).session.loader.registry := by
    intro n started hstarted hmem
    rcases List.mem_append.mp hmem with hold | hnew
    · exact Or.inl hold
    · cases List.mem_singleton.mp hnew
      exact Or.inr hstarted
  cases event with
  | imported specifier base =>
      exact hstart (.other (by decide) ⟨trivial, trivial, trivial⟩) ht
  | required specifier base =>
      exact hstart (.other (by decide) ⟨trivial, trivial, trivial⟩) ht
  | resolved specifier base => exact hstart (.other (by decide) trivial) ht
  | reloaded specifier base => exact hstart (.other (by decide) ⟨trivial, trivial⟩) ht
  | operated operation => exact Or.inl ht
  | changed surroundings => exact Or.inl ht
  | advanced index =>
      cases hindex : traffic.tasks[index]? with
      | none =>
          rw [Traffic.after, hindex] at ht
          exact Or.inl ht
      | some stepping =>
          have hgiven := Session.given_step host
            (h.isHonored.inFlight.perm (claims_perm hindex)) h.tabled
            (hg stepping (List.mem_of_getElem? hindex))
          rw [Traffic.after, hindex] at ht ⊢
          simp only at ht ⊢
          generalize traffic.session.step host stepping.focus = result at ht hgiven
          obtain ⟨progress, session⟩ := result
          cases hgiven with
          | finished _ => exact Or.inl (List.mem_of_mem_eraseIdx ht)
          | running hnext | suspended hnext =>
              rcases List.mem_or_eq_of_mem_set ht with hold | rfl
              · exact Or.inl hold
              · exact Or.inr hnext
  | dropped index =>
      unfold Traffic.after at ht
      simp only at ht
      split at ht
      · exact Or.inl (List.mem_of_mem_eraseIdx ht)
      · exact Or.inl ht

/-- What is given stays so as long as modules with these keys stay there. -/
theorem Reached.isGiven_after (h : Reached host traffic) (hg : traffic.IsGiven keys)
    (hstill : ∀ key handle, keys key → traffic.session.loader.registry.Holds key handle →
      (traffic.after host event).session.loader.registry.Holds key handle) :
    (traffic.after host event).IsGiven keys := by
  intro task htask
  rcases h.given_or_mem hg htask with hold | hnew
  · exact (hg task hold).mono hstill
  · exact hnew

/-- In every task only loads give modules. -/
theorem Reached.isGiven_false (h : Reached host traffic) : traffic.IsGiven fun _ => False := by
  induction h with
  | opened surroundings hopen => exact fun task htask => nomatch htask
  | step event h ih => exact h.isGiven_after ih fun _ _ hnever _ => hnever.elim

/-- So while no module with one of these keys is handed on, there is none the registry would
have to hold. -/
theorem Reached.isGiven_of_none (h : Reached host traffic)
    (hnone : ∀ task ∈ traffic.tasks, ∀ key handle, keys key →
      task.focus.module? ≠ some (key, handle)) : traffic.IsGiven keys :=
  fun task htask => (h.isGiven_false task htask).of_none (hnone task htask)

/-- The module that is handed on at an event. -/
def handed? (traffic : Traffic σ H) : TrafficEvent σ H → Option LoadedModule
  | .advanced index =>
    match traffic.tasks[index]? with
    | some task => task.focus.module?
    | none => none
  | _ => none

theorem IsGiven.holds {key : String} {handle : Handle} (h : traffic.IsGiven keys)
    (hkey : keys key) (hm : traffic.handed? event = some (key, handle)) :
    traffic.session.loader.registry.Holds key handle := by
  cases event with
  | advanced index =>
      unfold handed? at hm
      simp only at hm
      split at hm
      · rename_i task htask
        exact (h task (List.mem_of_getElem? htask)).holds hkey hm
      · cases hm
  | _ => cases hm

/-! ## Requests of the embedder -/

/-- What is handed on to the end of a task that is run to its end is held by the registry. -/
theorem Reached.given_finish (steps : Nat) {session : Session σ H} {tasks : List (Task σ H)}
    {abandoned : List Claim} {focus : Focus σ H n} {value : Value σ H n}
    (h : Reached host { session, tasks := tasks ++ [⟨n, focus⟩], abandoned })
    (hg : focus.Given keys session.loader.registry)
    (hv : (session.finish host steps focus).1 = some value) :
    Focus.Given keys (session.finish host steps focus).2.loader.registry
      (⟨n, .done value, .nil⟩ : Focus σ H n) := by
  induction steps generalizing session focus with
  | zero => cases hv
  | succ steps ih =>
      have hlast : (tasks ++ [(⟨n, focus⟩ : Task σ H)])[tasks.length]? = some ⟨n, focus⟩ :=
        List.getElem?_concat_length
      have hgiven := Session.given_step host (h.isHonored.inFlight.perm (claims_perm hlast))
        h.tabled hg
      have hstep := h.step (.advanced tasks.length)
      rw [after_advanced_last] at hstep
      unfold Session.finish at hv ⊢
      cases hresult : session.step host focus with
      | mk progress next =>
          rw [hresult] at hstep hgiven hv
          cases hgiven with
          | running hnext => exact ih hstep hnext hv
          | suspended hnext => exact ih hstep hnext hv
          | finished hfinished =>
              cases hv
              exact hfinished

/-- When a module is required with success, the registry holds it with the exports given. -/
theorem Reached.holds_of_answer (steps : Nat) {session : Session σ H} {tasks : List (Task σ H)}
    {abandoned : List Claim} (h : Reached host { session, tasks, abandoned }) {specifier : String}
    {base : Path} {key : String} {handle : Handle}
    (hv : (session.answer host steps (.require specifier base)).1 = some (.ok (key, handle))) :
    (session.answer host steps (.require specifier base)).2.loader.registry.Holds key handle := by
  have hgiven : Focus.Given (fun _ => True) _ _ :=
    (h.step (.required specifier base)).given_finish steps
      (.other (by decide) ⟨trivial, trivial, trivial⟩) hv
  cases hgiven with
  | other hk _ => exact absurd rfl hk
  | result _ hheld => exact hheld key handle trivial rfl

end Traffic

end ScriptModules
