import ScriptModules.Proofs.Loader.Plain
import ScriptModules.Proofs.Loader.Results

/-!
# How a record becomes complete

A record becomes complete when the body of its module ends well, with the exports the body filled
and the dependencies it gives, or when its contents are those of a built-in module, which has no
body (`Session.completing_step`).
-/

namespace ScriptModules

open Registry (Claim InFlight Exposes)

variable {σ H : Type} {k m n : Kind}

namespace Registry

variable {registry after : Registry} {id : ModuleId} {record : ModuleRecord}

/-- A record becomes complete. -/
structure Completes (registry after : Registry) (id : ModuleId) (record : ModuleRecord) :
    Prop where
  get : after.get? id = some record
  state : record.state = .complete
  new : ∀ before, registry.get? id = some before → before.state ≠ .complete

theorem Completes.exposes (h : Completes registry after id record) :
    Exposes registry after id record :=
  ⟨h.get, by rw [h.state]; rfl, fun hsame => h.new record hsame h.state⟩

end Registry

open Registry (Completes)

namespace Session

variable {host : Host σ H} {session after : Session σ H} {load : Load}
  {record changed found : ModuleRecord} {id : ModuleId} {stack : Stack σ H .module n}
  {result : Focus σ H n × Session σ H} {claims : List Claim}

/-! ## Which record it is -/

/-- Only a load that ends well completes a record, its own. -/
theorem Pursues.completes (h : Pursues load record stack session result)
    (hk : record.key = load.key)
    (hc : Completes session.loader.registry result.2.loader.registry id found) :
    id = load.id ∧ ∃ handle, result.1 = ⟨.module, .done (.ok (load.key, handle)), stack⟩ ∧
      found.key = load.key ∧ found.exports = some handle := by
  cases h with
  | waits _ _ h hs _ =>
      cases h.exposed hc.exposes
      rw [hc.state] at hs
      cases hs
  | begins h _ hs _ _ =>
      cases h.exposed hc.exposes
      cases hs.symm.trans hc.state
  | @succeeds handle _ _ h _ hexports =>
      cases h.exposed hc.exposes
      refine ⟨?_, handle, rfl, h.becomes.key.trans hk, hexports⟩
      by_cases hid : id = load.id
      · exact hid
      · exact absurd (h.moves.rest hid hc.get) hc.exposes.new
  | fails h hs _ =>
      cases h.exposed hc.exposes
      cases hs.symm.trans hc.state

/-! ## Built-in modules -/

/-- If a load ends well with a result, its record is that of a built-in module. -/
def EndsBuiltin (load : Load) (result : Focus σ H n × Session σ H) : Prop :=
  ∀ loaded found, result.1.module? = some loaded →
    result.2.loader.registry.get? load.id = some found → found.format = .virtual

theorem EndsBuiltin.of_none (h : result.1.module? = none) : EndsBuiltin load result := by
  intro loaded found hm
  rw [h] at hm
  cases hm

/-- A load that ends well before a body has begun is that of a built-in module. -/
theorem Carries.endsBuiltin {rest? : Option (Work σ H (Except ModuleError LoadOutput))}
    {state : ModuleState} {exports : Option Handle}
    (hc : Carries host load rest? stack state exports session result)
    (hn : state.canAdvance .executing = true)
    (hr : session.loader.registry.get? load.id = some record) (hs : record.state = state)
    (he : record.exports = none) : EndsBuiltin load result := by
  induction hc generalizing record with
  | receives format _ ih => exact ih rfl (receives_notes format hr hs).sets.get_self rfl he
  | adopts handle hv =>
      intro loaded found _ hf
      have hsettles := adopt_settles handle hr (hs ▸ hn) he
      cases hf.symm.trans hsettles.moves.own
      exact hv record hr
  | completes handle dependencies => cases hn
  | aside ha _ ih => exact ih hn (ha.registry ▸ hr) hs he
  | _ => exact .of_none rfl

/-! ## Steps -/

/-- How a record becomes complete at the next step of a focus. -/
inductive Completing (id : ModuleId) (record : ModuleRecord) : Focus σ H n → Prop where
  /-- Its module is a built-in one. -/
  | builtin {focus : Focus σ H n} (h : record.format = .virtual) : Completing id record focus
  /-- The body of its module has ended well. -/
  | body {load : Load} {handle : Handle} {rest : Stack σ H .module n} (hid : load.id = id)
      (hk : load.key = record.key) (he : record.exports = some handle) :
      Completing id record ⟨.execution, .done (.ok (), record.dependencies),
        .cons (.executing load handle) rest⟩

theorem completing_resume (host : Host σ H) {frame : Frame σ H k .module} (value : Value σ H k)
    (hf : frame.load? = some load)
    (h : InFlight session.loader.registry (frame.claims ++ claims))
    (ht : session.loader.registry.Tabled)
    (hc : Completes session.loader.registry
      (resume host frame value stack session).2.loader.registry id found) :
    Completing id found (⟨k, .done value, .cons frame stack⟩ : Focus σ H n) := by
  obtain ⟨record, hr, hk, hrunning⟩ := record_of_frame hf h
  have hpursues : Pursues load record stack session (resume host frame value stack session) :=
    resume_pursues host value hf h ht hr
  obtain ⟨rfl, handle, hresult, hkey, hexports⟩ := hpursues.completes hk hc
  have hmodule : (resume host frame value stack session).1.module? = some (load.key, handle) := by
    rw [hresult]
    rfl
  obtain ⟨state, exports, hclaims, hbefore, hcarries⟩ := resume_carries host value stack session hf
  have hbuiltin : exports = none →
      Completing load.id found (⟨k, .done value, .cons frame stack⟩ : Focus σ H n) := by
    intro hnone
    have hn := hbefore hnone
    rw [hclaims] at h
    obtain ⟨other, hother, -, hstate, -⟩ := h.carried _ List.mem_cons_self
    cases hr.symm.trans hother
    have he := (ht hr).before (hstate ▸ hn)
    exact .builtin (hcarries.endsBuiltin hn hr hstate he _ _ hmodule hc.get)
  cases frame with
  | fetching load' mode =>
      cases hf
      cases hclaims
      exact hbuiltin rfl
  | awaiting load' =>
      cases hf
      cases hclaims
      exact hbuiltin rfl
  | compiling load' source fingerprint =>
      cases hf
      cases hclaims
      exact hbuiltin rfl
  | executing load' filled =>
      cases hf
      obtain ⟨answer, dependencies⟩ := value
      cases answer with
      | error failure => cases hmodule
      | ok _ =>
          cases hmodule
          have hnoted := Registry.moves_modify hr fun record => { record with dependencies }
          have hcomplete := Registry.moves_complete hnoted.own hrunning
          have hlisted : found.dependencies = dependencies := by
            cases hc.get.symm.trans hcomplete.own
            rfl
          rw [← hlisted]
          exact .body rfl hkey.symm hexports
  | _ => cases hf

/-- A step completes a record only so. -/
theorem completing_step (host : Host σ H) {focus : Focus σ H n}
    (h : InFlight session.loader.registry (focus.claims ++ claims))
    (ht : session.loader.registry.Tabled)
    (hc : Completes session.loader.registry (session.step host focus).2.loader.registry id found) :
    Completing id found focus := by
  obtain ⟨act, load, handle, hact, hfilled, -⟩ := exposed_step host h ht hc.exposes
  obtain ⟨kind, work, stack⟩ := focus
  cases work with
  | ask request next => cases hact
  | done value =>
      cases stack with
      | nil => cases hact
      | cons frame rest =>
          cases frame using Frame.cases_load with
          | asking next => cases hact
          | counting => cases hact
          | resolving order => cases (not_filled_of_arrival hact).symm.trans hfilled
          | loading frame own hf => exact completing_resume host value hf (inFlight_frame h) ht hc
          | reloading reload => cases hact
          | renewing reload key wasCached => cases hact

end Session

namespace Traffic

variable {host : Host σ H} {traffic : Traffic σ H} {event : TrafficEvent σ H} {id : ModuleId}
  {record : ModuleRecord}

/-- A record becomes complete when a task does a step. -/
theorem Reached.completing (h : Reached host traffic)
    (hc : Completes traffic.session.loader.registry
      (traffic.after host event).session.loader.registry id record) :
    ∃ index task, event = .advanced index ∧ traffic.tasks[index]? = some task ∧
      Session.Completing id record task.focus := by
  have hnever : ∀ {registry : Registry}, registry.records =
      traffic.session.loader.registry.records →
        ¬ Completes traffic.session.loader.registry registry id record :=
    fun heq hc => Registry.not_exposes_of_eq heq hc.exposes
  cases event with
  | advanced index =>
      cases hindex : traffic.tasks[index]? with
      | none =>
          simp only [after, hindex] at hc
          exact absurd hc (hnever rfl)
      | some task =>
          simp only [after, hindex, session_proceed] at hc
          have hhonored := h.isHonored.inFlight.perm (claims_perm hindex)
          exact ⟨index, task, rfl, hindex, Session.completing_step host hhonored h.tabled hc⟩
  | operated operation =>
      exact absurd hc.exposes (Session.drops_perform traffic.session operation).not_exposes
  | dropped index =>
      simp only [after] at hc
      split at hc <;> exact absurd hc (hnever rfl)
  | _ => exact absurd hc (hnever rfl)

end Traffic

end ScriptModules
