import ScriptModules.Proofs.Loader.History

/-!
# What gives a record its exports

A record shows its exports while the body of its module runs and when it is complete.  It
comes to do so by an act of its own load, which begins the body or ends well, and in no
other way (`Session.exposed_step`).  So what is true of the exports that acts give is true
of the records.
-/

namespace ScriptModules

open Registry (Claim InFlight Drops)

variable {σ H : Type} {k m n : Kind}

/-- The load an act gives exports to, and these. -/
def LoadDeed.filled? : LoadDeed → Option (Load × Handle)
  | .ran load exports => some (load, exports)
  | .ended load (.ok (_, exports)) => some (load, exports)
  | _ => none

/-- Whether the exports of a record may be served. -/
def ModuleState.isExposed : ModuleState → Bool
  | .executing | .complete => true
  | _ => false

/-- What may begin to execute shows nothing yet. -/
theorem ModuleState.isExposed_of_canAdvance {state : ModuleState}
    (h : state.canAdvance .executing = true) : state.isExposed = false := by
  revert h
  cases state <;> decide

namespace Registry

variable {registry after : Registry} {id : ModuleId} {record : ModuleRecord}

/-- The exports of a record may be served that was not there, or not so, before. -/
structure Exposes (registry after : Registry) (id : ModuleId) (record : ModuleRecord) :
    Prop where
  get : after.get? id = some record
  state : record.state.isExposed = true
  new : registry.get? id ≠ some record

theorem Drops.not_exposes (h : Drops registry after) : ¬ Exposes registry after id record :=
  fun hexposes => hexposes.new (h.rest hexposes.get)

theorem not_exposes_of_eq (h : after.records = registry.records) :
    ¬ Exposes registry after id record :=
  (Drops.of_eq h).not_exposes

end Registry

open Registry (Exposes)

namespace Session

variable {host : Host σ H} {session after : Session σ H} {load : Load}
  {record changed found : ModuleRecord} {id : ModuleId} {stack : Stack σ H .module n}
  {result : Focus σ H n × Session σ H} {claims : List Claim}

/-- Only the record that moves on can begin to show its exports. -/
theorem Notes.exposed (h : Notes load record changed session after)
    (he : Exposes session.loader.registry after.loader.registry id found) : found = changed := by
  have hget := he.get
  rw [h.sets.get] at hget
  split at hget
  · exact (Option.some.inj hget).symm
  · exact absurd hget he.new

theorem Settles.exposed (h : Settles load record changed session after)
    (he : Exposes session.loader.registry after.loader.registry id found) : found = changed := by
  by_cases hid : id = load.id
  · have hown := h.moves.own
    rw [← hid, he.get] at hown
    exact Option.some.inj hown
  · exact absurd (h.moves.rest hid he.get) he.new

/-- What a load lets be served is its own record, with the exports it gives. -/
theorem Pursues.exposed (h : Pursues load record stack session result)
    (hk : record.key = load.key)
    (he : Exposes session.loader.registry result.2.loader.registry id found) :
    ∃ act handle, Frame.pursuit? load result.1 = some act ∧ act.filled? = some (load, handle) ∧
      found.key = load.key ∧ found.exports = some handle := by
  cases h with
  | waits _ _ h hs _ =>
      cases h.exposed he
      cases he.state.symm.trans (ModuleState.isExposed_of_canAdvance hs)
  | @begins _ _ _ handle h _ _ hexports _ =>
      cases h.exposed he
      exact ⟨_, handle, rfl, rfl, h.becomes.key.trans hk, hexports⟩
  | @succeeds handle _ _ h _ hexports =>
      cases h.exposed he
      exact ⟨_, handle, rfl, rfl, h.becomes.key.trans hk, hexports⟩
  | fails h hs _ =>
      cases h.exposed he
      have hshown := he.state
      rw [hs] at hshown
      cases hshown

/-- A load that gets a record lets nothing be served: its own is the one that is new. -/
theorem Makes.not_exposes {key : String} {format : Option ModuleFormat}
    (h : Makes key format session after) :
    ¬ Exposes session.loader.registry after.loader.registry id found := by
  intro he
  have hgrown := Registry.index_lt h.get
  cases h.turn with
  | drops hd => exact hd.not_exposes he
  | moves _ hm _ _ =>
      rw [hm.size] at hgrown
      exact absurd hgrown (Nat.lt_irrefl _)
  | makes _ rest _ =>
      rcases rest he.get with ⟨rfl, -⟩ | hbefore
      · have hget := he.get
        rw [h.get] at hget
        cases hget
        cases he.state
      · exact he.new hbefore

theorem Arrives.not_exposes {order : LoadOrder} {resolution : Resolution}
    (h : Arrives order resolution stack session result) :
    ¬ Exposes session.loader.registry result.2.loader.registry id found := by
  cases h with
  | refused => exact Registry.not_exposes_of_eq rfl
  | served h =>
      cases h with
      | served _ _ _ _ hrecords _ _ => exact Registry.not_exposes_of_eq hrecords
  | begins _ h => exact h.not_exposes

theorem Reloads.drops {reload : Reload} {answer : Except ModuleError Resolution}
    {stack : Stack σ H .reload n} {result : Focus σ H n × Session σ H}
    (h : Reloads host reload stack session answer result) :
    Drops session.loader.registry result.2.loader.registry := by
  cases h with
  | ends resolved wasCached outcome => exact .refl _
  | @begins resolution wasCached _ =>
      have hdropped := Registry.drops_invalidate session.loader.registry resolution.url
      obtain ⟨files, cache, hforgotten⟩ := session.forget_eq resolution.url
      refine hdropped.trans (.of_eq ?_)
      rw [hforgotten]
      rfl

theorem drops_perform (session : Session σ H) (operation : Operation σ H) :
    Drops session.loader.registry (session.perform operation).2.loader.registry := by
  rcases registry_perform session operation with heq | rfl
  · rw [heq]
    exact .refl _
  · exact Registry.drops_clear _

/-- A step lets a record be served only by an act of its load, which gives its exports. -/
theorem exposed_step (host : Host σ H) {focus : Focus σ H n}
    (h : InFlight session.loader.registry (focus.claims ++ claims))
    (ht : session.loader.registry.Tabled)
    (he : Exposes session.loader.registry (session.step host focus).2.loader.registry id found) :
    ∃ act load handle, session.act? host focus = some act ∧
      act.filled? = some (load, handle) ∧ found.key = load.key ∧ found.exports = some handle := by
  obtain ⟨kind, work, stack⟩ := focus
  cases work with
  | done value =>
      cases stack with
      | nil => exact absurd he (Registry.not_exposes_of_eq rfl)
      | cons frame rest =>
          have hframe := inFlight_frame h
          cases frame using Frame.cases_load with
          | asking next => exact absurd he (Registry.not_exposes_of_eq rfl)
          | counting => cases value <;> exact absurd he (Registry.not_exposes_of_eq rfl)
          | resolving order =>
              cases value with
              | error e => exact absurd he (Registry.not_exposes_of_eq rfl)
              | ok resolution =>
                  have harrives : Arrives order resolution rest session
                      (receiveResolution host order (.ok resolution) rest session) :=
                    receiveResolution_arrives host order resolution hframe.sound
                  exact absurd he harrives.not_exposes
          | loading frame load hf =>
              obtain ⟨record, hr, hk, -⟩ := record_of_frame hf hframe
              have hpursues : Pursues load record rest session
                  (resume host frame value rest session) :=
                resume_pursues host value hf hframe ht hr
              obtain ⟨act, handle, hact, hrest⟩ := hpursues.exposed hk he
              exact ⟨act, load, handle, (Frame.act?_of_load? hf _).trans hact, hrest⟩
          | reloading reload =>
              exact absurd he (reloads host reload value rest session).drops.not_exposes
          | renewing reload key wasCached =>
              exact absurd he (Registry.not_exposes_of_eq rfl)
  | ask request next =>
      refine absurd he (Drops.not_exposes ?_)
      cases request with
      | request request =>
          cases request with
          | operation operation => exact drops_perform session operation
          | _ => exact .of_eq rfl
      | pause =>
          rcases step_pause host next stack session with heq | heq <;> rw [heq] <;>
            exact .of_eq rfl
      | _ => exact .of_eq rfl

end Session

end ScriptModules
