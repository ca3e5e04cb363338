import ScriptModules.Proofs.Loader.Pursuit
import ScriptModules.Proofs.Loader.SingleFlight

/-!
# What loads do in the course of time

A step of a task may mark a point in the life of a load: the load gets a record, the body
of the module begins, the load ends, or it is served without a record of its own
(`LoadDeed`).  What an act tells of the registry before and after it is said here
(`Session.Attests`), and what any run of events leaves of an earlier registry
(`Traffic.Reached.precedes`).
-/

namespace ScriptModules

open Registry (Claim InFlight Turn Precedes)

variable {σ H : Type} {k m n : Kind}

/-! ## Acts -/

/-- What a load does at a step. -/
inductive LoadDeed where
  /-- It gets a record. -/
  | began (load : Load)
  /-- The body of its module begins and fills a table of exports. -/
  | ran (load : Load) (exports : Handle)
  /-- It ends, after it got a record. -/
  | ended (load : Load) (result : Except ModuleError LoadedModule)
  /-- It is given the exports of a module that is there. -/
  | served (key : String) (exports : Handle)

/-- The module whose exports an act fills or gives. -/
def LoadDeed.module? : LoadDeed → Option LoadedModule
  | .ran load exports => some (load.key, exports)
  | .ended _ (.ok loaded) => some loaded
  | .served key exports => some (key, exports)
  | _ => none

/-- What a load whose specifier is resolved does. -/
def Frame.arrival? (next : Focus σ H n) : Option LoadDeed :=
  match next with
  | ⟨.module, .done (.ok (key, exports)), _⟩ => some (.served key exports)
  | ⟨.reply, _, .cons (.fetching load _) _⟩ => some (.began load)
  | _ => none

/-- What a load that has a record does. -/
def Frame.pursuit? (load : Load) (next : Focus σ H n) : Option LoadDeed :=
  match next with
  | ⟨.execution, _, .cons (.executing _ exports) _⟩ => some (.ran load exports)
  | ⟨.module, .done result, _⟩ => some (.ended load result)
  | _ => none

/-- What the load of a frame does when the frame gets a value. -/
def Frame.act? (frame : Frame σ H k m) (next : Focus σ H n) : Option LoadDeed :=
  match frame with
  | .resolving _ => Frame.arrival? next
  | .fetching load _ | .awaiting load | .compiling load _ _ | .executing load _ =>
    Frame.pursuit? load next
  | _ => none

theorem Frame.act?_of_load? {frame : Frame σ H k m} {load : Load} (h : frame.load? = some load)
    (next : Focus σ H n) : frame.act? next = Frame.pursuit? load next := by
  cases frame with
  | fetching load' mode =>
      cases h
      rfl
  | awaiting load' =>
      cases h
      rfl
  | compiling load' source fingerprint =>
      cases h
      rfl
  | executing load' exports =>
      cases h
      rfl
  | _ => cases h

/-- What a load does at the next step of a focus. -/
def Session.act? (host : Host σ H) (focus : Focus σ H n) (session : Session σ H) :
    Option LoadDeed :=
  match focus with
  | ⟨_, .done value, .cons frame rest⟩ => frame.act? (session.resume host frame value rest).1
  | _ => none

namespace Session

variable {session : Session σ H} {result : Focus σ H n × Session σ H} {claims : List Claim}

/-- What an act tells of the session before and after it. -/
inductive Attests (session after : Session σ H) : LoadDeed → Prop where
  | began {load : Load} {record : ModuleRecord}
      (hid : load.id = ⟨session.loader.registry.records.size⟩)
      (hl : after.loader.registry.lookup? load.key = some load.id)
      (hr : after.loader.registry.get? load.id = some record) (hs : record.state = .resolving) :
      Attests session after (.began load)
  | ran {load : Load} {handle : Handle} {record changed : ModuleRecord}
      (hr : session.loader.registry.get? load.id = some record) (hk : record.key = load.key)
      (hfirst : record.state.canAdvance .executing = true)
      (hown : after.loader.registry.get? load.id = some changed) (hb : record.Becomes changed)
      (hs : changed.state = .executing) (he : changed.exports = some handle)
      (hnew : (handle, after.exports) = session.exports.make []) :
      Attests session after (.ran load handle)
  | succeeded {load : Load} {handle : Handle} {record changed : ModuleRecord}
      (hr : session.loader.registry.get? load.id = some record) (hk : record.key = load.key)
      (hown : after.loader.registry.get? load.id = some changed) (hb : record.Becomes changed)
      (hs : changed.state = .complete) (he : changed.exports = some handle) :
      Attests session after (.ended load (.ok (load.key, handle)))
  | failed {load : Load} {e : ModuleError} {record changed : ModuleRecord}
      (hr : session.loader.registry.get? load.id = some record) (hk : record.key = load.key)
      (hown : after.loader.registry.get? load.id = some changed) (hb : record.Becomes changed)
      (hs : changed.state = .errored) (he : changed.error = some e.message) :
      Attests session after (.ended load (.error e))
  | served {key : String} {handle : Handle} (h : Decides key session (.ok (some handle), after)) :
      Attests session after (.served key handle)

/-- The exports that are filled or given are those the registry holds. -/
theorem Attests.holds {after : Session σ H} {act : LoadDeed} (h : Attests session after act)
    (hs : after.loader.registry.Sound) {key : String} {handle : Handle}
    (hm : act.module? = some (key, handle)) : after.loader.registry.Holds key handle := by
  cases h with
  | began _ _ _ _ => cases hm
  | failed _ _ _ _ _ _ => cases hm
  | @ran load _ record changed _ hk _ hown hb hstate hexports _ =>
      cases hm
      refine ⟨load.id, changed, ?_, hown, hexports, Or.inl hstate⟩
      rw [← hk, ← hb.key]
      exact hs.lookup_key hown
  | @succeeded load _ record changed _ hk hown hb hstate hexports =>
      cases hm
      refine ⟨load.id, changed, ?_, hown, hexports, Or.inr hstate⟩
      rw [← hk, ← hb.key]
      exact hs.lookup_key hown
  | served h =>
      cases hm
      cases h with
      | @served id record _ _ hl hr hexports hstate hrecords hids _ =>
          have hholds : session.loader.registry.Holds key handle :=
            ⟨id, record, hl, hr, hexports, hstate.imp_right And.left⟩
          exact hholds.congr hrecords hids

theorem Pursues.attests {load : Load} {record : ModuleRecord} {stack : Stack σ H .module n}
    {act : LoadDeed} (h : Pursues load record stack session result)
    (hr : session.loader.registry.get? load.id = some record) (hk : record.key = load.key)
    (ha : Frame.pursuit? load result.1 = some act) : Attests session result.2 act := by
  cases h with
  | waits hkind _ _ _ _ => rcases hkind with rfl | rfl <;> cases ha
  | begins h hfirst hs he hnew =>
      cases ha
      exact .ran hr hk hfirst h.sets.get_self h.becomes hs he hnew
  | succeeds h hs he =>
      cases ha
      exact .succeeded hr hk h.moves.own h.becomes hs he
  | fails h hs he =>
      cases ha
      exact .failed hr hk h.moves.own h.becomes hs he

theorem Arrives.attests {order : LoadOrder} {resolution : Resolution}
    {stack : Stack σ H .module n} {act : LoadDeed}
    (h : Arrives order resolution stack session result)
    (ha : Frame.arrival? result.1 = some act) : Attests session result.2 act := by
  cases h with
  | refused => cases ha
  | served h =>
      cases ha
      exact .served h
  | begins _ h =>
      cases ha
      exact .began rfl h.lookup h.get rfl

/-- What an act of a step tells. -/
theorem attests_step (host : Host σ H) (focus : Focus σ H n)
    (h : InFlight session.loader.registry (focus.claims ++ claims))
    (ht : session.loader.registry.Tabled) {act : LoadDeed}
    (ha : session.act? host focus = some act) :
    Attests session (session.step host focus).2 act := by
  obtain ⟨kind, work, stack⟩ := focus
  cases work with
  | ask request next => cases ha
  | done value =>
      cases stack with
      | nil => cases ha
      | cons frame rest =>
          have hassoc := inFlight_frame h
          cases frame using Frame.cases_load with
          | resolving order =>
              cases value with
              | error e => cases ha
              | ok resolution =>
                  exact (receiveResolution_arrives host order resolution h.sound).attests ha
          | loading frame load hf =>
              obtain ⟨record, hr, hk, -⟩ := record_of_frame hf hassoc
              have hact : Frame.pursuit? load (resume host frame value rest session).1 = some act :=
                (Frame.act?_of_load? hf _).symm.trans ha
              exact (resume_pursues host value hf hassoc ht hr).attests hr hk hact
          | asking next => cases ha
          | counting => cases ha
          | reloading reload => cases ha
          | renewing reload key wasCached => cases ha

end Session

namespace Traffic

variable {host : Host σ H} {traffic : Traffic σ H}

/-- What a load does at an event. -/
def act? (host : Host σ H) (traffic : Traffic σ H) : TrafficEvent σ H → Option LoadDeed
  | .advanced index =>
    match traffic.tasks[index]? with
    | some task => traffic.session.act? host task.focus
    | none => none
  | _ => none

/-- The loader after a run of events. -/
def afterAll (host : Host σ H) (traffic : Traffic σ H) (events : List (TrafficEvent σ H)) :
    Traffic σ H :=
  events.foldl (after host) traffic

theorem afterAll_append (host : Host σ H) (traffic : Traffic σ H)
    (earlier later : List (TrafficEvent σ H)) :
    traffic.afterAll host (earlier ++ later) = (traffic.afterAll host earlier).afterAll host later :=
  List.foldl_append

/-! ## Runs -/

/-- The registry honors all claims, and records have their tables when they should. -/
theorem IsHonored.turn (h : traffic.IsHonored) (ht : traffic.session.loader.registry.Tabled)
    (event : TrafficEvent σ H) :
    Turn traffic.session.loader.registry (traffic.after host event).session.loader.registry ∧
      (traffic.after host event).session.loader.settings = traffic.session.loader.settings := by
  cases event with
  | imported specifier base => exact ⟨.of_eq rfl, rfl⟩
  | required specifier base => exact ⟨.of_eq rfl, rfl⟩
  | resolved specifier base => exact ⟨.of_eq rfl, rfl⟩
  | reloaded specifier base => exact ⟨.of_eq rfl, rfl⟩
  | operated operation => exact Session.perform_turn operation
  | changed surroundings => exact ⟨.of_eq rfl, rfl⟩
  | advanced index =>
      unfold Traffic.after
      simp only
      split
      · rename_i task htask
        rw [session_proceed]
        exact Session.turn_step host task.focus (h.inFlight.perm (claims_perm htask)) ht
      · exact ⟨.of_eq rfl, rfl⟩
  | dropped index =>
      unfold Traffic.after
      simp only
      split
      · exact ⟨.of_eq rfl, rfl⟩
      · exact ⟨.of_eq rfl, rfl⟩

theorem Reached.tabled (h : Reached host traffic) : traffic.session.loader.registry.Tabled := by
  induction h with
  | @opened config before loader surroundings hopen =>
      show loader.registry.Tabled
      rw [(openWith_ok hopen).1]
      exact Registry.tabled_empty _
  | step event h ih => exact (h.isHonored.turn ih event).1.tabled ih

theorem Reached.turn (h : Reached host traffic) (event : TrafficEvent σ H) :
    Turn traffic.session.loader.registry (traffic.after host event).session.loader.registry ∧
      (traffic.after host event).session.loader.settings = traffic.session.loader.settings :=
  h.isHonored.turn h.tabled event

theorem Reached.afterAll (h : Reached host traffic) (events : List (TrafficEvent σ H)) :
    Reached host (traffic.afterAll host events) := by
  induction events generalizing traffic with
  | nil => exact h
  | cons event events ih => exact ih (h.step event)

/-- What a run leaves of the records there were. -/
theorem Reached.precedes (h : Reached host traffic) (events : List (TrafficEvent σ H)) :
    Precedes traffic.session.loader.registry
      (traffic.afterAll host events).session.loader.registry := by
  induction events generalizing traffic with
  | nil => exact .refl _
  | cons event events ih => exact (h.turn event).1.precedes.trans (ih (h.step event))

/-- No run changes what the loader was told when it was opened. -/
theorem Reached.settings (h : Reached host traffic) (events : List (TrafficEvent σ H)) :
    (traffic.afterAll host events).session.loader.settings = traffic.session.loader.settings := by
  induction events generalizing traffic with
  | nil => rfl
  | cons event events ih => exact (ih (h.step event)).trans (h.turn event).2

/-- An act is one of a task that does a step. -/
theorem of_act? {event : TrafficEvent σ H} {act : LoadDeed}
    (h : traffic.act? host event = some act) : ∃ index task, event = .advanced index ∧
      traffic.tasks[index]? = some task ∧ traffic.session.act? host task.focus = some act ∧
        (traffic.after host event).session = (traffic.session.step host task.focus).2 := by
  cases event with
  | advanced index =>
      cases htask : traffic.tasks[index]? with
      | none =>
          unfold act? at h
          simp only [htask] at h
          cases h
      | some task =>
          unfold act? at h
          simp only [htask] at h
          refine ⟨index, task, rfl, htask, h, ?_⟩
          rw [Traffic.after, htask]
          exact session_proceed _
  | _ => cases h

/-- What an act tells of the loader before and after it. -/
theorem Reached.attests (h : Reached host traffic) {event : TrafficEvent σ H} {act : LoadDeed}
    (ha : traffic.act? host event = some act) :
    Session.Attests traffic.session (traffic.after host event).session act := by
  obtain ⟨index, task, -, htask, hact, hsession⟩ := of_act? ha
  rw [hsession]
  exact Session.attests_step host task.focus (h.isHonored.inFlight.perm (claims_perm htask))
    h.tabled hact

end Traffic

end ScriptModules
