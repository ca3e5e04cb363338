import Mathlib.Data.List.Induction
import ScriptModules.Proofs.Loader.Hearing

/-!
# The journal of a run

What a run of events tells of the bodies of modules: which of them have begun, and what each was
told (`Traffic.journal`).  At any moment of a run, whatever is left of a body is what the journal
leaves of it (`Traffic.Reached.follows`).
-/

namespace ScriptModules

open Registry (Claim InFlight)

variable {σ H : Type} {k m n : Kind}

namespace Traffic

variable {host : Host σ H} {start traffic : Traffic σ H} {event : TrafficEvent σ H}
  {book later : Journal σ H}

/-- What the body of the module with a record is told at an event. -/
def telling? (traffic : Traffic σ H) : TrafficEvent σ H → Option (ModuleId × Reply σ H)
  | .advanced index =>
    match traffic.tasks[index]? with
    | some task => traffic.session.telling? task.focus
    | none => none
  | _ => none

/-- The body of a load begins at an event. -/
def BeginsBody (host : Host σ H) (traffic : Traffic σ H) (event : TrafficEvent σ H) (load : Load)
    (bytecode : Bytes) (handle : Handle) : Prop :=
  ∃ index task, event = .advanced index ∧ traffic.tasks[index]? = some task ∧
    traffic.session.BeginsBody host task.focus load bytecode handle

/-- What the body of the module with a record is told in a run of events. -/
def told (host : Host σ H) (id : ModuleId) :
    Traffic σ H → List (TrafficEvent σ H) → List (Reply σ H)
  | _, [] => []
  | traffic, event :: events =>
    Reply.to id (traffic.telling? event) ++ told host id (traffic.after host event) events

/-- What a run of events tells of the bodies of modules. -/
def journal (host : Host σ H) (start : Traffic σ H) (events : List (TrafficEvent σ H)) :
    Journal σ H where
  begun load bytecode handle := ∃ earlier event later, events = earlier ++ event :: later ∧
    (start.afterAll host earlier).BeginsBody host event load bytecode handle
  told id := start.told host id events

theorem told_concat (host : Host σ H) (id : ModuleId) (start : Traffic σ H)
    (events : List (TrafficEvent σ H)) (event : TrafficEvent σ H) :
    start.told host id (events ++ [event]) =
      start.told host id events ++ Reply.to id ((start.afterAll host events).telling? event) := by
  induction events generalizing start with
  | nil => exact List.append_nil _
  | cons first events ih =>
      rw [List.cons_append, told, told, ih, List.append_assoc]
      rfl

theorem journal_adds (host : Host σ H) (start : Traffic σ H) (events : List (TrafficEvent σ H))
    (event : TrafficEvent σ H) :
    (start.journal host events).Adds ((start.afterAll host events).telling? event)
      (start.journal host (events ++ [event])) where
  begun := by
    rintro load bytecode handle ⟨earlier, first, later, rfl, hbegins⟩
    exact ⟨earlier, first, later ++ [event], by simp, hbegins⟩
  told id := told_concat host id start events event

/-! ## All bodies of a run -/

/-- All bodies in a loader at work are where a journal tells. -/
structure Follows (host : Host σ H) (journal : Journal σ H) (traffic : Traffic σ H) : Prop where
  tasks : ∀ task ∈ traffic.tasks, task.focus.Follows host journal
  quiet : journal.Quiet traffic.session.loader.registry

/-- Only a body that is running is told something. -/
theorem claim_of_telling? {session : Session σ H} {focus : Focus σ H n} {id : ModuleId}
    {reply : Reply σ H} (h : session.telling? focus = some (id, reply)) :
    ∃ claim ∈ focus.claims, claim.id = id ∧ claim.state = .executing := by
  have hbody : ∀ {k : Kind} {stack : Stack σ H k n} {answer : Reply σ H},
      (stack.body?.map fun load => (load.id, answer)) = some (id, reply) →
        ∃ claim ∈ stack.claims, claim.id = id ∧ claim.state = .executing := by
    intro k stack answer hsaid
    obtain ⟨load, hload, heq⟩ := Option.map_eq_some_iff.mp hsaid
    obtain ⟨handle, hleading⟩ := Stack.leading_of_body? hload
    refine ⟨load.claim .executing (some handle), ?_, congrArg Prod.fst heq, rfl⟩
    rw [stack.claims_eq, hleading]
    exact List.mem_append_left _ (List.mem_singleton_self _)
  unfold Session.telling? at h
  split at h
  · rename_i frame rest
    cases frame with
    | asking next =>
        have hclaim := hbody (show rest.body?.map _ = _ from h)
        exact hclaim
    | _ => cases h
  · exact hbody h
  · cases h

/-- Something is told at an event when a task does a step. -/
theorem of_telling? {id : ModuleId} {reply : Reply σ H}
    (h : traffic.telling? event = some (id, reply)) : ∃ index task,
      event = .advanced index ∧ traffic.tasks[index]? = some task ∧
        traffic.session.telling? task.focus = some (id, reply) := by
  cases event with
  | advanced index =>
      simp only [telling?] at h
      split at h
      · exact ⟨index, _, rfl, ‹_›, h⟩
      · cases h
  | _ => cases h

theorem Reached.quiet_after (h : Reached host traffic)
    (hq : book.Quiet traffic.session.loader.registry)
    (ha : book.Adds (traffic.telling? event) later) :
    later.Quiet (traffic.after host event).session.loader.registry := by
  intro id htold
  have hbefore : id.index < traffic.session.loader.registry.records.size ∧
      ∀ record, traffic.session.loader.registry.get? id = some record →
        record.state.canAdvance .executing = false := by
    by_cases hold : book.told id = []
    · rw [ha.told, hold, List.nil_append] at htold
      obtain ⟨reply, hmem⟩ := List.exists_mem_of_ne_nil _ htold
      obtain ⟨index, task, -, htask, hsaid⟩ := of_telling? (Reply.mem_to.mp hmem)
      obtain ⟨claim, hclaim, rfl, hstate⟩ := claim_of_telling? hsaid
      have hclaims : claim ∈ traffic.claims :=
        (claims_perm htask).mem_iff.mpr (List.mem_append_left _ hclaim)
      obtain ⟨record, hr, -, hsame, -⟩ := h.isHonored.inFlight.carried claim hclaims
      refine ⟨Registry.index_lt hr, fun other hother => ?_⟩
      cases hr.symm.trans hother
      rw [hsame, hstate]
      rfl
    · exact hq id hold
  have hprecedes := (h.turn event).1.precedes
  refine ⟨Nat.lt_of_lt_of_le hbefore.1 hprecedes.size, fun record hr => ?_⟩
  obtain ⟨earlier, hearlier, hbecomes⟩ := hprecedes.origin hr hbefore.1
  by_contra hn
  cases (hbefore.2 earlier hearlier).symm.trans
    (ModuleState.canAdvance_of_rank_le hbecomes.rank (Bool.not_eq_false _ ▸ hn))

/-- Whoever is told something when a task does a step, it is no body of another task. -/
theorem Reached.told_others (h : Reached host traffic) {task : Task σ H} {claim : Claim}
    (ha : book.Adds (traffic.telling? event) later)
    (ho : ∀ index, event = .advanced index → task ∈ traffic.tasks.eraseIdx index)
    (hc : claim ∈ task.focus.claims) : later.told claim.id = book.told claim.id := by
  refine ha.told_ne fun reply hsaid => ?_
  obtain ⟨index, stepping, hevent, hindex, hsaid⟩ := of_telling? hsaid
  obtain ⟨own, hown, hid, -⟩ := claim_of_telling? hsaid
  have hmem : claim ∈ traffic.others index :=
    List.mem_append_left _ (List.mem_flatMap.mpr ⟨task, ho index hevent, hc⟩)
  have hnodup := (h.isHonored.inFlight.perm (claims_perm hindex)).nodup
  rw [List.map_append] at hnodup
  exact (List.nodup_append.mp hnodup).2.2 own.id (List.mem_map_of_mem hown) claim.id
    (List.mem_map_of_mem hmem) hid

/-- After an event all bodies are where the journal tells, if it goes on with the event. -/
theorem Reached.follows_after (h : Reached host traffic) (hf : traffic.Follows host book)
    (ha : book.Adds (traffic.telling? event) later)
    (hbegins : ∀ {load bytecode handle},
      traffic.BeginsBody host event load bytecode handle → later.begun load bytecode handle) :
    (traffic.after host event).Follows host later := by
  refine ⟨fun task htask => ?_, h.quiet_after hf.quiet ha⟩
  cases arises htask with
  | stays hold hother =>
      exact (hf.tasks task hold).keep ha fun claim hclaim => h.told_others ha hother hclaim
  | loads mode specifier base =>
      exact Focus.follows_silent (by decide) ⟨trivial, trivial, trivial⟩
  | resolves specifier base => exact Focus.follows_silent (by decide) trivial
  | reloads specifier base => exact Focus.follows_silent (by decide) ⟨trivial, trivial⟩
  | @steps index stepping next hevent hindex hnext =>
      subst hevent
      have hhonored := h.isHonored.inFlight.perm (claims_perm hindex)
      refine Session.follows_step host hhonored h.tabled
        (hf.tasks stepping (List.mem_of_getElem? hindex)) hf.quiet ⟨?_, ?_⟩ hnext
      · simpa only [telling?, hindex] using ha
      · exact fun hbegun => hbegins ⟨index, stepping, rfl, hindex, hbegun⟩

/-- In every run all bodies are where the journal of the run tells. -/
theorem Reached.follows (h : Reached host start) (hnone : start.tasks = [])
    (events : List (TrafficEvent σ H)) :
    (start.afterAll host events).Follows host (start.journal host events) := by
  induction events using List.reverseRecOn with
  | nil =>
      refine ⟨fun task htask => ?_, fun id htold => absurd rfl htold⟩
      rw [show start.afterAll host [] = start from rfl, hnone] at htask
      cases htask
  | append_singleton events event ih =>
      rw [afterAll_append]
      refine (h.afterAll events).follows_after ih (journal_adds host start events event) ?_
      exact fun hbegins => ⟨events, event, [], rfl, hbegins⟩

end Traffic

end ScriptModules
