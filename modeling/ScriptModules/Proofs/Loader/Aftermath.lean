import ScriptModules.Proofs.Loader.History

/-!
# No load is left half done

When no call that loads a module is under way, every record is finished.  A load that
fails after it got a record leaves this record behind with the text of the error.  From
then on the record stays as it is until it is dropped, its exports are served to nobody,
and the next load of the module gets a record of its own, whose table is new and empty
when the body begins.

A record in flight is claimed by a frame, so without frames there is none; and an id names
one record only, so a failed one cannot come back under its id.
-/

namespace ScriptModules

open Registry (Claim InFlight)

variable {σ H : Type} {k m n : Kind}

/-- A new table holds what it is made with. -/
theorem ExportTables.bindings_make (store : ExportTables) (bindings : Bindings) :
    (store.make bindings).2.bindings (store.make bindings).1 = bindings := by
  unfold make ExportTables.bindings
  rw [Array.getD_eq_getD_getElem?, Array.getElem?_push_size, Option.getD_some]

/-! ## Calls that load a module -/

/-- Whether a frame is part of a call that loads a module.  A program that waits for an
answer is not, by itself. -/
def Frame.isLoading : Frame σ H k m → Bool
  | .asking _ => false
  | _ => true

/-- Whether some frame of a stack is. -/
def Stack.isLoading : {k n : Kind} → Stack σ H k n → Bool
  | _, _, .nil => false
  | _, _, .cons frame rest => frame.isLoading || rest.isLoading

theorem Stack.claims_of_not_isLoading {stack : Stack σ H k n} (h : stack.isLoading = false) :
    stack.claims = [] := by
  induction stack with
  | nil => rfl
  | cons frame rest ih =>
      obtain ⟨hframe, hrest⟩ := Bool.or_eq_false_iff.mp h
      cases frame with
      | asking next => exact ih hrest
      | _ => cases hframe

namespace Session

variable {session : Session σ H}

/-- A module that is not there, or that failed, is not served. -/
theorem servedExports_of_errored {key : String}
    (h : ∀ id record, session.loader.registry.lookup? key = some id →
      session.loader.registry.get? id = some record → record.state = .errored) :
    session.servedExports key = (.ok none, session) := by
  have hconsiders := session.considers key
  generalize session.servedExports key = served at hconsiders ⊢
  cases hconsiders with
  | refused hl hr hstate =>
      rw [h _ _ hl hr] at hstate
      cases hstate
  | running hl hr hstate _ => cases (h _ _ hl hr).symm.trans hstate
  | served hl hr hstate _ _ => cases (h _ _ hl hr).symm.trans hstate
  | free _ => rfl

end Session

namespace Traffic

variable {host : Host σ H} {traffic : Traffic σ H}

/-! ## After a failure -/

/-- What is so of a load that failed and of its record at any later time.  The registry had
given out `size` ids when it failed. -/
structure Outlives (host : Host σ H) (load : Load) (record : ModuleRecord) (size : Nat)
    (later : Traffic σ H) : Prop where
  /-- The record stays as it is until it is dropped. -/
  stays : ∀ now, later.session.loader.registry.get? load.id = some now → now = record
  /-- Whatever module is served, its exports are those of another record. -/
  unserved : ∀ key handle after,
    later.session.servedExports key = (.ok (some handle), after) → ∃ id found,
      later.session.loader.registry.lookup? key = some id ∧ id ≠ load.id ∧
        later.session.loader.registry.get? id = some found ∧ found.exports = some handle
  /-- Another record under the key was made by a load that began later. -/
  renewed : ∀ id, later.session.loader.registry.lookup? load.key = some id →
    id = load.id ∨ size ≤ id.index
  /-- The next load of the module gets a record that was never there before. -/
  next : ∀ {n : Kind} (order : LoadOrder) (resolution : Resolution) (stack : Stack σ H .module n),
    resolution.url = load.key →
    (∀ id, later.session.loader.registry.lookup? load.key = some id → id = load.id) →
    ∃ id base work after,
      Session.receiveResolution host order (.ok resolution) stack later.session =
        (⟨.reply, work, .cons (.fetching ⟨id, load.key, base⟩ order.mode) stack⟩, after) ∧
      id ≠ load.id ∧ later.session.loader.registry.get? id = none ∧
      after.loader.registry.lookup? load.key = some id ∧
      after.loader.registry.get? id = some {
        key := load.key, format := resolution.format.getD .script, state := .resolving }

/-- A failed record outlives its load. -/
theorem Reached.outlives {load : Load} {record : ModuleRecord} (h : Reached host traffic)
    (hr : traffic.session.loader.registry.get? load.id = some record) (hk : record.key = load.key)
    (hs : record.state = .errored) (events : List (TrafficEvent σ H)) :
    Outlives host load record traffic.session.loader.registry.records.size
      (traffic.afterAll host events) := by
  have hsound := h.isHonored.inFlight.sound
  have hlater := (h.afterAll events).isHonored.inFlight.sound
  have hprecedes := h.precedes events
  have hstays : ∀ now, (traffic.afterAll host events).session.loader.registry.get? load.id =
      some now → now = record := by
    intro now hnow
    exact hprecedes.eq_of_finished hr (by rw [hs]; rfl) hnow
  refine ⟨hstays, ?_, ?_, ?_⟩
  · intro key handle after hserved
    have hdecides := Session.servedExports_decides key hlater
    rw [hserved] at hdecides
    cases hdecides with
    | @served id found _ _ hl hfound hexports hstate =>
        refine ⟨id, found, hl, ?_, hfound, hexports⟩
        rintro rfl
        rw [hstays found hfound, hs] at hstate
        rcases hstate with hnever | ⟨hnever, -⟩ <;> cases hnever
  · intro id hl
    obtain ⟨now, hnow, hkey, -⟩ := hlater.of_lookup hl
    rcases Nat.lt_or_ge id.index traffic.session.loader.registry.records.size with hold | hnew
    · obtain ⟨before, hbefore, hbecomes⟩ := hprecedes.origin hnow hold
      left
      exact hsound.id_inj hbefore hr (hbecomes.key.symm.trans (hkey.trans hk.symm))
    · exact Or.inr hnew
  · intro n order resolution stack hurl hlast
    have herrored : ∀ id now,
        (traffic.afterAll host events).session.loader.registry.lookup? resolution.url = some id →
          (traffic.afterAll host events).session.loader.registry.get? id = some now →
            now.state = .errored := by
      intro id now hl hnow
      rw [hurl] at hl
      rw [hlast id hl] at hnow
      rw [hstays now hnow, hs]
    obtain ⟨base, work, after, heq, hmakes⟩ :=
      Session.startFetch_makes host order resolution stack hlater
    rw [← Session.receiveResolution_of_free (Session.servedExports_of_errored herrored)] at heq
    rw [hurl] at heq hmakes
    refine ⟨_, base, work, after, heq, ?_, Registry.get?_size _, hmakes.lookup, hmakes.get⟩
    intro hsame
    have hlt := Registry.index_lt hr
    rw [← hsame] at hlt
    exact absurd hlt (Nat.not_lt.mpr hprecedes.size)

/-! ## No load is left half done -/

/-- What becomes of loads. -/
structure LeavesNothingHalfDone (host : Host σ H) (traffic : Traffic σ H) : Prop where
  /-- While no call that loads a module is under way and none was dropped, every record is
  finished. -/
  idle : traffic.abandoned = [] → (∀ task ∈ traffic.tasks, task.focus.stack.isLoading = false) →
    ∀ id record, traffic.session.loader.registry.get? id = some record →
      record.state = .complete ∨ record.state = .errored
  /-- A load that fails leaves its record behind with the text of the error. -/
  failed : ∀ event load e, traffic.act? host event = some (.ended load (.error e)) →
    ∃ record, (traffic.after host event).session.loader.registry.get? load.id = some record ∧
      record.key = load.key ∧ record.state = .errored ∧ record.error = some e.message ∧
        ∀ events, Outlives host load record
          (traffic.after host event).session.loader.registry.records.size
          ((traffic.after host event).afterAll host events)
  /-- The body of a module begins on a table that is new and empty. -/
  ran : ∀ event load handle, traffic.act? host event = some (.ran load handle) →
    handle = ⟨traffic.session.exports.tables.size⟩ ∧
      (traffic.after host event).session.exports.bindings handle = [] ∧
        ∃ record, (traffic.after host event).session.loader.registry.get? load.id = some record ∧
          record.key = load.key ∧ record.exports = some handle

/-- Without frames nothing is claimed. -/
theorem claims_of_idle (ha : traffic.abandoned = [])
    (ht : ∀ task ∈ traffic.tasks, task.focus.stack.isLoading = false) : traffic.claims = [] := by
  unfold claims
  rw [ha, List.append_nil, List.flatMap_eq_nil_iff]
  exact fun task htask => Stack.claims_of_not_isLoading (ht task htask)

/-- All through every run of a loader, no load is left half done. -/
theorem Reached.leavesNothingHalfDone (h : Reached host traffic) :
    traffic.LeavesNothingHalfDone host := by
  refine ⟨?_, ?_, ?_⟩
  · intro ha ht id record hr
    have hinFlight := h.isHonored.inFlight
    rw [claims_of_idle ha ht] at hinFlight
    cases hstate : record.state with
    | complete => exact Or.inl rfl
    | errored => exact Or.inr rfl
    | _ =>
        obtain ⟨claim, hclaim, -⟩ := hinFlight.claimed hr (by rw [hstate]; rfl)
        cases hclaim
  · intro event load e ha
    cases h.attests ha with
    | @failed _ _ record changed _ hk hown hb hs he =>
        have hkey := hb.key.trans hk
        exact ⟨changed, hown, hkey, hs, he, (h.step event).outlives hown hkey hs⟩
  · intro event load handle ha
    cases h.attests ha with
    | @ran _ _ record changed _ hk _ hown hb _ he hnew =>
        obtain ⟨rfl, hexports⟩ := Prod.mk.inj hnew
        refine ⟨rfl, ?_, changed, hown, hb.key.trans hk, he⟩
        rw [hexports]
        exact ExportTables.bindings_make _ _

/-! ## A body that fails -/

/-- A host whose modules fail.  Specifiers are canonical ids. -/
def failingHost : Host Unit Unit where
  engine := "1"
  resolve _ specifier _ := .done (.ok ⟨specifier, some .script, true⟩)
  load _ _ _ := .done (.ready (.ok ⟨.script, some [], true⟩))
  compile source _ := .done (.ok source)
  execute _ _ _ := .done (.error (.message "no"))

/-- The body of a module that is required is about to fail. -/
def requiredOnce : List (TrafficEvent Unit Unit) :=
  [.operated (.register (some { resolve := some (), load := some () })),
    .required "m" (.ofString "/"), .advanced 0, .advanced 0, .advanced 0]

theorem reached_idleLoader (host : Host Unit Unit) : Reached host idleLoader := by
  have hopen : Loader.openWith {} .empty = (.ok idleLoader.session.loader, .empty) := rfl
  exact .opened { files := .empty, exports := {}, state := () } hopen

/-- The load that fails, and what its record then is. -/
theorem leavesNothingHalfDone_requiredOnce :
    (idleLoader.afterAll failingHost requiredOnce).act? failingHost (.advanced 0) =
        some (.ended ⟨⟨0⟩, "m", .ofString "/"⟩ (.error (.execution "m" (.message "no")))) ∧
      (idleLoader.afterAll failingHost requiredOnce).LeavesNothingHalfDone failingHost :=
  ⟨by rfl, ((reached_idleLoader failingHost).afterAll requiredOnce).leavesNothingHalfDone⟩

end Traffic

end ScriptModules
