import ScriptModules.Proofs.Loader.Completing
import ScriptModules.Proofs.Loader.Journal

/-!
# Dependencies

When a record becomes complete, it lists what the body of its module has required by itself, as
far as it could be loaded.  Each of these modules was there before, or its body was running, and
had its table of exports: whatever a load hands on, it was given by an act, at which the registry
held it (`Traffic.Reached.held_of_module?`).
-/

namespace ScriptModules

open Registry (Claim InFlight Completes)

variable {σ H : Type} {k m n : Kind}

/-! ## Modules that are handed on -/

theorem Focus.module?_of_ne {focus : Focus σ H n} (hk : focus.kind ≠ .module) :
    focus.module? = none := by
  unfold module?
  split
  · exact absurd rfl hk
  · rfl

theorem Focus.of_module? {focus : Focus σ H n} {loaded : LoadedModule}
    (h : focus.module? = some loaded) : ∃ stack, focus = ⟨.module, .done (.ok loaded), stack⟩ := by
  unfold module? at h
  split at h
  · cases h
    exact ⟨_, rfl⟩
  · cases h

namespace Session

variable {host : Host σ H} {session : Session σ H} {claims : List Claim}

theorem module?_resume (host : Host σ H) (frame : Frame σ H k m) (value : Value σ H k)
    (stack : Stack σ H m n) {loaded : LoadedModule} (hplain : frame.IsPlain)
    (hm : (resume host frame value stack session).1.module? = some loaded) :
    (⟨k, .done value, .cons frame stack⟩ : Focus σ H n).module? = some loaded ∨
      ∃ act, frame.act? (resume host frame value stack session).1 = some act ∧
        act.module? = some loaded := by
  cases frame using Frame.cases_load with
  | asking next =>
      have hk : (resume host (.asking next) value stack session).1.kind ≠ .module := hplain
      cases (Focus.module?_of_ne hk).symm.trans hm
  | counting =>
      cases value with
      | ok given => exact Or.inl hm
      | error e => cases hm
  | resolving order =>
      obtain ⟨below, hresult⟩ := Focus.of_module? hm
      rw [hresult]
      exact Or.inr ⟨.served loaded.1 loaded.2, rfl, rfl⟩
  | loading frame load hf =>
      obtain ⟨below, hresult⟩ := Focus.of_module? hm
      rw [hresult, Frame.act?_of_load? hf]
      exact Or.inr ⟨.ended load (.ok loaded), rfl, rfl⟩
  | reloading reload =>
      have hrestarts : Restarts host reload stack session
          (resume host (.reloading reload) value stack session) :=
        receiveReload_restarts host reload value stack session
      generalize resume host (.reloading reload) value stack session = result at hrestarts hm
      cases hrestarts with
      | ends _ _ => cases hm
      | begins _ _ => cases hm
  | renewing reload key wasCached => cases hm

/-- What is handed on after a step was so before, or a load has just given it. -/
theorem module?_step (host : Host σ H) {focus next : Focus σ H n} {loaded : LoadedModule}
    (hg : focus.Given (fun _ => False) session.loader.registry)
    (hnext : (session.step host focus).1.focus? = some next) (hm : next.module? = some loaded) :
    focus.module? = some loaded ∨
      ∃ act, session.act? host focus = some act ∧ act.module? = some loaded := by
  obtain ⟨kind, work, stack⟩ := focus
  cases work with
  | done value =>
      cases stack with
      | nil => cases hnext
      | cons frame rest =>
          cases hnext
          have hplain : frame.IsPlain := by
            cases hg with
            | other _ hs => exact hs.1
            | result hs _ => exact hs.1
          exact module?_resume host frame value rest hplain hm
  | ask request go =>
      -- Whoever makes a request is no load, so what it goes on with is no module.
      have hk : kind ≠ .module := by
        cases hg with
        | other hk _ => exact hk
      cases request with
      | request request =>
          cases request with
          | operation operation =>
              cases hnext
              cases (Focus.module?_of_ne hk).symm.trans hm
          | _ =>
              cases hnext
              cases hm
      | pause =>
          rcases step_pause host go stack session with heq | heq <;> rw [heq] at hnext <;>
            cases hnext <;> cases (Focus.module?_of_ne hk).symm.trans hm
      | _ =>
          cases hnext
          cases (Focus.module?_of_ne hk).symm.trans hm

/-- A body that is given a module is handed it on. -/
theorem module?_of_telling? {focus : Focus σ H n} {id : ModuleId} {loaded : LoadedModule}
    (h : session.telling? focus = some (id, .given .module (.ok loaded))) :
    focus.module? = some loaded := by
  unfold telling? at h
  split at h
  · rename_i frame rest
    cases frame with
    | asking next =>
        obtain ⟨load, -, heq⟩ := Option.map_eq_some_iff.mp h
        cases heq
        rfl
    | _ => cases h
  · obtain ⟨load, -, heq⟩ := Option.map_eq_some_iff.mp h
    cases heq
  · cases h

end Session

namespace Traffic

variable {host : Host σ H} {start traffic : Traffic σ H} {event : TrafficEvent σ H}
  {key : String} {handle : Handle}

/-- What is handed on after an event was so before, or the registry holds it just now. -/
theorem Reached.module?_after (h : Reached host traffic) {task : Task σ H}
    (ht : task ∈ (traffic.after host event).tasks)
    (hm : task.focus.module? = some (key, handle)) :
    (∃ task ∈ traffic.tasks, task.focus.module? = some (key, handle)) ∨
      (traffic.after host event).session.loader.registry.Holds key handle := by
  cases arises ht with
  | stays hold _ => exact Or.inl ⟨task, hold, hm⟩
  | loads mode specifier base => cases hm
  | resolves specifier base => cases hm
  | reloads specifier base => cases hm
  | @steps index stepping next hevent hindex hnext =>
      have hmem := List.mem_of_getElem? hindex
      rcases Session.module?_step host (h.isGiven_false stepping hmem) hnext hm with
        hold | ⟨act, hact, hgiven⟩
      · exact Or.inl ⟨stepping, hmem, hold⟩
      · have hacts : traffic.act? host event = some act := by
          simp only [hevent, act?, hindex]
          exact hact
        exact Or.inr ((h.attests hacts).holds (h.step event).isHonored.inFlight.sound hgiven)

/-- At some moment of a run the registry has held a module, with these exports. -/
def HasHeld (host : Host σ H) (start : Traffic σ H) (events : List (TrafficEvent σ H))
    (key : String) (handle : Handle) : Prop :=
  ∃ earlier later, events = earlier ++ later ∧
    (start.afterAll host earlier).session.loader.registry.Holds key handle

theorem HasHeld.concat {events : List (TrafficEvent σ H)} (h : start.HasHeld host events key handle)
    (event : TrafficEvent σ H) : start.HasHeld host (events ++ [event]) key handle := by
  obtain ⟨earlier, later, rfl, hholds⟩ := h
  exact ⟨earlier, later ++ [event], List.append_assoc _ _ _, hholds⟩

/-- Whatever is handed on in a run, the registry has held. -/
theorem Reached.held_of_module? (h : Reached host start) (hnone : start.tasks = [])
    (events : List (TrafficEvent σ H)) {task : Task σ H}
    (ht : task ∈ (start.afterAll host events).tasks)
    (hm : task.focus.module? = some (key, handle)) : start.HasHeld host events key handle := by
  induction events using List.reverseRecOn generalizing task with
  | nil =>
      rw [show start.afterAll host [] = start from rfl, hnone] at ht
      cases ht
  | append_singleton events event ih =>
      have hafter : start.afterAll host (events ++ [event]) =
          (start.afterAll host events).after host event := afterAll_append host start events [event]
      rw [hafter] at ht
      rcases (h.afterAll events).module?_after ht hm with ⟨earlier, hearlier, hsame⟩ | hholds
      · exact (ih hearlier hsame).concat event
      · rw [← hafter] at hholds
        exact ⟨events ++ [event], [], (List.append_nil _).symm, hholds⟩

/-- Whatever a body was given, the registry has held before. -/
theorem Reached.held_of_told (h : Reached host start) (hnone : start.tasks = [])
    (events : List (TrafficEvent σ H)) {id : ModuleId}
    (ht : .given .module (.ok (key, handle)) ∈ start.told host id events) :
    start.HasHeld host events key handle := by
  induction events using List.reverseRecOn with
  | nil => cases ht
  | append_singleton events event ih =>
      rw [told_concat, List.mem_append] at ht
      rcases ht with hold | hnew
      · exact (ih hold).concat event
      · obtain ⟨index, task, -, htask, hsaid⟩ := of_telling? (Reply.mem_to.mp hnew)
        have hheld := h.held_of_module? hnone events (List.mem_of_getElem? htask)
          (Session.module?_of_telling? hsaid)
        exact hheld.concat event

/-! ## What records list -/

/-- A record lists what the body of its module has required in a run, and had when it did. -/
structure ListsRequired (host : Host σ H) (start : Traffic σ H) (events : List (TrafficEvent σ H))
    (record : ModuleRecord) (load : Load) (bytecode : Bytes) (handle : Handle)
    (required : List (Except ModuleError LoadedModule)) : Prop where
  key : load.key = record.key
  exports : record.exports = some handle
  /-- The body of the module has begun. -/
  begun : (start.journal host events).begun load bytecode handle
  /-- With what it was told, it has required these modules, and has ended well. -/
  hears : (host.execute bytecode load.key handle).Hears (start.told host load.id events) required
    (.done (.ok ()))
  /-- Those that could be loaded are listed, each where it first came up. -/
  dependencies : record.dependencies = noted required
  nodup : record.dependencies.Nodup
  /-- Each was there, or its body was running, with the exports that the body was given. -/
  held : ∀ dependency ∈ record.dependencies, ∃ exports,
    .ok (dependency, exports) ∈ required ∧ start.HasHeld host events dependency exports

/-- Whenever the record of a script or a binary module becomes complete, it lists what the body
of the module has required. -/
def RecordsDependencies (host : Host σ H) (start : Traffic σ H) : Prop :=
  ∀ events event id record, Completes (start.afterAll host events).session.loader.registry
      ((start.afterAll host events).after host event).session.loader.registry id record →
    record.format ≠ .virtual → ∃ load bytecode handle required, load.id = id ∧
      start.ListsRequired host events record load bytecode handle required

/-- In every run of a loader records list what the bodies of their modules have required. -/
theorem recordsDependencies (host : Host σ H) {config : Config} {before : FileSystem}
    {loader : Loader H} {surroundings : Surroundings σ}
    (h : Loader.openWith config before = (.ok loader, surroundings.files)) :
    (opened surroundings loader).RecordsDependencies host := by
  intro events event id record hcompletes hscript
  have hreached : Reached host (opened surroundings loader) := .opened surroundings h
  obtain ⟨index, task, -, htask, hcompleting⟩ := (hreached.afterAll events).completing hcompletes
  have hfollows := (hreached.follows rfl events).tasks task (List.mem_of_getElem? htask)
  generalize task.focus = focus at hcompleting hfollows
  cases hcompleting with
  | builtin hvirtual => exact absurd hvirtual hscript
  | @body load handle rest hid hkey hexports =>
      obtain ⟨bytecode, hbegun, hworks⟩ := Journal.Reaches.works hfollows.work
      generalize hlisted : record.dependencies = dependencies at hworks
      cases hworks with
      | @ends required _ hhears =>
          refine ⟨load, bytecode, handle, required, hid, hkey, hexports, hbegun, hhears, hlisted,
            ?_, fun dependency hmem => ?_⟩
          · rw [hlisted]
            exact nodup_noted required
          · rw [hlisted] at hmem
            obtain ⟨exports, hloaded⟩ := mem_noted.mp hmem
            exact ⟨exports, hloaded, hreached.held_of_told rfl events (hhears.mem_replies hloaded)⟩

/-! ## Bodies that are nested -/

/-- A host whose hooks know every module but one.  The module `m` requires another one, which
requires a third, then the one there is none of, then itself, then the first again. -/
def nestingHost : Host Unit Unit where
  engine := "1"
  resolve _ specifier _ := .done <|
    if specifier = "none" then .error (.message "there is none")
    else .ok ⟨specifier, some .script, true⟩
  load _ _ _ := .done (.ready (.ok ⟨.script, some [], true⟩))
  compile source _ := .done (.ok source)
  execute _ id _ :=
    if id = "m" then
      .ask (.dependency "n") fun _ => .ask (.dependency "none") fun _ =>
        .ask (.dependency "m") fun _ => .ask (.dependency "n") fun _ => .done (.ok ())
    else if id = "n" then .ask (.dependency "o") fun _ => .done (.ok ())
    else .done (.ok ())

/-- The module is required, and some steps are done. -/
def nestedRequires (steps : Nat) : List (TrafficEvent Unit Unit) :=
  .operated (.register (some { resolve := some (), load := some () })) ::
    .required "m" (.ofString "/") :: List.replicate steps (.advanced 0)

/-- With the thirtieth step the module is complete.  It lists the two modules it has required
itself, one of which is itself, while the body of the other has long ended. -/
theorem recordsDependencies_nestedRequires :
    (idleLoader.afterAll nestingHost (nestedRequires 29)).session.loader.registry.records.toList.map
        (·.map fun record => (record.key, record.state, record.dependencies)) =
      [some ("m", .executing, []), some ("n", .complete, ["o"]), some ("o", .complete, [])] ∧
    ((idleLoader.afterAll nestingHost (nestedRequires 30)).session.loader.registry.get? ⟨0⟩).map
        (fun record => (record.format, record.state, record.dependencies)) =
      some (.script, .complete, ["n", "m"]) ∧
      idleLoader.RecordsDependencies nestingHost := by
  have hopen : Loader.openWith {} .empty =
      (.ok idleLoader.session.loader, idleLoader.session.files) := rfl
  have hlists : (opened idleLoader.session.toSurroundings
      idleLoader.session.loader).RecordsDependencies nestingHost :=
    recordsDependencies nestingHost hopen
  exact ⟨by decide +kernel, by decide +kernel, hlists⟩

end Traffic

end ScriptModules
