import ScriptModules.Proofs.Loader.Aftermath
import ScriptModules.Proofs.Loader.Results

/-!
# One instance of a module

As long as no event drops or fails the record of a module, the module has one instance: its
body begins at most once, and whoever gets the module gets the table of exports of its
record, also while the body is still running.

Only four things can cost a module its record: clearing, a reload of this module, the end
of another load, which may evict it, and the failure of its own load
(`Session.mayDrop`).  If caching were not enabled, the next load would as well.
-/

namespace ScriptModules

open Registry (Claim InFlight)

variable {σ H : Type} {k m n : Kind}

/-! ## What may cost a module its record -/

/-- Whether an act begins the body of a module. -/
def LoadDeed.runs (key : String) : LoadDeed → Bool
  | .ran load _ => load.key == key
  | _ => false

/-- Whether an act ends a load that fails or is one of another module. -/
def LoadDeed.mayDrop (key : String) : LoadDeed → Bool
  | .ended load (.ok _) => load.key != key
  | .ended _ (.error _) => true
  | _ => false

/-- Whether a program clears the modules. -/
def Focus.clears (focus : Focus σ H n) : Bool :=
  match focus with
  | ⟨_, .ask (.request (.operation .clearModules)) _, _⟩ => true
  | _ => false

/-- Whether the specifier of a reload has been resolved to a key. -/
def Focus.reloads (key : String) (focus : Focus σ H n) : Bool :=
  match focus with
  | ⟨.resolution, .done (.ok resolution), .cons (.reloading _) _⟩ => resolution.url == key
  | _ => false

namespace Session

variable {host : Host σ H} {session after : Session σ H} {key : String} {claims : List Claim}

/-- Whether the next step of a focus clears the modules, reloads this one, or ends a load,
though not one of this module with success. -/
def mayDrop (host : Host σ H) (key : String) (focus : Focus σ H n) (session : Session σ H) :
    Bool :=
  focus.clears || focus.reloads key || (session.act? host focus).any (·.mayDrop key)

/-- The record under a key stays there and does not fail. -/
def Keeps (key : String) (session after : Session σ H) : Prop :=
  ∀ id record, session.loader.registry.lookup? key = some id →
    session.loader.registry.get? id = some record → record.state ≠ .errored →
      ∃ now, after.loader.registry.get? id = some now ∧ now.state ≠ .errored

theorem keeps_of_eq (h : after.loader.registry.records = session.loader.registry.records) :
    Keeps key session after := by
  intro id record _ hr hs
  exact ⟨record, (Registry.get?_congr h id).trans hr, hs⟩

/-- A record moves on, but not to failure. -/
theorem Notes.keeps {load : Load} {record changed : ModuleRecord}
    (h : Notes load record changed session after) (hs : changed.state ≠ .errored) :
    Keeps key session after := by
  intro id found _ hfound hlive
  by_cases heq : id = load.id
  · exact ⟨changed, heq ▸ h.sets.get_self, hs⟩
  · exact ⟨found, by rw [h.sets.get, if_neg heq, hfound], hlive⟩

/-- A load that goes on leaves every record, and so does one that ends well to its own. -/
theorem Pursues.keeps {host : Host σ H} {focus : Focus σ H n} {load : Load}
    {record : ModuleRecord} {stack : Stack σ H .module n} {result : Focus σ H n × Session σ H}
    (h : Pursues load record stack session result) (hsound : session.loader.registry.Sound)
    (hr : session.loader.registry.get? load.id = some record) (hk : record.key = load.key)
    (hact : session.act? host focus = Frame.pursuit? load result.1)
    (hm : session.mayDrop host key focus = false) : Keeps key session result.2 := by
  have hends : (Frame.pursuit? load result.1).any (·.mayDrop key) = false := by
    rw [← hact]
    exact (Bool.or_eq_false_iff.mp hm).2
  cases h with
  | waits _ _ h hs _ =>
      refine h.keeps fun hnever => ?_
      rw [hnever] at hs
      cases hs
  | begins h _ hs _ _ =>
      refine h.keeps fun hnever => ?_
      rw [hnever] at hs
      cases hs
  | @succeeds handle _ changed h hs _ =>
      intro id found hl _ _
      have hne : (load.key != key) = false := hends
      have hkey : load.key = key := by simpa using hne
      have hid := hsound.lookup_key hr
      rw [hk, hkey, hl] at hid
      cases hid
      refine ⟨changed, h.moves.own, ?_⟩
      rw [hs]
      decide
  | fails _ _ _ => cases hends

/-- A load that arrives leaves what is cached. -/
theorem Arrives.keeps {order : LoadOrder} {resolution : Resolution} {stack : Stack σ H .module n}
    {result : Focus σ H n × Session σ H} (h : Arrives order resolution stack session result)
    (hsound : session.loader.registry.Sound) (ht : session.loader.registry.Tabled)
    (hc : session.loader.config.enableCache = true) : Keeps key session result.2 := by
  cases h with
  | refused => exact keeps_of_eq rfl
  | served h =>
      cases h with
      | served _ _ _ _ hrecords _ _ => exact keeps_of_eq hrecords
  | begins hfree h =>
      intro id record hl hr hlive
      obtain ⟨found, hfound, hkey, -⟩ := hsound.of_lookup hl
      rw [hr] at hfound
      cases hfound
      refine ⟨record, h.kept hr ?_, hlive⟩
      -- What the load takes the place of has failed, or is complete and has exports.
      intro hsame
      rw [← hsame, hkey] at hfree
      rcases hfree id record hl hr with hs | ⟨hs, hoff | hnone⟩
      · exact hlive hs
      · rw [hc] at hoff
        cases hoff
      · have hsome := (ht hr).complete hs
        rw [hnone] at hsome
        cases hsome

theorem Reloads.keeps {reload : Reload} {resolution : Resolution} {stack : Stack σ H .reload n}
    {result : Focus σ H n × Session σ H}
    (h : Reloads host reload stack session (.ok resolution) result)
    (hsound : session.loader.registry.Sound) (hne : resolution.url ≠ key) :
    Keeps key session result.2 := by
  cases h with
  | ends resolved wasCached outcome => exact keeps_of_eq rfl
  | begins wasCached _ =>
      intro id record hl hr hlive
      obtain ⟨found, hfound, hkey, -⟩ := hsound.of_lookup hl
      cases hr.symm.trans hfound
      have hkept := hsound.get?_invalidate hr fun hsame => hne (hsame.symm.trans hkey)
      obtain ⟨files, cache, hforgotten⟩ := session.forget_eq resolution.url
      refine ⟨record, (Registry.get?_congr ?_ id).trans hkept, hlive⟩
      rw [hforgotten]
      rfl

theorem perform_keeps {operation : Operation σ H} (hne : operation ≠ .clearModules) :
    Keeps key session (session.perform operation).2 := by
  rcases registry_perform session operation with heq | hclears
  · apply keeps_of_eq
    rw [heq]
  · exact absurd hclears hne

/-- What a frame does with a value leaves the record, if it is not one of the four. -/
theorem keeps_resume (host : Host σ H) (frame : Frame σ H k m) (value : Value σ H k)
    (stack : Stack σ H m n) (h : InFlight session.loader.registry (frame.claims ++ claims))
    (ht : session.loader.registry.Tabled) (hc : session.loader.config.enableCache = true)
    (hm : session.mayDrop host key ⟨k, .done value, .cons frame stack⟩ = false) :
    Keeps key session (resume host frame value stack session).2 := by
  cases frame using Frame.cases_load with
  | asking next => exact keeps_of_eq rfl
  | counting =>
      refine keeps_of_eq ?_
      cases value <;> rfl
  | resolving order =>
      cases value with
      | error e => exact keeps_of_eq rfl
      | ok resolution =>
          exact (receiveResolution_arrives host order resolution h.sound).keeps h.sound ht hc
  | loading frame load hf =>
      obtain ⟨record, hr, hk, -⟩ := record_of_frame hf h
      have hact : session.act? host ⟨_, .done value, .cons frame stack⟩ =
          Frame.pursuit? load (resume host frame value stack session).1 :=
        Frame.act?_of_load? hf _
      exact (resume_pursues host value hf h ht hr).keeps h.sound hr hk hact hm
  | reloading reload =>
      cases value with
      | error e => exact keeps_of_eq rfl
      | ok resolution =>
          have hreloads := (Bool.or_eq_false_iff.mp (Bool.or_eq_false_iff.mp hm).1).2
          exact (reloads host reload (.ok resolution) stack session).keeps h.sound
            (beq_eq_false_iff_ne.mp hreloads)
  | renewing reload key wasCached => exact keeps_of_eq rfl

theorem keeps_step (host : Host σ H) {focus : Focus σ H n}
    (h : InFlight session.loader.registry (focus.claims ++ claims))
    (ht : session.loader.registry.Tabled) (hc : session.loader.config.enableCache = true)
    (hm : session.mayDrop host key focus = false) :
    Keeps key session (session.step host focus).2 := by
  obtain ⟨kind, work, stack⟩ := focus
  cases work with
  | done value =>
      cases stack with
      | nil => exact keeps_of_eq rfl
      | cons frame rest =>
          exact keeps_resume host frame value rest (inFlight_frame h) ht hc hm
  | ask request next =>
      cases request with
      | request request =>
          cases request with
          | operation operation =>
              refine perform_keeps ?_
              rintro rfl
              cases hm
          | resolve specifier base => exact keeps_of_eq rfl
          | require specifier base => exact keeps_of_eq rfl
          | reload specifier base => exact keeps_of_eq rfl
      | resolveDefault specifier context => exact keeps_of_eq rfl
      | loadDefault url context => exact keeps_of_eq rfl
      | pause =>
          refine keeps_of_eq ?_
          rcases step_pause host next stack session with heq | heq <;> rw [heq]

end Session

namespace Traffic

variable {host : Host σ H} {traffic : Traffic σ H} {event : TrafficEvent σ H} {key : String}
  {handle : Handle}

/-- Whether an event clears the modules, reloads this one, or ends a load, though not one of
this module with success. -/
def mayDrop (host : Host σ H) (key : String) (traffic : Traffic σ H) :
    TrafficEvent σ H → Bool
  | .operated .clearModules => true
  | .advanced index =>
    match traffic.tasks[index]? with
    | some task => traffic.session.mayDrop host key task.focus
    | none => false
  | _ => false

/-- An event that drops or fails the record of a module: by clearing, by a reload, by
eviction, or because its load fails. -/
structure Drops (host : Host σ H) (key : String) (traffic : Traffic σ H)
    (event : TrafficEvent σ H) : Prop where
  cause : traffic.mayDrop host key event = true
  loss : ¬ Session.Keeps key traffic.session (traffic.after host event).session

/-- Nothing else costs a module its record if caching is enabled. -/
theorem Reached.keeps (h : Reached host traffic)
    (hc : traffic.session.loader.config.enableCache = true) (hd : ¬ Drops host key traffic event) :
    Session.Keeps key traffic.session (traffic.after host event).session := by
  cases hm : traffic.mayDrop host key event with
  | true => exact Classical.byContradiction fun hloss => hd ⟨hm, hloss⟩
  | false =>
      cases event with
      | operated operation =>
          refine Session.perform_keeps ?_
          rintro rfl
          cases hm
      | advanced index =>
          cases htask : traffic.tasks[index]? with
          | none =>
              rw [Traffic.after, htask]
              exact Session.keeps_of_eq rfl
          | some task =>
              unfold mayDrop at hm
              simp only [htask] at hm
              rw [Traffic.after, htask, session_proceed]
              exact Session.keeps_step host (h.isHonored.inFlight.perm (claims_perm htask)) h.tabled
                hc hm
      | dropped index =>
          refine Session.keeps_of_eq ?_
          unfold Traffic.after
          simp only
          split <;> rfl
      | _ => exact Session.keeps_of_eq rfl

/-- Caching stays as it was configured. -/
theorem Reached.enableCache (h : Reached host traffic) (event : TrafficEvent σ H) :
    (traffic.after host event).session.loader.config.enableCache =
      traffic.session.loader.config.enableCache :=
  congrArg (fun settings => settings.1.enableCache) (h.turn event).2

/-- A module that is there stays there with its exports. -/
theorem Reached.holds_after (h : Reached host traffic)
    (hc : traffic.session.loader.config.enableCache = true) (hd : ¬ Drops host key traffic event)
    (hh : traffic.session.loader.registry.Holds key handle) :
    (traffic.after host event).session.loader.registry.Holds key handle := by
  obtain ⟨id, record, hl, hr, he, hs⟩ := hh
  have hlive : record.state ≠ .errored := by
    rcases hs with hs | hs <;> rw [hs] <;> decide
  obtain ⟨now, hnow, hstill⟩ := h.keeps hc hd id record hl hr hlive
  obtain ⟨before, hbefore, hbecomes⟩ :=
    (h.turn event).1.precedes.origin hnow (Registry.index_lt hr)
  rw [hr] at hbefore
  cases hbefore
  obtain ⟨found, hfound, hkey, -⟩ := h.isHonored.inFlight.sound.of_lookup hl
  rw [hr] at hfound
  cases hfound
  refine ⟨id, now, ?_, hnow, hbecomes.exports he, ?_⟩
  · rw [← hkey, ← hbecomes.key]
    exact (h.step event).isHonored.inFlight.sound.lookup_key hnow
  · have hrank := hbecomes.rank
    revert hrank hstill
    rcases hs with hs | hs <;> rw [hs] <;> cases now.state <;> simp [ModuleState.rank]

/-! ## Runs -/

/-- What loads do in a run of events, in order. -/
def acts (host : Host σ H) : Traffic σ H → List (TrafficEvent σ H) → List LoadDeed
  | _, [] => []
  | traffic, event :: events =>
    (traffic.act? host event).toList ++ acts host (traffic.after host event) events

/-- In a run of events none drops or fails the record of a module. -/
def NeverDrops (host : Host σ H) (key : String) : Traffic σ H → List (TrafficEvent σ H) → Prop
  | _, [] => True
  | traffic, event :: events =>
    ¬ Drops host key traffic event ∧ NeverDrops host key (traffic.after host event) events

theorem Reached.holds_afterAll (h : Reached host traffic)
    (hc : traffic.session.loader.config.enableCache = true) {events : List (TrafficEvent σ H)}
    (hd : NeverDrops host key traffic events)
    (hh : traffic.session.loader.registry.Holds key handle) :
    (traffic.afterAll host events).session.loader.registry.Holds key handle := by
  induction events generalizing traffic with
  | nil => exact hh
  | cons event events ih =>
      exact ih (h.step event) ((h.enableCache event).trans hc) hd.2 (h.holds_after hc hd.1 hh)

/-- A body does not begin while its module is there or running. -/
theorem Reached.runs_of_holds (h : Reached host traffic)
    (hh : traffic.session.loader.registry.Holds key handle) {act : LoadDeed}
    (ha : traffic.act? host event = some act) : act.runs key = false := by
  cases hruns : act.runs key with
  | false => rfl
  | true =>
      cases h.attests ha with
      | @ran load _ record _ hr hk hfirst _ _ _ _ _ =>
          obtain ⟨id, found, hl, hfound, -, hs⟩ := hh
          have hid := h.isHonored.inFlight.sound.lookup_key hr
          rw [hk, of_decide_eq_true hruns, hl] at hid
          cases hid
          rw [hr] at hfound
          cases hfound
          rcases hs with hs | hs <;> rw [hs] at hfirst <;> cases hfirst
      | _ => cases hruns

theorem Reached.countP_of_holds (h : Reached host traffic)
    (hc : traffic.session.loader.config.enableCache = true) {events : List (TrafficEvent σ H)}
    (hd : NeverDrops host key traffic events)
    (hh : traffic.session.loader.registry.Holds key handle) :
    (traffic.acts host events).countP (·.runs key) = 0 := by
  induction events generalizing traffic with
  | nil => rfl
  | cons event events ih =>
      have hrest := ih (h.step event) ((h.enableCache event).trans hc) hd.2
        (h.holds_after hc hd.1 hh)
      unfold acts
      rw [List.countP_append, hrest]
      cases ha : traffic.act? host event with
      | none => rfl
      | some act => simp [h.runs_of_holds hh ha]

/-- The modules that are handed on in a run of events, in order: to the programs that asked for
them, to the embedder, and on the way there. -/
def handed (host : Host σ H) : Traffic σ H → List (TrafficEvent σ H) → List LoadedModule
  | _, [] => []
  | traffic, event :: events =>
    (traffic.handed? event).toList ++ handed host (traffic.after host event) events

/-- What it means that a module has one instance in a run of events. -/
structure HasOneInstance (host : Host σ H) (key : String) (traffic : Traffic σ H)
    (events : List (TrafficEvent σ H)) : Prop where
  /-- Its body begins at most once. -/
  once : (traffic.acts host events).countP (·.runs key) ≤ 1
  /-- Whatever table a body of it fills, or a load of it gives, is the table of the record
  there is in the end. -/
  same : ∀ act ∈ traffic.acts host events, ∀ handle, act.module? = some (key, handle) →
    (traffic.afterAll host events).session.loader.registry.Holds key handle
  /-- Whatever table is handed on as that of the module is this one too, unless it already was
  when the run began. -/
  handed : (∀ task ∈ traffic.tasks, ∀ handle, task.focus.module? ≠ some (key, handle)) →
    ∀ handle, (key, handle) ∈ traffic.handed host events →
      (traffic.afterAll host events).session.loader.registry.Holds key handle
  /-- When the embedder then requires it, with whatever specifier, the table that is given is
  the one the registry holds. -/
  required : ∀ steps specifier base handle,
    ((traffic.afterAll host events).session.answer host steps (.require specifier base)).1 =
        some (.ok (key, handle)) →
      ((traffic.afterAll host events).session.answer host steps
        (.require specifier base)).2.loader.registry.Holds key handle

/-- The exports an act gives are held by the registry until the end of the run. -/
theorem Reached.same (h : Reached host traffic)
    (hc : traffic.session.loader.config.enableCache = true) {events : List (TrafficEvent σ H)}
    (hd : NeverDrops host key traffic events) {act : LoadDeed}
    (ha : act ∈ traffic.acts host events) (hm : act.module? = some (key, handle)) :
    (traffic.afterAll host events).session.loader.registry.Holds key handle := by
  induction events generalizing traffic with
  | nil => cases ha
  | cons event events ih =>
      have hnext := h.step event
      have hcache := (h.enableCache event).trans hc
      rcases List.mem_append.mp ha with hfirst | hrest
      · have hact := Option.mem_toList.mp hfirst
        have hholds := (h.attests hact).holds hnext.isHonored.inFlight.sound hm
        exact hnext.holds_afterAll hcache hd.2 hholds
      · exact ih hnext hcache hd.2 hrest

/-- What is handed on is held by the registry until the end of the run. -/
theorem Reached.handed (h : Reached host traffic)
    (hc : traffic.session.loader.config.enableCache = true) {events : List (TrafficEvent σ H)}
    (hd : NeverDrops host key traffic events) (hg : traffic.IsGiven (· = key))
    (hm : (key, handle) ∈ traffic.handed host events) :
    (traffic.afterAll host events).session.loader.registry.Holds key handle := by
  induction events generalizing traffic with
  | nil => cases hm
  | cons event events ih =>
      have hcache := (h.enableCache event).trans hc
      rcases List.mem_append.mp hm with hfirst | hrest
      · have hholds := hg.holds rfl (Option.mem_toList.mp hfirst)
        exact h.holds_afterAll hc hd hholds
      · have hnext : (traffic.after host event).IsGiven (· = key) := by
          refine h.isGiven_after hg ?_
          rintro _ _ rfl hholds
          exact h.holds_after hc hd.1 hholds
        exact ih (h.step event) hcache hd.2 hnext hrest

theorem Reached.once (h : Reached host traffic)
    (hc : traffic.session.loader.config.enableCache = true) {events : List (TrafficEvent σ H)}
    (hd : NeverDrops host key traffic events) :
    (traffic.acts host events).countP (·.runs key) ≤ 1 := by
  induction events generalizing traffic with
  | nil => exact Nat.zero_le _
  | cons event events ih =>
      have hnext := h.step event
      have hcache := (h.enableCache event).trans hc
      unfold acts
      rw [List.countP_append]
      cases ha : traffic.act? host event with
      | none =>
          rw [Option.toList_none, List.countP_nil, Nat.zero_add]
          exact ih hnext hcache hd.2
      | some act =>
          cases hruns : act.runs key with
          | false =>
              simp only [Option.toList_some, List.countP_singleton, hruns, Bool.false_eq_true,
                if_false, Nat.zero_add]
              exact ih hnext hcache hd.2
          | true =>
              -- From here on the module is there, so no body of it begins again.
              obtain ⟨load, handle, rfl, rfl⟩ : ∃ load handle, act = .ran load handle ∧
                  load.key = key := by
                cases act with
                | ran load handle => exact ⟨load, handle, rfl, of_decide_eq_true hruns⟩
                | _ => cases hruns
              have hholds := (h.attests ha).holds hnext.isHonored.inFlight.sound rfl
              rw [hnext.countP_of_holds hcache hd.2 hholds]
              exact List.countP_le_length

/-- All through every run of a loader with caching, a module has one instance as long as
nothing drops or fails its record. -/
theorem Reached.hasOneInstance (h : Reached host traffic)
    (hc : traffic.session.loader.config.enableCache = true) {events : List (TrafficEvent σ H)}
    (hd : NeverDrops host key traffic events) : HasOneInstance host key traffic events := by
  refine ⟨h.once hc hd, fun _ ha _ hm => h.same hc hd ha hm, ?_, ?_⟩
  · intro hnone handle hm
    refine h.handed hc hd (h.isGiven_of_none ?_) hm
    rintro task htask _ handle rfl
    exact hnone task htask handle
  · intro steps specifier base handle hv
    exact (h.afterAll events).holds_of_answer steps hv

/-! ## A module that requires itself -/

/-- Whether no event of a run clears the modules, reloads the module or ends another load. -/
def isQuiet (host : Host σ H) (key : String) : Traffic σ H → List (TrafficEvent σ H) → Bool
  | _, [] => true
  | traffic, event :: events =>
    !traffic.mayDrop host key event && isQuiet host key (traffic.after host event) events

theorem neverDrops_of_isQuiet {events : List (TrafficEvent σ H)}
    (hq : isQuiet host key traffic events = true) : NeverDrops host key traffic events := by
  induction events generalizing traffic with
  | nil => trivial
  | cons event events ih =>
      obtain ⟨hfirst, hrest⟩ := Bool.and_eq_true_iff.mp hq
      refine ⟨fun hdrops => ?_, ih hrest⟩
      rw [hdrops.cause] at hfirst
      cases hfirst

/-- A host whose modules require the module `m`.  Specifiers are canonical ids. -/
def cyclicHost : Host Unit Unit where
  engine := "1"
  resolve _ specifier _ := .done (.ok ⟨specifier, some .script, true⟩)
  load _ _ _ := .done (.ready (.ok ⟨.script, some [], true⟩))
  compile source _ := .done (.ok source)
  execute _ _ _ := .ask (.dependency "m") fun _ => .done (.ok ())

/-- The loader of this host with its hooks registered. -/
def cyclicLoader : Traffic Unit Unit :=
  idleLoader.afterAll cyclicHost
    [.operated (.register (some { resolve := some (), load := some () }))]

/-- The module is required, and when this is over, required again. -/
def requiredAgain : List (TrafficEvent Unit Unit) :=
  .required "m" (.ofString "/") :: List.replicate 10 (.advanced 0) ++
    .required "m" (.ofString "/") :: List.replicate 3 (.advanced 0)

/-- The body begins once, on a table that is given to itself, to the load that began it and to
the later one, each time in two steps. -/
theorem hasOneInstance_requiredAgain :
    (cyclicLoader.acts cyclicHost requiredAgain).filterMap (·.module?) =
        List.replicate 4 ("m", ⟨0⟩) ∧
      cyclicLoader.handed cyclicHost requiredAgain = List.replicate 6 ("m", ⟨0⟩) ∧
      HasOneInstance cyclicHost "m" cyclicLoader requiredAgain := by
  have hreached : Reached cyclicHost cyclicLoader := (reached_idleLoader cyclicHost).afterAll _
  exact ⟨by decide +kernel, by decide +kernel,
    hreached.hasOneInstance rfl (neverDrops_of_isQuiet (by decide +kernel))⟩

end Traffic

end ScriptModules
