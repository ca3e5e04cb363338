import ScriptModules.Proofs.Loader.Traffic

/-!
# Modules are loaded one at a time

However imports, requires, reloads, clears and callbacks are interleaved, a module is
never loaded twice at a time.  The load that made a record keeps it until it finishes
it: nothing replaces, evicts, invalidates or clears the record before.  So the body of
a module always begins on the record of its load, and its end always finds it.  A second
load of the module meanwhile gets the exports of the running body, or is refused.

The invariant is that the registry honors the claims of all frames of all tasks.
-/

namespace ScriptModules

open Registry (Claim InFlight)

variable {σ H : Type} {n : Kind}

/-! ## Claims and states -/

/-- A claim of a load: its body runs and fills known exports, or it is yet to begin. -/
def Registry.Claim.IsOfLoad (claim : Claim) : Prop :=
  (claim.state = .executing ∧ claim.exports.isSome = true) ∨
    (claim.state.canAdvance .executing = true ∧ claim.exports = none)

theorem Frame.of_mem_claims {k m : Kind} {frame : Frame σ H k m} {claim : Claim}
    (h : claim ∈ frame.claims) : claim.IsOfLoad := by
  cases frame with
  | asking next => cases h
  | counting => cases h
  | resolving order => cases h
  | reloading reload => cases h
  | renewing reload key wasCached => cases h
  | fetching load mode =>
      rw [List.mem_singleton.mp h]
      exact Or.inr ⟨rfl, rfl⟩
  | awaiting load =>
      rw [List.mem_singleton.mp h]
      exact Or.inr ⟨rfl, rfl⟩
  | compiling load source fingerprint =>
      rw [List.mem_singleton.mp h]
      exact Or.inr ⟨rfl, rfl⟩
  | executing load exports =>
      rw [List.mem_singleton.mp h]
      exact Or.inl ⟨rfl, rfl⟩

theorem Stack.of_mem_claims {k : Kind} {stack : Stack σ H k n} {claim : Claim}
    (h : claim ∈ stack.claims) : claim.IsOfLoad := by
  induction stack with
  | nil => cases h
  | cons frame rest ih =>
      rcases List.mem_append.mp h with hframe | hrest
      · exact Frame.of_mem_claims hframe
      · exact ih hrest

namespace Session

variable {session : Session σ H} {claims : List Claim} {claim : Claim}

/-! ## A second load -/

/-- While its body runs, a module is served as it is. -/
theorem servedExports_of_executing (h : InFlight session.loader.registry claims)
    (hc : claim ∈ claims) {handle : Handle} (hs : claim.state = .executing)
    (he : claim.exports = some handle) :
    session.servedExports claim.key = (.ok (some handle), session) := by
  obtain ⟨record, hl, hf, -, hstate, -, hexports⟩ := h.find? hc
  unfold servedExports
  simp only [hl, hf, hstate.trans hs, hexports handle he]

/-- Before its body runs, a module that is being loaded is refused. -/
theorem servedExports_of_not_executing (h : InFlight session.loader.registry claims)
    (hc : claim ∈ claims) (hs : claim.state.canAdvance .executing = true) :
    session.servedExports claim.key = (.error (.loadInProgress claim.key), session) := by
  obtain ⟨record, hl, hf, -, hstate, -⟩ := h.find? hc
  unfold servedExports
  simp only [hl, hf]
  cases hclaim : claim.state with
  | unresolved => simp only [hstate.trans hclaim]
  | resolving => simp only [hstate.trans hclaim]
  | compiling => simp only [hstate.trans hclaim]
  | executing =>
      rw [hclaim] at hs
      cases hs
  | complete =>
      rw [hclaim] at hs
      cases hs
  | errored =>
      rw [hclaim] at hs
      cases hs

/-- A module that is being loaded is not reloaded. -/
theorem receiveReload_of_inFlight (host : Host σ H) (reload : Reload) {resolution : Resolution}
    (stack : Stack σ H .reload n) (h : InFlight session.loader.registry claims)
    (hc : claim ∈ claims) (hkey : resolution.url = claim.key)
    (hb : textAfter? builtinPrefix claim.key = none) :
    receiveReload host reload (.ok resolution) stack session =
      finishReload reload (some claim.key) false (.error (.loadInProgress claim.key)) stack
        session := by
  obtain ⟨record, -, hf, -, -, hflight, -⟩ := h.find? hc
  unfold receiveReload
  simp only [hkey, hb, hf, Option.any_some, hflight, Bool.not_false, if_pos]

end Session

namespace Traffic

variable {host : Host σ H} {traffic : Traffic σ H} {claim : Claim}

/-! ## The invariant -/

/-- The registry honors all claims, and all are claims of loads. -/
structure IsHonored (traffic : Traffic σ H) : Prop where
  inFlight : InFlight traffic.session.loader.registry traffic.claims
  ofLoads : ∀ claim ∈ traffic.claims, claim.IsOfLoad

/-- Where the load of a claim may come to by an event: it goes on with the same record,
or a step of its own task has settled the record. -/
def Lasts (host : Host σ H) (traffic : Traffic σ H) (event : TrafficEvent σ H) (claim : Claim) :
    Prop :=
  Session.GoesOn claim (traffic.after host event).claims ∨
    ∃ index task, event = .advanced index ∧ traffic.tasks[index]? = some task ∧
      claim ∈ task.focus.leading ∧
        (traffic.after host event).session.loader.registry.Settled claim

/-- An event that leaves all claims as they are keeps them honored. -/
theorem IsHonored.of_perm (h : traffic.IsHonored) {next : Traffic σ H}
    (hp : traffic.claims.Perm next.claims)
    (hinFlight : InFlight next.session.loader.registry traffic.claims) :
    next.IsHonored ∧ ∀ claim ∈ traffic.claims, Session.GoesOn claim next.claims := by
  refine ⟨⟨hinFlight.perm hp, fun claim hclaim => h.ofLoads claim (hp.mem_iff.mpr hclaim)⟩, ?_⟩
  intro claim hclaim
  exact Session.goesOn_of_mem (hp.mem_iff.mp hclaim)

/-- A task that claims nothing may be started. -/
theorem claims_start {started : Focus σ H n × Session σ H} (hs : started.1.claims = []) :
    (traffic.start started).claims = traffic.claims := by
  unfold claims start
  simp only [List.flatMap_append, List.flatMap_cons, List.flatMap_nil, hs, List.append_nil]

/-- A step of one task keeps the claims of all tasks honored. -/
theorem IsHonored.proceed (host : Host σ H) (h : traffic.IsHonored) {index : Nat} {task : Task σ H}
    (ht : traffic.tasks[index]? = some task) :
    (traffic.proceed index (traffic.session.step host task.focus)).IsHonored ∧
      ∀ claim ∈ traffic.claims,
        Session.GoesOn claim (traffic.proceed index (traffic.session.step host task.focus)).claims ∨
          (claim ∈ task.focus.leading ∧
            (traffic.session.step host task.focus).2.loader.registry.Settled claim) := by
  have hbefore := claims_perm ht
  have hafter := claims_proceed ht (traffic.session.step host task.focus)
  have hleaves := Session.leaves_step host task.focus (h.inFlight.perm hbefore)
  refine ⟨⟨?_, ?_⟩, ?_⟩
  · rw [session_proceed]
    exact hleaves.inFlight.perm hafter.symm
  · intro claim hclaim
    rcases List.mem_append.mp (hafter.mem_iff.mp hclaim) with hown | hother
    · cases hprogress : (traffic.session.step host task.focus).1 with
      | finished value =>
          rw [hprogress] at hown
          cases hown
      | running focus =>
          rw [hprogress] at hown
          exact Stack.of_mem_claims hown
      | suspended focus =>
          rw [hprogress] at hown
          exact Stack.of_mem_claims hown
    · exact h.ofLoads claim (hbefore.mem_iff.mpr (List.mem_append_right _ hother))
  · intro claim hclaim
    rcases List.mem_append.mp (hbefore.mem_iff.mp hclaim) with hown | hother
    · rcases hleaves.kept claim hown with ⟨moved, hmem, hid, hkey⟩ | hsettled
      · exact Or.inl ⟨moved, hafter.mem_iff.mpr (List.mem_append_left _ hmem), hid, hkey⟩
      · exact Or.inr hsettled
    · exact Or.inl (Session.goesOn_of_mem
        (hafter.mem_iff.mpr (List.mem_append_right _ hother)))

/-- Every event keeps claims honored, and every load goes on or is finished by its own
task. -/
theorem IsHonored.after (h : traffic.IsHonored) (event : TrafficEvent σ H) :
    (traffic.after host event).IsHonored ∧
      ∀ claim ∈ traffic.claims, traffic.Lasts host event claim := by
  have hquiet : ∀ {next : Traffic σ H}, traffic.after host event = next →
      traffic.claims.Perm next.claims →
      InFlight next.session.loader.registry traffic.claims →
      (traffic.after host event).IsHonored ∧
        ∀ claim ∈ traffic.claims, traffic.Lasts host event claim := by
    rintro next rfl hp hinFlight
    obtain ⟨hhonored, hkept⟩ := h.of_perm hp hinFlight
    exact ⟨hhonored, fun claim hclaim => Or.inl (hkept claim hclaim)⟩
  cases event with
  | imported specifier base =>
      exact hquiet rfl (.of_eq (claims_start rfl).symm) (h.inFlight.of_eq rfl rfl rfl)
  | required specifier base =>
      exact hquiet rfl (.of_eq (claims_start rfl).symm) (h.inFlight.of_eq rfl rfl rfl)
  | resolved specifier base =>
      exact hquiet rfl (.of_eq (claims_start rfl).symm) (h.inFlight.of_eq rfl rfl rfl)
  | reloaded specifier base =>
      exact hquiet rfl (.of_eq (claims_start rfl).symm) (h.inFlight.of_eq rfl rfl rfl)
  | operated operation =>
      exact hquiet rfl (.refl _) (Session.inFlight_perform h.inFlight operation)
  | changed surroundings => exact hquiet rfl (.refl _) h.inFlight
  | advanced index =>
      cases ht : traffic.tasks[index]? with
      | none =>
          have hsame : traffic.after host (.advanced index) = traffic := by
            rw [Traffic.after, ht]
          exact hquiet hsame (.refl _) h.inFlight
      | some task =>
          have hnext : traffic.after host (.advanced index) =
              traffic.proceed index (traffic.session.step host task.focus) := by
            rw [Traffic.after, ht]
          obtain ⟨hhonored, hkept⟩ := h.proceed host ht
          rw [hnext]
          refine ⟨hhonored, fun claim hclaim => ?_⟩
          rcases hkept claim hclaim with hgoes | ⟨hleading, hsettled⟩
          · exact Or.inl (hnext ▸ hgoes)
          · refine Or.inr ⟨index, task, rfl, ht, hleading, ?_⟩
            rw [hnext, session_proceed]
            exact hsettled
  | dropped index =>
      cases ht : traffic.tasks[index]? with
      | none =>
          have hsame : traffic.after host (.dropped index) = traffic := by
            rw [Traffic.after, ht]
          exact hquiet hsame (.refl _) h.inFlight
      | some task =>
          have hnext : traffic.after host (.dropped index) =
              { traffic with
                tasks := traffic.tasks.eraseIdx index
                abandoned := task.focus.claims ++ traffic.abandoned } := by
            rw [Traffic.after, ht]
          exact hquiet hnext (claims_drop ht) h.inFlight

/-- A loader that was opened has no records, and it resolves by its own configuration. -/
theorem openWith_ok {config : Config} {before files : FileSystem} {loader : Loader H}
    (h : Loader.openWith config before = (.ok loader, files)) :
    loader.registry = { maxSize := config.maxCacheSize } ∧ loader.config = config ∧
      loader.resolver = .ofConfig config := by
  unfold Loader.openWith at h
  split at h
  · cases h
  · split at h
    · cases h
      exact ⟨rfl, rfl, rfl⟩
    · split at h
      · cases h
        exact ⟨rfl, rfl, rfl⟩
      · cases h

/-- Whatever a loader comes to, its registry honors all claims. -/
theorem Reached.isHonored (h : Reached host traffic) : traffic.IsHonored := by
  induction h with
  | opened surroundings hopen =>
      rename_i config before loader
      refine ⟨?_, fun _ hclaim => (nomatch hclaim)⟩
      show InFlight loader.registry []
      rw [(openWith_ok hopen).1]
      exact Registry.inFlight_empty _
  | step event _ ih => exact (ih.after event).1

/-! ## Single flight -/

/-- What single flight means in a loader at one moment of a run. -/
structure IsSingleFlight (host : Host σ H) (traffic : Traffic σ H) : Prop where
  /-- For each canonical id at most one load is under way. -/
  distinct : (traffic.claims.map (·.key)).Nodup
  /-- The record of each load stands under its canonical id, where the load has brought it
  to; if its body runs, the exports it fills are those of the record. -/
  found : ∀ claim ∈ traffic.claims, ∃ record,
    traffic.session.loader.registry.lookup? claim.key = some claim.id ∧
      traffic.session.loader.registry.get? claim.id = some record ∧
        record.state = claim.state ∧ record.state.isTerminal = false ∧
          ∀ exports, claim.exports = some exports → record.exports = some exports
  /-- No other record is in flight. -/
  claimed : ∀ {id record}, traffic.session.loader.registry.get? id = some record →
    record.state.isTerminal = false → ∃ claim ∈ traffic.claims, claim.id = id
  /-- A body that has not begun can begin on the record of its load. -/
  begins : ∀ claim ∈ traffic.claims, claim.state ≠ .executing → ∀ store,
    (traffic.session.loader.registry.beginExecution store claim.id).1.isSome = true
  /-- A second load gets the exports of the running body, or is refused. -/
  second : ∀ claim ∈ traffic.claims, ∀ {n : Kind} (order : LoadOrder) (resolution : Resolution)
    (stack : Stack σ H .module n), resolution.url = claim.key →
      Session.receiveResolution host order (.ok resolution) stack traffic.session =
        match claim.exports with
        | some handle => Session.give (.ok (claim.key, handle)) stack traffic.session
        | none => Session.give (.error (.loadInProgress claim.key)) stack traffic.session
  /-- A reload is refused; one of a built-in module touches no record. -/
  reload : ∀ claim ∈ traffic.claims, ∀ {n : Kind} (reload : Reload) (resolution : Resolution)
    (stack : Stack σ H .reload n), resolution.url = claim.key →
      textAfter? builtinPrefix claim.key = none →
        Session.receiveReload host reload (.ok resolution) stack traffic.session =
          Session.finishReload reload (some claim.key) false (.error (.loadInProgress claim.key))
            stack traffic.session
  /-- Whatever happens next, each load goes on with its record, or a step of its own task
  settles the record. -/
  lasts : ∀ event, ∀ claim ∈ traffic.claims, traffic.Lasts host event claim

/-- Before its body runs, nothing keeps a record from executing. -/
theorem IsHonored.begins (h : traffic.IsHonored) (hc : claim ∈ traffic.claims)
    (hs : claim.state ≠ .executing) (store : ExportTables) :
    (traffic.session.loader.registry.beginExecution store claim.id).1.isSome = true := by
  obtain ⟨record, hr, -, hstate, -⟩ := h.inFlight.carried claim hc
  rcases h.ofLoads claim hc with ⟨hrunning, -⟩ | ⟨hadvance, -⟩
  · exact absurd hrunning hs
  · obtain ⟨handle, hbegun, -⟩ :=
      Registry.sets_beginExecution store hr (hstate ▸ hadvance)
    rw [hbegun]
    rfl

theorem IsHonored.second (h : traffic.IsHonored) (hc : claim ∈ traffic.claims) {n : Kind}
    (order : LoadOrder) {resolution : Resolution} (stack : Stack σ H .module n)
    (hkey : resolution.url = claim.key) :
    Session.receiveResolution host order (.ok resolution) stack traffic.session =
      match claim.exports with
      | some handle => Session.give (.ok (claim.key, handle)) stack traffic.session
      | none => Session.give (.error (.loadInProgress claim.key)) stack traffic.session := by
  rcases h.ofLoads claim hc with ⟨hrunning, hsome⟩ | ⟨hadvance, hnone⟩
  · obtain ⟨handle, hhandle⟩ := Option.isSome_iff_exists.mp hsome
    have hserved := Session.servedExports_of_executing h.inFlight hc hrunning hhandle
    unfold Session.receiveResolution
    simp only [hkey, hserved, hhandle]
  · have hrefused := Session.servedExports_of_not_executing h.inFlight hc hadvance
    unfold Session.receiveResolution
    simp only [hkey, hrefused, hnone]

/-- All through every run of a loader modules are loaded one at a time. -/
theorem Reached.isSingleFlight (h : Reached host traffic) : traffic.IsSingleFlight host := by
  have hhonored := h.isHonored
  refine ⟨hhonored.inFlight.keys_nodup, ?_, hhonored.inFlight.claimed, ?_, ?_, ?_, ?_⟩
  · intro claim hc
    obtain ⟨record, hl, -, hr, hrest⟩ := hhonored.inFlight.find? hc
    exact ⟨record, hl, hr, hrest⟩
  · intro claim hc hs store
    exact hhonored.begins hc hs store
  · intro claim hc n order resolution stack hkey
    exact hhonored.second hc order stack hkey
  · intro claim hc n reload resolution stack hkey hb
    exact Session.receiveReload_of_inFlight host reload stack hhonored.inFlight hc hkey hb
  · intro event claim hc
    exact (hhonored.after event).2 claim hc

/-! ## A suspended import -/

/-- A host whose load hook defers its reply.  Specifiers are canonical ids. -/
def deferringHost : Host Unit Unit where
  engine := "1"
  resolve _ specifier _ := .done (.ok ⟨specifier, some .script, true⟩)
  load _ _ _ := .done (.deferred (.ask .pause fun _ => .done (.ok ⟨.script, some [], true⟩)))
  compile source _ := .done (.ok source)
  execute _ _ _ := .done (.ok ())

/-- One import of a module is suspended, and a second one has come as far as the
registry. -/
def importedTwice : List (TrafficEvent Unit Unit) :=
  [.operated (.register (some { resolve := some (), load := some () })),
    .imported "m" (.ofString "/"), .advanced 0, .advanced 0, .advanced 0,
    .imported "m" (.ofString "/"), .advanced 1]

/-- The loader before. -/
def idleLoader : Traffic Unit Unit :=
  { session := {
      files := .empty, exports := {}, state := ()
      loader := { config := {}, resolver := .ofConfig {}, registry := { maxSize := 1000 }, cache := none } } }

/-- Both imports are under way, but only one of them loads the module. -/
theorem isSingleFlight_importedTwice :
    (importedTwice.foldl (after deferringHost) idleLoader).claims.map (·.key) = ["m"] ∧
      (importedTwice.foldl (after deferringHost) idleLoader).tasks.length = 2 ∧
        (importedTwice.foldl (after deferringHost) idleLoader).IsSingleFlight deferringHost := by
  have hopen : Loader.openWith {} .empty = (.ok idleLoader.session.loader, .empty) := rfl
  have hidle : Reached deferringHost idleLoader :=
    .opened { files := .empty, exports := {}, state := () } hopen
  have hreached : ∀ (events : List (TrafficEvent Unit Unit)) {traffic : Traffic Unit Unit},
      Reached deferringHost traffic →
        Reached deferringHost (events.foldl (after deferringHost) traffic) := by
    intro events
    induction events with
    | nil => exact fun h => h
    | cons event events ih => exact fun h => ih (h.step event)
  exact ⟨by decide +kernel, by decide +kernel, (hreached importedTwice hidle).isSingleFlight⟩

end Traffic

end ScriptModules
