import ScriptModules.Proofs.Loader.Plain
import ScriptModules.Proofs.Resolver.Names

/-!
# Built-in modules and the table

The exports of a built-in module stand in two places: in the table of built-in modules, and
in the record of the module once it has been loaded.  A load serves the record where there is
one.  So both have to agree for the table to be served (`Session.Tabulates`), and they do as
long as no other exports are given for a name that has been loaded
(`Traffic.alwaysServesTable_iff`).  From then on loads go on serving what was given before,
until the record is dropped; a reload reports what the table has, but leaves the record.

There may be names that cannot be asked for, since a specifier has no null bytes.
-/

namespace ScriptModules

open Registry (Claim InFlight Exposes)

variable {σ H : Type} {n : Kind}

namespace Session

variable {host : Host σ H} {session : Session σ H} {claims : List Claim} {load : Load}

/-! ## What the registry serves -/

/-- The registry has a module there for a key, or one whose body is running. -/
def Serves (session : Session σ H) (key : String) (handle : Handle) : Prop :=
  (session.servedExports key).1 = .ok (some handle)

theorem serves_iff {key : String} {handle : Handle} (hs : session.loader.registry.Sound) :
    session.Serves key handle ↔ ∃ id record, session.loader.registry.get? id = some record ∧
      record.key = key ∧ record.exports = some handle ∧
      (record.state = .executing ∨
        (record.state = .complete ∧ session.loader.config.enableCache = true)) := by
  constructor
  · intro h
    have hdecides := servedExports_decides key hs
    unfold Serves at h
    generalize session.servedExports key = served at h hdecides
    cases hdecides with
    | @served id record _ _ hl hr he hstate _ _ _ =>
        cases h
        obtain ⟨found, hfound, hkey, -⟩ := hs.of_lookup hl
        cases hr.symm.trans hfound
        exact ⟨id, record, hr, hkey, he, hstate⟩
    | refused => cases h
    | free _ => cases h
  · rintro ⟨id, record, hr, rfl, he, hstate⟩
    have hl := hs.lookup_key hr
    have hf : session.loader.registry.find? record.key = some record :=
      hs.find?_eq_some_iff.mpr ⟨id, hr, rfl⟩
    unfold Serves servedExports
    simp only [hl, hf]
    rcases hstate with hstate | ⟨hstate, hcache⟩
    · simp only [hstate, he]
    · simp only [hstate, he, hcache, if_true]

/-- What is served later was served before, or its record has come to show its exports. -/
theorem Serves.of_later {after : Session σ H} {key : String} {handle : Handle}
    (h : after.Serves key handle) (hs : session.loader.registry.Sound)
    (hs' : after.loader.registry.Sound)
    (hc : after.loader.config.enableCache = session.loader.config.enableCache) :
    session.Serves key handle ∨ ∃ id record,
      Exposes session.loader.registry after.loader.registry id record ∧ record.key = key ∧
        record.exports = some handle := by
  obtain ⟨id, record, hr, hk, he, hstate⟩ := (serves_iff hs').mp h
  by_cases hsame : session.loader.registry.get? id = some record
  · rw [hc] at hstate
    exact Or.inl ((serves_iff hs).mpr ⟨id, record, hsame, hk, he, hstate⟩)
  · refine Or.inr ⟨id, record, ⟨hr, ?_, hsame⟩, hk, he⟩
    rcases hstate with hstate | ⟨hstate, -⟩ <;> rw [hstate] <;> rfl

/-- Whatever the registry serves of the built-in modules that can be asked for stands in the
table. -/
def Tabulates (session : Session σ H) : Prop :=
  ∀ name handle, Resolver.flaw? (builtinPrefix ++ name) = none →
    session.Serves (builtinPrefix ++ name) handle →
      session.loader.builtins.lookup name = some handle

/-- What touches neither records nor the table keeps them in accord. -/
theorem Tabulates.congr {after : Session σ H} (h : session.Tabulates)
    (hs : session.loader.registry.Sound) (hs' : after.loader.registry.Sound)
    (hr : after.loader.registry.records = session.loader.registry.records)
    (hc : after.loader.config.enableCache = session.loader.config.enableCache)
    (hb : after.loader.builtins = session.loader.builtins) : after.Tabulates := by
  intro name handle hf hserves
  rw [hb]
  rcases hserves.of_later hs hs' hc with hbefore | ⟨id, record, hexposes, -⟩
  · exact h _ _ hf hbefore
  · exact absurd hexposes (Registry.not_exposes_of_eq hr)

/-- A step that gives no built-in module leaves the registry in accord with the table. -/
theorem Tabulates.step (h : session.Tabulates) {focus : Focus σ H n} (hp : focus.IsPlain)
    (hi : InFlight session.loader.registry (focus.claims ++ claims))
    (ht : session.loader.registry.Tabled)
    (hs : (session.step host focus).2.loader.registry.Sound)
    (hb : (session.step host focus).2.loader.builtins = session.loader.builtins) :
    (session.step host focus).2.Tabulates := by
  intro name handle hf hserves
  have hc := congrArg (fun settings => settings.1.enableCache) (turn_step host focus hi ht).2
  rw [hb]
  rcases hserves.of_later hi.sound hs hc with hbefore | ⟨id, record, hexposes, hk, he⟩
  · exact h _ _ hf hbefore
  · obtain ⟨act, load, given, hact, hfilled, hkey, hexports⟩ := exposed_step host hi ht hexposes
    cases he.symm.trans hexports
    refine lookup_of_filled hp hact hfilled ?_
    rw [← hkey, hk]
    exact textAfter?_append ..

/-- So does an operation, unless it gives other exports than those that are served. -/
theorem Tabulates.perform (h : session.Tabulates) (hs : session.loader.registry.Sound)
    {operation : Operation σ H} (hs' : (session.perform operation).2.loader.registry.Sound)
    (ho : ∀ name handle old, operation = .defineBuiltin name handle →
      Resolver.flaw? (builtinPrefix ++ name) = none →
      session.Serves (builtinPrefix ++ name) old → old = handle) :
    (session.perform operation).2.Tabulates := by
  intro name handle hf hserves
  have hsettings : (session.perform operation).2.loader.settings = session.loader.settings :=
    (perform_turn operation).2
  have hc := congrArg (fun settings => settings.1.enableCache) hsettings
  rw [lookup_builtins_perform]
  rcases hserves.of_later hs hs' hc with hbefore | ⟨id, record, hexposes, -⟩
  · rcases offers_perform session operation with ⟨hnone, -⟩ | ⟨given, other, rfl⟩
    · rw [hnone]
      exact h _ _ hf hbefore
    · show List.lookup name ((given, other) :: session.loader.builtins) = _
      rw [List.lookup_cons]
      split
      · rename_i heq
        cases eq_of_beq heq
        rw [ho name other handle rfl hf hbefore]
      · exact h _ _ hf hbefore
  · exact absurd hexposes (drops_perform session operation).not_exposes

/-! ## Requiring -/

/-- A module that is served comes to its exports. -/
theorem comes_of_serves (host : Host σ H) (order : LoadOrder) (resolution : Resolution)
    {handle : Handle} (h : session.Serves resolution.url handle) :
    ∃ after, Comes host (receiveResolution host order (.ok resolution) .nil session).1
      (receiveResolution host order (.ok resolution) .nil session).2
      ((.ok (resolution.url, handle) : Except ModuleError LoadedModule) : Value σ H .module)
      after := by
  have hadmits := admits host order (.ok resolution) .nil session
  generalize receiveResolution host order (.ok resolution) .nil session = result at hadmits ⊢
  unfold Serves at h
  cases hadmits with
  | refused hserved =>
      rw [hserved] at h
      cases h
  | served hserved =>
      rw [hserved] at h
      cases h
      exact ⟨_, comes_done_iff.mpr ⟨rfl, rfl⟩⟩
  | begins hserved =>
      rw [hserved] at h
      cases h

/-- A built-in module that is not served is taken from the table. -/
theorem lookup_of_comes {mode : LoadMode} {context : LoadContext} {loaded : LoadedModule}
    {after : Session σ H}
    (h : Comes host ⟨.reply, loadDirectly load.key context, .cons (.fetching load mode) .nil⟩
      session ((.ok loaded : Except ModuleError LoadedModule) : Value σ H .module) after)
    {name : String} (hb : textAfter? builtinPrefix load.key = some name) :
    session.loader.builtins.lookup name = some loaded.2 := by
  have hsome : (textAfter? builtinPrefix load.key).isSome = true := by rw [hb]; rfl
  have hanswer := Loader.loadDefault_builtin session.loader.config session.files context hsome
  have hreceived := comes_resume_iff.mp ((comes_iff_of_running rfl).mp h)
  rw [hanswer] at hreceived
  change Comes host (receive host load ⟨.virtual, none, false⟩ .nil session).1
    (receive host load ⟨.virtual, none, false⟩ .nil session).2 _ _ at hreceived
  simp only [receive, finishBuiltin, hb, Option.getD_some] at hreceived
  split at hreceived
  · cases (comes_done_iff.mp hreceived).1
  · rename_i hlookup
    cases (comes_done_iff.mp hreceived).1
    exact hlookup

/-- What the load of a built-in module comes to is served, or it stands in the table. -/
theorem serves_or_lookup_of_comes (hh : session.loader.IsHookless) {order : LoadOrder}
    {resolution : Resolution} {name : String}
    (hb : textAfter? builtinPrefix resolution.url = some name) {loaded : LoadedModule}
    {after : Session σ H}
    (h : Comes host (receiveResolution host order (.ok resolution) .nil session).1
      (receiveResolution host order (.ok resolution) .nil session).2
      ((.ok loaded : Except ModuleError LoadedModule) : Value σ H .module) after) :
    session.Serves resolution.url loaded.2 ∨
      session.loader.builtins.lookup name = some loaded.2 := by
  have hadmits := admits host order (.ok resolution) .nil session
  generalize receiveResolution host order (.ok resolution) .nil session = result at hadmits h
  cases hadmits with
  | refused _ => cases (comes_done_iff.mp h).1
  | served hserved =>
      cases (comes_done_iff.mp h).1
      exact Or.inl (congrArg Prod.fst hserved)
  | begins _ =>
      have hbegun : (session.beginLoad resolution.url resolution.format
          order.base).2.loader.IsHookless := hh
      simp only [startFetch, loadWork_of_isHookless host hbegun] at h
      exact Or.inr (lookup_of_comes h hb)

/-- While the registry is in accord with the table, every load of a built-in module gives what
the table has. -/
theorem Tabulates.lookup_of_load (h : session.Tabulates) (hs : session.loader.registry.Sound)
    (hh : session.loader.IsHookless) {mode : LoadMode} {specifier name : String} {base : Path}
    {loaded : LoadedModule} {last : Session σ H}
    (hn : session.loader.resolver.builtinName? specifier = some name)
    (hl : Comes host (session.startLoad host mode specifier base .nil).1
      (session.startLoad host mode specifier base .nil).2
      ((.ok loaded : Except ModuleError LoadedModule) : Value σ H .module) last) :
    session.loader.builtins.lookup name = some loaded.2 := by
  obtain ⟨after, hafter, -⟩ := (comes_load_iff host hh mode specifier base rfl).mp hl
  generalize horder : session.orderIn mode specifier base = order at hafter
  have hresolved := Resolver.resolve_builtin session.files (contextOf order) hn
  have hspecifier : order.specifier = specifier := by rw [← horder]; rfl
  rw [← hspecifier] at hresolved
  cases hanswer : (session.resolveIn order).1 with
  | error e =>
      rw [hanswer] at hafter
      cases (comes_done_iff.mp hafter).1
  | ok resolution =>
      obtain ⟨rfl, hflaw⟩ := hresolved resolution hanswer
      rw [hanswer] at hafter
      have hsound : session.loader.registry.countStarted.Sound :=
        hs.reorder (fun _ => rfl) rfl hs.order_nodup hs.finished
      have htabulates : (session.resolvedIn host order).Tabulates :=
        h.congr hs hsound rfl rfl rfl
      have hoffers := offers_resolvedIn host session order
      have hb : textAfter? builtinPrefix (builtinPrefix ++ name) = some name :=
        textAfter?_append ..
      have hbuiltins : (session.resolvedIn host order).loader.builtins = session.loader.builtins :=
        congrArg Prod.fst hoffers
      rw [← hbuiltins]
      have hhookless : (session.resolvedIn host order).loader.IsHookless :=
        (congrArg Prod.snd hoffers).trans hh
      rcases serves_or_lookup_of_comes hhookless hb hafter with hserves | hlookup
      · exact htabulates _ _ hflaw hserves
      · exact hlookup

/-- Built-in modules are served from a table, in whichever form they are asked for. -/
structure ServesTable (host : Host σ H) (table : List (String × Handle)) (session : Session σ H) :
    Prop where
  /-- What a successful require or import gives. -/
  loads : ∀ mode specifier base name loaded last,
    session.loader.resolver.builtinName? specifier = some name →
    Comes host (session.startLoad host mode specifier base .nil).1
      (session.startLoad host mode specifier base .nil).2
      ((.ok loaded : Except ModuleError LoadedModule) : Value σ H .module) last →
    table.lookup name = some loaded.2
  /-- What a successful reload reports is what the next require gives. -/
  reloads : ∀ specifier base name report last content,
    session.loader.resolver.builtinName? specifier = some name →
    Answers host session (.reload specifier base) report last → report.outcome = .ok content →
    ∀ again place loaded after, last.loader.resolver.builtinName? again = some name →
      Answers host last (.require again place) (.ok loaded) after →
      content = last.exports.toJson loaded.2

theorem Tabulates.servesTable (h : session.Tabulates) (hs : session.loader.registry.Sound)
    (hh : session.loader.IsHookless) {table : List (String × Handle)}
    (ht : ∀ name, table.lookup name = session.loader.builtins.lookup name) :
    ServesTable host table session := by
  refine ⟨?_, ?_⟩
  · intro mode specifier base name loaded last hn hl
    rw [ht]
    exact h.lookup_of_load hs hh hn hl
  · intro specifier base name report last content hn hreload hcontent again place loaded after
      hagain hrequire
    obtain ⟨answer, middle, hresolve, hrenews⟩ := answers_reload_iff_renews.mp hreload
    obtain ⟨context, hanswer, -, hregistry, hconfig, hoffers⟩ :=
      answers_resolve_of_isHookless hh hresolve
    have hresolved := Resolver.resolve_builtin session.files context hn
    cases hrenews with
    | unresolved => cases hcontent
    | @builtin resolution own hb =>
        obtain ⟨rfl, -⟩ := hresolved resolution hanswer.symm
        cases (textAfter?_append builtinPrefix name).symm.trans hb
        have hlast : last.Tabulates := by
          refine h.congr hs (hregistry ▸ hs) (by rw [hregistry]) (by rw [hconfig]) ?_
          exact congrArg Prod.fst hoffers
        have hlookup := hlast.lookup_of_load (hregistry ▸ hs)
          ((congrArg Prod.snd hoffers).trans hh) hagain (answers_require_iff.mp hrequire)
        simp only [Reload.report, builtinResult, hlookup] at hcontent
        exact (Except.ok.inj hcontent).symm
    | @inFlight resolution hb _ =>
        obtain ⟨rfl, -⟩ := hresolved resolution hanswer.symm
        cases (textAfter?_append builtinPrefix name).symm.trans hb
    | @required resolution _ _ hb _ _ =>
        obtain ⟨rfl, -⟩ := hresolved resolution hanswer.symm
        cases (textAfter?_append builtinPrefix name).symm.trans hb

/-- What the registry serves of a built-in module, its id leads to. -/
theorem Serves.comes (host : Host σ H) {name : String} {handle : Handle}
    (h : session.Serves (builtinPrefix ++ name) handle)
    (hs : session.loader.registry.Sound) (hh : session.loader.IsHookless)
    (hf : Resolver.flaw? (builtinPrefix ++ name) = none)
    (hc : session.loader.resolver.builtins.contains name = true) (mode : LoadMode) (base : Path) :
    ∃ last, Comes host (session.startLoad host mode (builtinPrefix ++ name) base .nil).1
      (session.startLoad host mode (builtinPrefix ++ name) base .nil).2
      ((.ok (builtinPrefix ++ name, handle) : Except ModuleError LoadedModule) : Value σ H .module)
      last := by
  generalize horder : session.orderIn mode (builtinPrefix ++ name) base = order
  have hanswer : (session.resolveIn order).1 =
      .ok ⟨builtinPrefix ++ name, some .virtual, false⟩ := by
    have hspecifier : order.specifier = builtinPrefix ++ name := by rw [← horder]; rfl
    have hname : session.loader.resolver.builtinName? (builtinPrefix ++ name) = some name := by
      simp only [Resolver.builtinName?, textAfter?_append]
    simp only [resolveIn, Resolver.resolve, hspecifier, hf, hname, hc, if_true]
  have hsound : session.loader.registry.countStarted.Sound :=
    hs.reorder (fun _ => rfl) rfl hs.order_nodup hs.finished
  have hserves : (session.resolvedIn host order).Serves (builtinPrefix ++ name) handle :=
    (serves_iff hsound).mpr ((serves_iff hs).mp h)
  obtain ⟨after, hafter⟩ :=
    comes_of_serves host order ⟨builtinPrefix ++ name, some .virtual, false⟩ hserves
  refine ⟨_, (comes_load_iff host hh mode _ base horder.symm).mpr ⟨after, ?_, rfl⟩⟩
  rw [hanswer]
  exact hafter

end Session

/-! ## Runs -/

namespace Traffic

open Session (ServesTable)

variable {host : Host σ H} {traffic : Traffic σ H} {event : TrafficEvent σ H}

/-- All work under way is plain. -/
def IsPlain (traffic : Traffic σ H) : Prop :=
  ∀ task ∈ traffic.tasks, task.focus.IsPlain

/-- Whether an event gives other exports for a built-in module than the registry serves. -/
def overrides (traffic : Traffic σ H) (event : TrafficEvent σ H) : Bool :=
  match traffic.defined? event with
  | none => false
  | some (name, handle) =>
    (Resolver.flaw? (builtinPrefix ++ name)).isNone &&
      match (traffic.session.servedExports (builtinPrefix ++ name)).1 with
      | .ok (some old) => old != handle
      | _ => false

theorem overrides_iff : traffic.overrides event = true ↔
    ∃ name handle old, traffic.defined? event = some (name, handle) ∧
      Resolver.flaw? (builtinPrefix ++ name) = none ∧
      traffic.session.Serves (builtinPrefix ++ name) old ∧ old ≠ handle := by
  unfold overrides Session.Serves
  cases traffic.defined? event with
  | none => simp
  | some given =>
      obtain ⟨name, handle⟩ := given
      constructor
      · intro h
        obtain ⟨hf, hserved⟩ := Bool.and_eq_true_iff.mp h
        split at hserved
        · rename_i old heq
          have hne : old ≠ handle := by simpa using hserved
          exact ⟨name, handle, old, rfl, Option.isNone_iff_eq_none.mp hf, heq, hne⟩
        · cases hserved
      · rintro ⟨_, _, old, hgiven, hf, hserves, hne⟩
        cases hgiven
        simpa [hf, hserves] using hne

/-- Whether no event of a run does. -/
def neverOverrides (host : Host σ H) : Traffic σ H → List (TrafficEvent σ H) → Bool
  | _, [] => true
  | traffic, event :: events =>
    !traffic.overrides event && neverOverrides host (traffic.after host event) events

/-- Work that is added is plain. -/
theorem IsPlain.start (h : traffic.IsPlain) {started : Focus σ H n × Session σ H}
    (hs : started.1.stack.loadsBuiltin = false) : (traffic.start started).IsPlain := by
  intro task htask
  rcases List.mem_append.mp htask with hold | hnew
  · exact h task hold
  · cases List.mem_singleton.mp hnew
    exact .other hs

theorem Reached.isPlain_after (h : Reached host traffic)
    (hh : traffic.session.loader.IsHookless) (hp : traffic.IsPlain) (event : TrafficEvent σ H) :
    (traffic.after host event).IsPlain := by
  cases event with
  | imported specifier base => exact hp.start rfl
  | required specifier base => exact hp.start rfl
  | resolved specifier base => exact hp.start rfl
  | reloaded specifier base => exact hp.start rfl
  | operated operation => exact hp
  | changed surroundings => exact hp
  | dropped index =>
      simp only [after]
      split
      · exact fun task htask => hp task (List.mem_of_mem_eraseIdx htask)
      · exact hp
  | advanced index =>
      cases htask : traffic.tasks[index]? with
      | none =>
          simp only [after, htask]
          exact hp
      | some task =>
          simp only [after, htask]
          have hplain := hp task (List.mem_of_getElem? htask)
          have hinFlight := h.isHonored.inFlight.perm (claims_perm htask)
          have hnext : ∀ next,
              (traffic.session.step host task.focus).1.GoesOn next → next.IsPlain :=
            fun next => Session.isPlain_step hh hplain hinFlight h.tabled
          generalize traffic.session.step host task.focus = result at hnext
          obtain ⟨progress, session⟩ := result
          intro other hother
          cases progress with
          | finished value => exact hp other (List.mem_of_mem_eraseIdx hother)
          | running focus =>
              rcases List.mem_or_eq_of_mem_set hother with hold | rfl
              · exact hp other hold
              · exact hnext focus .running
          | suspended focus =>
              rcases List.mem_or_eq_of_mem_set hother with hold | rfl
              · exact hp other hold
              · exact hnext focus .suspended

/-- The registry stays in accord with the table unless an event overrides what it serves. -/
theorem Reached.tabulates_after (h : Reached host traffic) (hp : traffic.IsPlain)
    (ht : traffic.session.Tabulates) (ho : traffic.overrides event = false) :
    (traffic.after host event).session.Tabulates := by
  have hs := h.isHonored.inFlight.sound
  have hs' := (h.step event).isHonored.inFlight.sound
  rcases offers_after host traffic event with ⟨hnone, hoffers⟩ | ⟨operation, hop, hafter⟩
  · have hbuiltins : (traffic.after host event).session.loader.builtins =
        traffic.session.loader.builtins := congrArg Prod.fst hoffers
    cases event with
    | operated operation => cases hnone
    | advanced index =>
        cases htask : traffic.tasks[index]? with
        | none =>
            simp only [after, htask]
            exact ht
        | some task =>
            simp only [after, htask, session_proceed] at hs' hbuiltins ⊢
            exact ht.step (hp task (List.mem_of_getElem? htask))
              (h.isHonored.inFlight.perm (claims_perm htask)) h.tabled hs' hbuiltins
    | dropped index =>
        simp only [after]
        split <;> exact ht
    | _ => exact ht.congr hs hs' rfl rfl hbuiltins
  · rw [hafter] at hs' ⊢
    refine ht.perform hs hs' ?_
    rintro name handle old rfl hf hserves
    refine Decidable.byContradiction fun hne => ?_
    have hoverrides : traffic.overrides event = true :=
      overrides_iff.mpr ⟨name, handle, old, by rw [defined?, hop]; rfl, hf, hserves, hne⟩
    rw [ho] at hoverrides
    cases hoverrides

/-- Once an event has overridden what the registry serves, the table is not served. -/
theorem Reached.not_servesTable (h : Reached host traffic)
    (hh : (traffic.after host event).session.loader.IsHookless)
    (ho : traffic.overrides event = true) (table : List (String × Handle)) :
    ¬ ServesTable host ((traffic.defined? event).toList ++ table)
      (traffic.after host event).session := by
  intro hserves
  obtain ⟨name, handle, old, hdefined, hf, hold, hne⟩ := overrides_iff.mp ho
  have hs := (h.step event).isHonored.inFlight.sound
  obtain ⟨operation, hop, hgiven⟩ := Option.bind_eq_some_iff.mp hdefined
  rcases offers_after host traffic event with ⟨hnone, -⟩ | ⟨_, hdone, hafter⟩
  · cases hop.symm.trans hnone
  · cases hop.symm.trans hdone
    cases operation with
    | defineBuiltin own exports =>
        cases hgiven
        rw [hafter] at hs hh hserves
        have hlater : (traffic.session.perform (.defineBuiltin name handle)).2.Serves
            (builtinPrefix ++ name) old :=
          (Session.serves_iff hs).mpr ((Session.serves_iff h.isHonored.inFlight.sound).mp hold)
        have hknown : (traffic.session.loader.resolver.addBuiltin name).builtins.contains name =
            true := by
          unfold Resolver.addBuiltin
          split
          · assumption
          · simp
        obtain ⟨last, hlast⟩ := hlater.comes host hs hh hf hknown .immediate ⟨[]⟩
        have hname : (traffic.session.loader.resolver.addBuiltin name).builtinName?
            (builtinPrefix ++ name) = some name := by
          simp only [Resolver.builtinName?, textAfter?_append]
        have hgiven := hserves.loads .immediate _ ⟨[]⟩ name _ last hname hlast
        rw [hdefined, Option.toList_some, List.singleton_append, List.lookup_cons_self] at hgiven
        exact hne (Option.some.inj hgiven).symm
    | _ => cases hgiven

/-- All through a run without hooks the table is served just in case no event overrides what
the registry serves. -/
theorem Reached.servesTable_iff (h : Reached host traffic) (hp : traffic.IsPlain)
    (ht : traffic.session.Tabulates) {table : List (String × Handle)}
    (htable : ∀ name, table.lookup name = traffic.session.loader.builtins.lookup name)
    {events : List (TrafficEvent σ H)}
    (hh : (traffic.afterAll host events).session.loader.IsHookless) :
    (∀ done, done <+: events →
      ServesTable host (traffic.definitions host done ++ table)
        (traffic.afterAll host done).session) ↔
      traffic.neverOverrides host events = true := by
  induction events generalizing traffic table with
  | nil =>
      refine ⟨fun _ => rfl, fun _ done hdone => ?_⟩
      cases List.prefix_nil.mp hdone
      exact ht.servesTable h.isHonored.inFlight.sound hh htable
  | cons event events ih =>
      have hnext : (traffic.after host event).session.loader.IsHookless := hooks_afterAll hh
      have hfirst : ServesTable host table traffic.session :=
        ht.servesTable h.isHonored.inFlight.sound (hooks_after hnext) htable
      have hgiven : ∀ name, ((traffic.defined? event).toList ++ table).lookup name =
          (traffic.after host event).session.loader.builtins.lookup name := by
        intro name
        rw [lookup_builtins_after, List.lookup_append, List.lookup_append, htable]
      have hplain := h.isPlain_after (hooks_after hnext) hp event
      have hsplit : (∀ done, done <+: event :: events →
          ServesTable host (traffic.definitions host done ++ table)
            (traffic.afterAll host done).session) ↔
          ∀ done, done <+: events →
            ServesTable host ((traffic.after host event).definitions host done ++
                ((traffic.defined? event).toList ++ table))
              ((traffic.after host event).afterAll host done).session := by
        refine ⟨fun hall done hdone => ?_, fun hall done hdone => ?_⟩
        · have hserves := hall (event :: done) (List.cons_prefix_cons.mpr ⟨rfl, hdone⟩)
          rw [definitions, List.append_assoc] at hserves
          exact hserves
        · cases done with
          | nil => exact hfirst
          | cons other done =>
              obtain ⟨rfl, hrest⟩ := List.cons_prefix_cons.mp hdone
              rw [definitions, List.append_assoc]
              exact hall done hrest
      rw [hsplit, neverOverrides, Bool.and_eq_true, Bool.not_eq_true']
      cases ho : traffic.overrides event with
      | true =>
          refine ⟨fun hall => ?_, fun hnever => ?_⟩
          · exact absurd (hall [] (List.nil_prefix)) (h.not_servesTable hnext ho table)
          · cases hnever.1
      | false =>
          rw [ih (h.step event) hplain (h.tabulates_after hp ht ho) hgiven hh]
          exact ⟨fun hrest => ⟨rfl, hrest⟩, fun hboth => hboth.2⟩

/-- A loader that was just opened has got nothing yet. -/
theorem offers_openWith {config : Config} {before files : FileSystem} {loader : Loader H}
    (h : Loader.openWith config before = (.ok loader, files)) : loader.offers = ([], []) := by
  simp only [Loader.openWith] at h
  split at h
  · cases h
  · split at h
    · cases h
      rfl
    · split at h <;> cases h
      rfl

/-- All through a run of a loader without hooks, built-in modules are served from the table of
what was given last under each name, just in case no event gives other exports for a name than
the registry serves under it. -/
theorem alwaysServesTable_iff (host : Host σ H) {config : Config} {before : FileSystem}
    {loader : Loader H} (surroundings : Surroundings σ)
    (hopen : Loader.openWith config before = (.ok loader, surroundings.files))
    (events : List (TrafficEvent σ H))
    (hh : ((opened surroundings loader).afterAll host events).session.loader.IsHookless) :
    (∀ done, done <+: events →
      ServesTable host ((opened surroundings loader).definitions host done)
        ((opened surroundings loader).afterAll host done).session) ↔
      (opened surroundings loader).neverOverrides host events = true := by
  have hreached : Reached host (opened surroundings loader) := .opened surroundings hopen
  have hbuiltins : loader.builtins = [] := congrArg Prod.fst (offers_openWith hopen)
  have htabulates : (opened surroundings loader).session.Tabulates := by
    intro name handle _ hserves
    obtain ⟨id, record, hr, -⟩ :=
      (Session.serves_iff hreached.isHonored.inFlight.sound).mp hserves
    have hregistry : (opened surroundings loader).session.loader.registry =
        { maxSize := config.maxCacheSize } := (openWith_ok hopen).1
    rw [hregistry] at hr
    simp [Registry.get?] at hr
  have hiff := hreached.servesTable_iff (fun task htask => absurd htask List.not_mem_nil)
    htabulates (fun name => congrArg (List.lookup name) hbuiltins.symm) hh
  simpa only [List.append_nil] using hiff

/-! ## Built-in modules that are given again -/

/-- A built-in module is given and required. -/
def givenAndRequired : List (TrafficEvent Unit Unit) :=
  .operated (.defineBuiltin "b" ⟨0⟩) :: .required "b" (.ofString "/") ::
    List.replicate 6 (.advanced 0)

/-- The modules are cleared, and it is given again. -/
def givenAgain : List (TrafficEvent Unit Unit) :=
  givenAndRequired ++ [.operated .clearModules, .operated (.defineBuiltin "b" ⟨1⟩)]

/-- The table is served all the time. -/
theorem alwaysServesTable_givenAgain :
    idleLoader.definitions forwardingHost givenAgain = [("b", ⟨1⟩), ("b", ⟨0⟩)] ∧
      (idleLoader.afterAll forwardingHost givenAgain).session.loader.IsHookless ∧
      ∀ done, done <+: givenAgain →
        ServesTable forwardingHost (idleLoader.definitions forwardingHost done)
          (idleLoader.afterAll forwardingHost done).session := by
  have hopen : Loader.openWith {} .empty = (.ok idleLoader.session.loader, .empty) := rfl
  have hhookless : (idleLoader.afterAll forwardingHost givenAgain).session.loader.IsHookless :=
    List.isEmpty_iff.mp (by decide +kernel)
  refine ⟨by decide +kernel, hhookless, ?_⟩
  exact (alwaysServesTable_iff forwardingHost { files := .empty, exports := {}, state := () } hopen
    givenAgain hhookless).mpr (by decide +kernel)

/-- It is given again, and they are not cleared. -/
def redefined : List (TrafficEvent Unit Unit) :=
  givenAndRequired ++ [.operated (.defineBuiltin "b" ⟨1⟩)]

/-- Where they are not cleared, what was given first is served for good. -/
theorem not_alwaysServesTable :
    ¬ ∀ (host : Host Unit Unit) (config : Config) (before : FileSystem) (loader : Loader Unit)
        (surroundings : Surroundings Unit),
      Loader.openWith config before = (.ok loader, surroundings.files) →
      ∀ events : List (TrafficEvent Unit Unit),
        ((opened surroundings loader).afterAll host events).session.loader.IsHookless →
        ServesTable host ((opened surroundings loader).definitions host events)
          ((opened surroundings loader).afterAll host events).session := by
  intro hclaim
  have hopen : Loader.openWith {} .empty = (.ok idleLoader.session.loader, .empty) := rfl
  have hserves := hclaim forwardingHost {} .empty idleLoader.session.loader
    { files := .empty, exports := {}, state := () } hopen redefined
    (List.isEmpty_iff.mp (by decide +kernel))
  have hrequired : Session.Answers forwardingHost
      (idleLoader.afterAll forwardingHost redefined).session (.require "b" (.ofString "/"))
      (.ok ("builtin:b", ⟨0⟩))
      ((idleLoader.afterAll forwardingHost redefined).session.answer forwardingHost 20
        (.require "b" (.ofString "/"))).2 := answers_of_toOption (by decide +kernel)
  have hlookup := hserves.loads .immediate "b" (.ofString "/") "b" _ _ (by decide +kernel)
    (Session.answers_require_iff.mp hrequired)
  exact absurd hlookup (by decide +kernel)

end Traffic

end ScriptModules
