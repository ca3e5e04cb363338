import ScriptModules.Proofs.Loader.Claims
import ScriptModules.Proofs.Registry.Succession
import ScriptModules.Proofs.Resolver.Memory

/-!
# What a step can do

Everything a step does to the records of a loader and to the tables of exports is said
here once.  A load that has a record pursues it: it waits for the next value, begins the
body of the module on a new table, succeeds or fails (`Session.Pursues`).  A load that has
none yet is refused, served, or gets a record (`Session.Arrives`).  Any other step makes no
record and changes none.  So each step is a turn of the registry (`Session.turn_step`), and
none changes what the loader was told when it was opened (`Loader.settings`).
-/

namespace ScriptModules

open Registry (Claim InFlight Sets Moves Turn Tabled)

variable {σ H : Type} {k m n : Kind}

/-- What no request changes. -/
def Loader.settings (loader : Loader H) : Config × Config × Path :=
  (loader.config, loader.resolver.config, loader.resolver.manifests.fileName)

theorem Resolver.kindOf_keeps (resolver : Resolver) (fs : FileSystem) (path : Path) :
    (resolver.kindOf fs path).2.config = resolver.config ∧
      (resolver.kindOf fs path).2.manifests.fileName = resolver.manifests.fileName := by
  unfold kindOf
  split
  · exact ⟨rfl, rfl⟩
  · split
    · exact ⟨rfl, rfl⟩
    · exact ⟨rfl, Package.Finder.fileName_nearest resolver.manifests fs path⟩

namespace Session

variable {host : Host σ H} {session middle later : Session σ H} {load : Load}
  {record between changed : ModuleRecord} {stack : Stack σ H .module n}
  {result : Focus σ H n × Session σ H}

/-! ## Loads that have a record -/

/-- The record of a load moves on, and nothing happens to any other. -/
structure Notes (load : Load) (record changed : ModuleRecord) (session after : Session σ H) :
    Prop where
  settings : after.loader.settings = session.loader.settings
  size : after.loader.registry.records.size = session.loader.registry.records.size
  sets : Sets session.loader.registry after.loader.registry load.id changed
  becomes : record.Becomes changed

/-- The record of a load is finished, and others may be evicted for it. -/
structure Settles (load : Load) (record changed : ModuleRecord) (session after : Session σ H) :
    Prop where
  settings : after.loader.settings = session.loader.settings
  moves : Moves session.loader.registry after.loader.registry load.id changed
  becomes : record.Becomes changed

theorem Notes.trans (h₁ : Notes load record between session middle)
    (h₂ : Notes load between changed middle later) : Notes load record changed session later :=
  ⟨h₂.settings.trans h₁.settings, h₂.size.trans h₁.size, h₁.sets.trans h₂.sets,
    h₁.becomes.trans h₂.becomes⟩

theorem Notes.settles (h₁ : Notes load record between session middle)
    (h₂ : Settles load between changed middle later) :
    Settles load record changed session later :=
  ⟨h₂.settings.trans h₁.settings, (h₁.sets.moves h₁.size).trans h₂.moves,
    h₁.becomes.trans h₂.becomes⟩

/-- What a load does with the next value for it. -/
inductive Pursues (load : Load) (record : ModuleRecord) (stack : Stack σ H .module n)
    (session : Session σ H) : Focus σ H n × Session σ H → Prop where
  | waits {kind : Kind} {work : Work σ H (Value σ H kind)} {frame : Frame σ H kind .module}
      {after : Session σ H} {changed : ModuleRecord}
      (hk : kind = .output ∨ kind = .bytecode) (hf : frame.load? = some load)
      (h : Notes load record changed session after)
      (hs : changed.state.canAdvance .executing = true) (he : changed.exports = none) :
      Pursues load record stack session (⟨kind, work, .cons frame stack⟩, after)
  /-- The body gets a table that is new and empty. -/
  | begins {work : Work σ H (Value σ H .execution)} {after : Session σ H} {changed : ModuleRecord}
      {handle : Handle} (h : Notes load record changed session after)
      (hfirst : record.state.canAdvance .executing = true) (hs : changed.state = .executing)
      (he : changed.exports = some handle)
      (hnew : (handle, after.exports) = session.exports.make []) :
      Pursues load record stack session
        (⟨.execution, work, .cons (.executing load handle) stack⟩, after)
  | succeeds {handle : Handle} {after : Session σ H} {changed : ModuleRecord}
      (h : Settles load record changed session after) (hs : changed.state = .complete)
      (he : changed.exports = some handle) :
      Pursues load record stack session (⟨.module, .done (.ok (load.key, handle)), stack⟩, after)
  | fails {e : ModuleError} {after : Session σ H} {changed : ModuleRecord}
      (h : Settles load record changed session after) (hs : changed.state = .errored)
      (he : changed.error = some e.message) :
      Pursues load record stack session (⟨.module, .done (.error e), stack⟩, after)

/-- What is noted before leaves the rest as it would be. -/
theorem Pursues.after (h : Notes load record between session middle)
    (hexports : middle.exports = session.exports)
    (hp : Pursues load between stack middle result) : Pursues load record stack session result := by
  cases hp with
  | waits hk hf h' hs he => exact .waits hk hf (h.trans h') hs he
  | begins h' hfirst hs he hnew =>
      exact .begins (h.trans h') (ModuleState.canAdvance_of_rank_le h.becomes.rank hfirst) hs he
        (hexports ▸ hnew)
  | succeeds h' hs he => exact .succeeds (h.settles h') hs he
  | fails h' hs he => exact .fails (h.settles h') hs he

/-- What is done to anything but the registry and the tables does not count. -/
theorem notes_of_eq (hr : session.loader.registry.get? load.id = some record)
    (hregistry : later.loader.registry = session.loader.registry)
    (hsettings : later.loader.settings = session.loader.settings) :
    Notes load record record session later := by
  refine ⟨hsettings, ?_, ?_, .refl record⟩
  · rw [hregistry]
  · rw [hregistry]
    exact .refl hr

theorem failLoad_pursues (hr : session.loader.registry.get? load.id = some record)
    (ht : record.state.isTerminal = false) (e : ModuleError) :
    Pursues load record stack session (failLoad load e stack session) := by
  refine .fails ⟨rfl, Registry.moves_fail hr ht e.message, ?_⟩ rfl rfl
  exact .of_inFlight ht rfl (ModuleState.rank_le_of_isTerminal rfl) fun h => h

theorem startBody_pursues (host : Host σ H) (bytecode : Bytes) (fingerprint : Option Fingerprint)
    (sourceLength : Nat) (hr : session.loader.registry.get? load.id = some record)
    (hn : record.state.canAdvance .executing = true) (he : record.exports = none) :
    Pursues load record stack session
      (startBody host load bytecode fingerprint sourceLength stack session) := by
  have hcompiled := Registry.sets_modify hr fun record => { record with fingerprint, sourceLength }
  obtain ⟨hbegun, hstore, hsets⟩ :=
    Registry.sets_beginExecution_new session.exports hcompiled.get_self hn he
  have hbegun : ((session.loader.registry.setCompiled load.id fingerprint
      sourceLength).beginExecution session.exports load.id).1 =
        some (session.exports.make []).1 := hbegun
  unfold startBody
  simp only [hbegun]
  refine .begins ⟨rfl, ?_, hcompiled.trans hsets, ?_⟩ hn rfl rfl (Prod.ext rfl hstore)
  · exact (Registry.size_beginExecution ..).trans (Registry.size_modify ..)
  · refine .of_inFlight (ModuleState.isTerminal_of_canAdvance hn) rfl
      (ModuleState.rank_le_of_canAdvance hn) fun hnever => ?_
    rw [he] at hnever
    cases hnever

/-- The record of a built-in module is complete at once. -/
theorem adopt_settles (handle : Handle) (hr : session.loader.registry.get? load.id = some record)
    (hn : record.state.canAdvance .executing = true) (he : record.exports = none) :
    Settles load record { record with state := .complete, exports := some handle } session
      (session.adopt load handle) := by
  have hgiven : Moves session.loader.registry (session.loader.registry.setExports load.id handle)
      load.id { record with exports := some handle } := Registry.moves_modify hr _
  obtain ⟨begun, -, hkept, hsets⟩ :=
    Registry.sets_beginExecution session.exports hgiven.own hn
  cases hkept handle rfl
  have hbegun := hsets.moves (Registry.size_beginExecution ..)
  refine ⟨rfl, (hgiven.trans hbegun).trans (Registry.moves_complete hbegun.own rfl), ?_⟩
  refine .of_inFlight (ModuleState.isTerminal_of_canAdvance hn) rfl
    (ModuleState.rank_le_of_isTerminal rfl) fun hnever => ?_
  rw [he] at hnever
  cases hnever

/-- Contents bring a record to be compiled. -/
theorem receives_notes (format : ModuleFormat)
    (hr : session.loader.registry.get? load.id = some record) (hs : record.state = .resolving) :
    Notes load record { record with format, state := .compiling } session
      (session.withRegistry fun registry =>
        ((registry.setFormat load.id format).advance load.id .compiling).2) := by
  have hadvance : record.state.canAdvance .compiling = true := by rw [hs]; rfl
  have hformat := Registry.sets_modify hr fun record => { record with format }
  refine ⟨rfl, ?_, hformat.trans (Registry.sets_advance hformat.get_self hadvance).2,
    .of_inFlight ?_ rfl ?_ fun h => h⟩
  · exact (Registry.size_advance ..).trans (Registry.size_modify ..)
  · exact ModuleState.isTerminal_of_canAdvance hadvance
  · exact ModuleState.rank_le_of_canAdvance hadvance

/-- The end of a body makes the record complete. -/
theorem completes_settles (dependencies : List String)
    (hr : session.loader.registry.get? load.id = some record) (hs : record.state = .executing) :
    Settles load record { record with dependencies, state := .complete } session
      (session.withRegistry fun registry =>
        (registry.setDependencies load.id dependencies).complete load.id) := by
  have ht : record.state.isTerminal = false := by rw [hs]; rfl
  have hnoted := Registry.moves_modify hr fun record => { record with dependencies }
  refine ⟨rfl, hnoted.trans (Registry.moves_complete hnoted.own ht), ?_⟩
  exact .of_inFlight ht rfl (ModuleState.rank_le_of_isTerminal rfl) fun h => h

/-- What is done aside changes neither the settings nor the tables of exports. -/
theorem Aside.settings (h : session.Aside middle) :
    middle.loader.settings = session.loader.settings := by
  cases h with
  | examines path =>
      obtain ⟨hconfig, hname⟩ := session.loader.resolver.kindOf_keeps session.files path
      exact Prod.ext rfl (Prod.ext hconfig hname)
  | caches files cache => rfl
  | leaves => rfl

theorem Aside.exports (h : session.Aside middle) : middle.exports = session.exports := by
  cases h <;> rfl

/-- However a load carries on from the state its record is in, it pursues its record. -/
theorem Carries.pursues {rest? : Option (Work σ H (Except ModuleError LoadOutput))}
    {state : ModuleState} {exports : Option Handle}
    (hc : Carries host load rest? stack state exports session result)
    (hr : session.loader.registry.get? load.id = some record) (hs : record.state = state)
    (he : record.exports = exports) : Pursues load record stack session result := by
  induction hc generalizing record with
  | fails e ht _ => exact failLoad_pursues hr (hs ▸ ht) e
  | awaits _ => exact .waits (Or.inl rfl) rfl (notes_of_eq hr rfl rfl) (by rw [hs]; rfl) he
  | receives format _ ih =>
      have hnotes := receives_notes format hr hs
      exact .after hnotes rfl (ih hnotes.sets.get_self rfl he)
  | compiles source options fingerprint =>
      exact .waits (Or.inr rfl) rfl (notes_of_eq hr rfl rfl) (by rw [hs]; rfl) he
  | begins bytecode fingerprint sourceLength =>
      exact startBody_pursues host bytecode fingerprint sourceLength hr (by rw [hs]; rfl) he
  | adopts handle _ => exact .succeeds (adopt_settles handle hr (by rw [hs]; rfl) he) rfl rfl
  | completes handle dependencies => exact .succeeds (completes_settles dependencies hr hs) rfl he
  | aside ha _ ih =>
      exact .after (notes_of_eq hr ha.registry ha.settings) ha.exports (ih (ha.registry ▸ hr) hs he)

/-- The claims of the innermost frame come first. -/
theorem inFlight_frame {frame : Frame σ H k m} {value : Value σ H k} {rest : Stack σ H m n}
    {claims : List Claim} (h : InFlight session.loader.registry
      ((⟨k, .done value, .cons frame rest⟩ : Focus σ H n).claims ++ claims)) :
    InFlight session.loader.registry (frame.claims ++ (rest.claims ++ claims)) := by
  rw [← List.append_assoc]
  exact h

/-- What the frame of a load knows of its record. -/
theorem record_of_frame {frame : Frame σ H k .module} {claims : List Claim}
    (hf : frame.load? = some load) (h : InFlight session.loader.registry (frame.claims ++ claims)) :
    ∃ record, session.loader.registry.get? load.id = some record ∧ record.key = load.key ∧
      record.state.isTerminal = false := by
  have hcarries : ∀ {claim}, claim ∈ frame.claims → claim.id = load.id → claim.key = load.key →
      ∃ record, session.loader.registry.get? load.id = some record ∧ record.key = load.key ∧
        record.state.isTerminal = false := by
    intro claim hclaim hid hkey
    obtain ⟨record, hr, hk, -, ht, -⟩ := h.carried claim (List.mem_append_left _ hclaim)
    exact ⟨record, hid ▸ hr, hk.trans hkey, ht⟩
  cases frame with
  | fetching load' mode =>
      cases hf
      exact hcarries List.mem_cons_self rfl rfl
  | awaiting load' =>
      cases hf
      exact hcarries List.mem_cons_self rfl rfl
  | compiling load' source fingerprint =>
      cases hf
      exact hcarries List.mem_cons_self rfl rfl
  | executing load' handle =>
      cases hf
      exact hcarries List.mem_cons_self rfl rfl
  | _ => cases hf

/-- Whatever value the frame of a load gets, it pursues the load. -/
theorem resume_pursues (host : Host σ H) {frame : Frame σ H k .module} (value : Value σ H k)
    {claims : List Claim} (hf : frame.load? = some load)
    (h : InFlight session.loader.registry (frame.claims ++ claims))
    (ht : session.loader.registry.Tabled)
    (hr : session.loader.registry.get? load.id = some record) :
    Pursues load record stack session (resume host frame value stack session) := by
  obtain ⟨state, exports, hclaims, hbefore, hcarries⟩ := resume_carries host value stack session hf
  rw [hclaims] at h
  obtain ⟨found, hfound, -, hstate, -, hexports⟩ := h.carried _ List.mem_cons_self
  cases hr.symm.trans hfound
  refine hcarries.pursues hr hstate ?_
  cases exports with
  | some handle => exact hexports handle rfl
  | none => exact (ht hr).before (hstate ▸ hbefore rfl)

/-- However a load goes on, this is a turn of the registry. -/
theorem Pursues.turn (h : Pursues load record stack session result)
    (hr : session.loader.registry.get? load.id = some record) :
    Turn session.loader.registry result.2.loader.registry ∧
      result.2.loader.settings = session.loader.settings := by
  cases h with
  | waits _ _ h hs he =>
      refine ⟨.moves hr (h.sets.moves h.size) h.becomes (.of_early he fun hcomplete => ?_),
        h.settings⟩
      rw [hcomplete] at hs
      cases hs
  | begins h _ hs he _ =>
      exact ⟨.moves hr (h.sets.moves h.size) h.becomes
        (.of_exports (by rw [he]; rfl) (by rw [hs]; rfl)), h.settings⟩
  | succeeds h hs he =>
      exact ⟨.moves hr h.moves h.becomes (.of_exports (by rw [he]; rfl) (by rw [hs]; rfl)),
        h.settings⟩
  | fails h hs _ => exact ⟨.moves hr h.moves h.becomes (.of_errored hs), h.settings⟩

/-! ## Loads that have none yet -/

/-- What the registry decides of a key. -/
inductive Decides (key : String) (session : Session σ H) :
    Except ModuleError (Option Handle) × Session σ H → Prop where
  | refused {e : ModuleError} : Decides key session (.error e, session)
  /-- The module is there, or its body is running. -/
  | served {id : ModuleId} {record : ModuleRecord} {handle : Handle} {after : Session σ H}
      (hl : session.loader.registry.lookup? key = some id)
      (hr : session.loader.registry.get? id = some record) (he : record.exports = some handle)
      (hs : record.state = .executing ∨
        (record.state = .complete ∧ session.loader.config.enableCache = true))
      (hrecords : after.loader.registry.records = session.loader.registry.records)
      (hids : after.loader.registry.ids = session.loader.registry.ids)
      (hsettings : after.loader.settings = session.loader.settings) :
      Decides key session (.ok (some handle), after)
  | free (hfree : session.IsFree key) : Decides key session (.ok none, session)

theorem Considers.decides {key : String}
    {served : Except ModuleError (Option Handle) × Session σ H} (h : Considers key session served)
    (hs : session.loader.registry.Sound) : Decides key session served := by
  cases h with
  | refused _ _ _ => exact .refused
  | running hl hr hstate he =>
      obtain ⟨handle, hexports⟩ := Option.isSome_iff_exists.mp (hs.exports hr hstate)
      rw [← he, hexports]
      exact .served hl hr hexports (Or.inl hstate) rfl rfl rfl
  | served hl hr hstate hc he => exact .served hl hr he (Or.inr ⟨hstate, hc⟩) rfl rfl rfl
  | free hfree => exact .free hfree

theorem servedExports_decides (key : String) (hs : session.loader.registry.Sound) :
    Decides key session (session.servedExports key) :=
  (session.considers key).decides hs

/-- The next record is made for a module, and whatever stood under its key is dropped. -/
structure Makes (key : String) (format : Option ModuleFormat) (session after : Session σ H) :
    Prop where
  settings : after.loader.settings = session.loader.settings
  turn : Turn session.loader.registry after.loader.registry
  lookup : after.loader.registry.lookup? key = some ⟨session.loader.registry.records.size⟩
  get : after.loader.registry.get? ⟨session.loader.registry.records.size⟩ =
    some { key, format := format.getD .script, state := .resolving }
  kept : ∀ {id record}, session.loader.registry.get? id = some record → record.key ≠ key →
    after.loader.registry.get? id = some record

/-- What becomes of a load whose specifier is resolved. -/
inductive Arrives (order : LoadOrder) (resolution : Resolution) (stack : Stack σ H .module n)
    (session : Session σ H) : Focus σ H n × Session σ H → Prop where
  | refused {e : ModuleError} :
      Arrives order resolution stack session (⟨.module, .done (.error e), stack⟩, session)
  | served {handle : Handle} {after : Session σ H}
      (h : Decides resolution.url session (.ok (some handle), after)) :
      Arrives order resolution stack session
        (⟨.module, .done (.ok (resolution.url, handle)), stack⟩, after)
  /-- The load gets the next record. -/
  | begins {base : Path} {work : Work σ H (LoadReply σ H)} {after : Session σ H}
      (hfree : session.IsFree resolution.url)
      (h : Makes resolution.url resolution.format session after) :
      Arrives order resolution stack session
        (⟨.reply, work, .cons (.fetching
          ⟨⟨session.loader.registry.records.size⟩, resolution.url, base⟩ order.mode) stack⟩, after)

/-- A load that is neither refused nor served gets the next record. -/
theorem startFetch_makes (host : Host σ H) (order : LoadOrder) (resolution : Resolution)
    (stack : Stack σ H .module n) (hs : session.loader.registry.Sound) :
    ∃ base work after, startFetch host order resolution stack session =
        (⟨.reply, work, .cons (.fetching
          ⟨⟨session.loader.registry.records.size⟩, resolution.url, base⟩ order.mode) stack⟩, after) ∧
      Makes resolution.url resolution.format session after := by
  have hcounted : session.loader.registry.countMiss.Sound :=
    hs.reorder (fun _ => rfl) rfl hs.order_nodup hs.finished
  have hindex := Registry.index_insert session.loader.registry.countMiss resolution.url
    (resolution.format.getD .script)
  obtain ⟨hturn, hget⟩ := Registry.turn_insert session.loader.registry.countMiss resolution.url
    (resolution.format.getD .script)
  have hlookup := Registry.lookup?_insert session.loader.registry.countMiss resolution.url
    (resolution.format.getD .script)
  rw [← Registry.lookup?_advance _ _ .resolving] at hlookup
  unfold startFetch beginLoad
  simp only
  rw [hindex] at hturn hget hlookup ⊢
  refine ⟨_, _, _, rfl, rfl, hturn.congr rfl rfl, hlookup, hget, fun hr hk => ?_⟩
  rw [← hcounted.get?_insert (resolution.format.getD .script) hr hk, hindex]
  rfl

theorem Admits.arrives {order : LoadOrder} {resolution : Resolution}
    (h : Admits host order stack session (.ok resolution) result)
    (hs : session.loader.registry.Sound) : Arrives order resolution stack session result := by
  cases h with
  | refused _ => exact .refused
  | served hserved => exact .served ((considers_of_eq hserved).decides hs)
  | begins hserved =>
      obtain ⟨base, work, after, heq, hmakes⟩ := startFetch_makes host order resolution stack hs
      rw [heq]
      cases (considers_of_eq hserved).decides hs with
      | free hfree => exact .begins hfree hmakes

theorem receiveResolution_arrives (host : Host σ H) (order : LoadOrder) (resolution : Resolution)
    (hs : session.loader.registry.Sound) :
    Arrives order resolution stack session
      (receiveResolution host order (.ok resolution) stack session) :=
  (admits host order (.ok resolution) stack session).arrives hs

theorem Arrives.turn {order : LoadOrder} {resolution : Resolution}
    (h : Arrives order resolution stack session result) :
    Turn session.loader.registry result.2.loader.registry ∧
      result.2.loader.settings = session.loader.settings := by
  cases h with
  | refused => exact ⟨.of_eq rfl, rfl⟩
  | served h =>
      cases h with
      | served _ _ _ _ hrecords _ hsettings => exact ⟨.of_eq hrecords, hsettings⟩
  | begins _ h => exact ⟨h.turn, h.settings⟩

/-! ## Reloads and operations -/

theorem forget_turn (key : String) (session : Session σ H) :
    Turn session.loader.registry (session.forget key).2.loader.registry ∧
      (session.forget key).2.loader.settings = session.loader.settings := by
  obtain ⟨files, cache, hforgotten⟩ := session.forget_eq key
  rw [hforgotten]
  exact ⟨.drops (Registry.drops_invalidate _ key), rfl⟩

theorem Reloads.turn {reload : Reload} {answer : Except ModuleError Resolution}
    {stack : Stack σ H .reload n} {result : Focus σ H n × Session σ H}
    (h : Reloads host reload stack session answer result) :
    Turn session.loader.registry result.2.loader.registry ∧
      result.2.loader.settings = session.loader.settings := by
  cases h with
  | ends resolved wasCached outcome => exact ⟨.of_eq rfl, rfl⟩
  | @begins resolution wasCached _ =>
      obtain ⟨hturn, hsettings⟩ := forget_turn resolution.url session
      exact ⟨hturn.congr rfl rfl, hsettings⟩

theorem Performs.settings {operation : Operation σ H} (h : Performs session operation later) :
    later.loader.settings = session.loader.settings := by
  cases h with
  | defines name handle =>
      unfold Loader.defineBuiltin Resolver.addBuiltin Loader.settings
      simp only
      split <;> rfl
  | _ => rfl

theorem perform_turn (operation : Operation σ H) :
    Turn session.loader.registry (session.perform operation).2.loader.registry ∧
      (session.perform operation).2.loader.settings = session.loader.settings := by
  refine ⟨?_, (session.performs operation).settings⟩
  rcases registry_perform session operation with heq | rfl
  · rw [heq]
    exact .of_eq rfl
  · exact .drops (Registry.drops_clear _)

/-! ## Steps -/

theorem turn_resume (host : Host σ H) (frame : Frame σ H k m) (value : Value σ H k)
    (stack : Stack σ H m n) {claims : List Claim}
    (h : InFlight session.loader.registry (frame.claims ++ claims))
    (ht : session.loader.registry.Tabled) :
    Turn session.loader.registry (resume host frame value stack session).2.loader.registry ∧
      (resume host frame value stack session).2.loader.settings = session.loader.settings := by
  cases frame using Frame.cases_load with
  | asking next => exact ⟨.of_eq rfl, rfl⟩
  | counting =>
      cases value with
      | ok loaded => exact ⟨.of_eq rfl, rfl⟩
      | error e => exact ⟨.of_eq rfl, rfl⟩
  | resolving order =>
      cases value with
      | error e => exact ⟨.of_eq rfl, rfl⟩
      | ok resolution => exact (receiveResolution_arrives host order resolution h.sound).turn
  | loading frame load hf =>
      obtain ⟨record, hr, -⟩ := record_of_frame hf h
      exact (resume_pursues host value hf h ht hr).turn hr
  | reloading reload => exact (reloads host reload value stack session).turn
  | renewing reload key wasCached => exact ⟨.of_eq rfl, rfl⟩

/-- Every step is a turn of the registry, and none changes the settings. -/
theorem turn_step (host : Host σ H) (focus : Focus σ H n) {others : List Claim}
    (h : InFlight session.loader.registry (focus.claims ++ others))
    (ht : session.loader.registry.Tabled) :
    Turn session.loader.registry (session.step host focus).2.loader.registry ∧
      (session.step host focus).2.loader.settings = session.loader.settings := by
  obtain ⟨kind, work, stack⟩ := focus
  cases work with
  | done value =>
      cases stack with
      | nil => exact ⟨.of_eq rfl, rfl⟩
      | cons frame rest =>
          exact turn_resume host frame value rest (inFlight_frame h) ht
  | ask request next =>
      cases request with
      | request request =>
          cases request with
          | operation operation => exact perform_turn operation
          | resolve specifier base => exact ⟨.of_eq rfl, rfl⟩
          | require specifier base => exact ⟨.of_eq rfl, rfl⟩
          | reload specifier base => exact ⟨.of_eq rfl, rfl⟩
      | resolveDefault specifier context =>
          obtain ⟨hconfig, -, hname, -⟩ :=
            session.loader.resolver.resolve_keeps session.files specifier context
          exact ⟨.of_eq rfl, Prod.ext rfl (Prod.ext hconfig hname)⟩
      | loadDefault url context => exact ⟨.of_eq rfl, rfl⟩
      | pause =>
          rcases step_pause host next stack session with heq | heq <;> rw [heq]
          · exact ⟨.of_eq rfl, rfl⟩
          · exact ⟨.of_eq rfl, rfl⟩

end Session

end ScriptModules
