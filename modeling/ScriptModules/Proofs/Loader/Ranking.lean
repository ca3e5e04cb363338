import ScriptModules.Proofs.Loader.History
import ScriptModules.Proofs.Registry.Latest

/-!
# What a loader keeps of finished modules

A load uses its record when it ends, and a load that is served uses the finished record it is
served from (`LoadDeed.use?`).  Nothing else is a use: a module whose body runs is given out
without one.

Every step shifts the finished records as the use it makes says, and one without a use drops some
of them at most (`Session.shifts_step`).  So whatever happens in a loader, its finished records
stand in the order of their last use, and when a load ends, those that are dropped for it were
used before all that are kept (`Traffic.KeepsLatest`).
-/

namespace ScriptModules

open Registry (Claim InFlight Sheds Serves Finishes Shifts Progresses Underway Ranked UsedBefore)

variable {σ H : Type} {k m n : Kind}

/-- The use that an act makes of a finished record. -/
def LoadDeed.use? (registry : Registry) : LoadDeed → Option Registry.Use
  | .ended load _ => some (.finished load.id)
  | .served key _ =>
    match registry.lookup? key, registry.find? key with
    | some id, some record => if record.state.isTerminal then some (.served id) else none
    | _, _ => none
  | _ => none

namespace Session

variable {host : Host σ H} {session middle : Session σ H} {load : Load}
  {stack : Stack σ H .module n} {result : Focus σ H n × Session σ H} {claims : List Claim}

/-- The use that the next step of a focus makes. -/
def use? (host : Host σ H) (focus : Focus σ H n) (session : Session σ H) :
    Option Registry.Use :=
  session.act? host focus >>= (·.use? session.loader.registry)

/-! ## Loads that have a record -/

/-- A load goes on with its record, or it ends and the record is finished. -/
inductive Attends (load : Load) (stack : Stack σ H .module n) (session : Session σ H) :
    Focus σ H n × Session σ H → Prop where
  | goesOn {kind : Kind} {work : Work σ H (Value σ H kind)} {frame : Frame σ H kind .module}
      {after : Session σ H} (hk : kind ≠ .module)
      (h : Progresses session.loader.registry after.loader.registry load.id) :
      Attends load stack session (⟨kind, work, .cons frame stack⟩, after)
  | ends {answer : Except ModuleError LoadedModule} {after : Session σ H}
      (h : Finishes session.loader.registry after.loader.registry load.id) :
      Attends load stack session (⟨.module, .done answer, stack⟩, after)

/-- What was done to the record before does not matter. -/
theorem Attends.after (hu : session.loader.registry.Underway load.id)
    (hp : Progresses session.loader.registry middle.loader.registry load.id)
    (h : Attends load stack middle result) : Attends load stack session result := by
  cases h with
  | goesOn hk h => exact .goesOn hk (hp.trans h)
  | ends h => exact .ends (hp.finishes hu h)

/-- Nor does anything but the registry. -/
theorem Attends.of_eq (h : Attends load stack middle result)
    (hsame : middle.loader.registry = session.loader.registry) :
    Attends load stack session result := by
  cases h with
  | goesOn hk h => exact .goesOn hk (hsame ▸ h)
  | ends h => exact .ends (hsame ▸ h)

theorem failLoad_attends (hu : session.loader.registry.Underway load.id) (e : ModuleError) :
    Attends load stack session (failLoad load e stack session) :=
  .ends (Registry.finishes_fail hu e.message)

theorem startBody_attends (host : Host σ H) (bytecode : Bytes) (fingerprint : Option Fingerprint)
    (sourceLength : Nat) (hu : session.loader.registry.Underway load.id) :
    Attends load stack session
      (startBody host load bytecode fingerprint sourceLength stack session) := by
  have hcompiled : Progresses session.loader.registry
      (session.loader.registry.setCompiled load.id fingerprint sourceLength) load.id :=
    Registry.progresses_modify hu fun _ => rfl
  exact .goesOn (by decide)
    (hcompiled.trans (Registry.progresses_beginExecution hcompiled.underway session.exports))

theorem receives_progresses (format : ModuleFormat)
    (hu : session.loader.registry.Underway load.id) :
    Progresses session.loader.registry
      ((session.loader.registry.setFormat load.id format).advance load.id .compiling).2
      load.id := by
  have hformat : Progresses session.loader.registry
      (session.loader.registry.setFormat load.id format) load.id :=
    Registry.progresses_modify hu fun _ => rfl
  have hnext : ModuleState.compiling.isTerminal = false := rfl
  exact hformat.trans (Registry.progresses_advance hformat.underway hnext)

theorem adopt_finishes (handle : Handle) (hu : session.loader.registry.Underway load.id) :
    Finishes session.loader.registry (session.adopt load handle).loader.registry load.id := by
  have hgiven : Progresses session.loader.registry
      (session.loader.registry.setExports load.id handle) load.id :=
    Registry.progresses_modify hu fun _ => rfl
  have hbegun := hgiven.trans
    (Registry.progresses_beginExecution hgiven.underway session.exports)
  exact hbegun.finishes hu (Registry.finishes_complete hbegun.underway)

/-- However a load carries on, it attends to its record. -/
theorem Carries.attends {rest? : Option (Work σ H (Except ModuleError LoadOutput))}
    {state : ModuleState} {exports : Option Handle}
    (hc : Carries host load rest? stack state exports session result)
    (hu : session.loader.registry.Underway load.id) : Attends load stack session result := by
  induction hc with
  | fails e _ _ => exact failLoad_attends hu e
  | awaits _ => exact .goesOn (by decide) (.refl hu)
  | receives format _ ih =>
      have hnoted := receives_progresses format hu
      exact .after hu hnoted (ih hnoted.underway)
  | compiles source options fingerprint => exact .goesOn (by decide) (.refl hu)
  | begins bytecode fingerprint sourceLength => exact startBody_attends host _ _ _ hu
  | adopts handle _ => exact .ends (adopt_finishes handle hu)
  | @completes session handle dependencies =>
      have hnoted : Progresses session.loader.registry
          (session.loader.registry.setDependencies load.id dependencies) load.id :=
        Registry.progresses_modify hu fun _ => rfl
      exact .ends (hnoted.finishes hu (Registry.finishes_complete hnoted.underway))
  | aside ha _ ih => exact .of_eq (ih (ha.registry ▸ hu)) ha.registry

/-- However a load goes on with a value, it attends to its record. -/
theorem resume_attends (host : Host σ H) {frame : Frame σ H k .module} (value : Value σ H k)
    (hf : frame.load? = some load) (hu : session.loader.registry.Underway load.id) :
    Attends load stack session (resume host frame value stack session) := by
  obtain ⟨state, exports, -, -, hcarries⟩ := resume_carries host value stack session hf
  exact hcarries.attends hu

theorem Attends.shifts (h : Attends load stack session result)
    (hu : session.loader.registry.Underway load.id) :
    Shifts session.loader.registry result.2.loader.registry
      (Frame.pursuit? load result.1 >>= (·.use? session.loader.registry)) := by
  cases h with
  | @goesOn kind work frame after hk h =>
      have hnone : (Frame.pursuit? load ⟨kind, work, .cons frame stack⟩ >>=
          (·.use? session.loader.registry)) = none := by
        unfold Frame.pursuit?
        split
        · rfl
        · rename_i heq
          cases heq
          exact absurd rfl hk
        · rfl
      rw [hnone]
      exact .sheds (h.sheds hu)
  | ends h => exact .finishes h

/-! ## Loads that have none yet -/

/-- A module that is served from a finished record is used again. -/
theorem Considers.shifts {key : String} {handle : Handle}
    (hc : Considers key session (.ok (some handle), middle)) :
    Shifts session.loader.registry middle.loader.registry
      ((LoadDeed.served key handle).use? session.loader.registry) := by
  have huse : ∀ {id record}, session.loader.registry.lookup? key = some id →
      session.loader.registry.get? id = some record →
        (LoadDeed.served key handle).use? session.loader.registry =
          if record.state.isTerminal then some (.served id) else none := by
    intro id record hl hr
    rw [LoadDeed.use?, Registry.find?, hl, Option.bind_eq_bind, Option.bind_some, hr]
  cases hc with
  | running hl hr hs _ =>
      rw [huse hl hr, hs]
      exact .sheds (.refl _)
  | served hl hr hs _ _ =>
      rw [huse hl hr, hs]
      exact .serves ⟨rfl, ⟨_, hr, by rw [hs]; rfl⟩, rfl, fun _ => rfl⟩

theorem sheds_beginLoad (key : String) (format : Option ModuleFormat) (base : Path)
    (session : Session σ H) :
    Sheds session.loader.registry (session.beginLoad key format base).2.loader.registry := by
  have hcounted : Sheds session.loader.registry session.loader.registry.countMiss :=
    .of_eq rfl rfl rfl
  have hmade := hcounted.trans (Registry.sheds_insert _ key (format.getD .script))
  exact hmade.trans (Registry.sheds_advance _ _ rfl)

theorem Admits.shifts {order : LoadOrder} {answer : Except ModuleError Resolution}
    (h : Admits host order stack session answer result) :
    Shifts session.loader.registry result.2.loader.registry
      (Frame.arrival? result.1 >>= (·.use? session.loader.registry)) := by
  cases h with
  | unresolved => exact .sheds (.refl _)
  | refused _ => exact .sheds (.refl _)
  | served hserved => exact (considers_of_eq hserved).shifts
  | @begins resolution _ =>
      exact .sheds (sheds_beginLoad resolution.url resolution.format order.base session)

/-! ## Steps -/

theorem Reloads.sheds {reload : Reload} {answer : Except ModuleError Resolution}
    {stack : Stack σ H .reload n} {result : Focus σ H n × Session σ H}
    (h : Reloads host reload stack session answer result) :
    Sheds session.loader.registry result.2.loader.registry := by
  cases h with
  | ends resolved wasCached outcome => exact .refl _
  | @begins resolution wasCached _ =>
      have hforgotten : Sheds session.loader.registry
          (session.forget resolution.url).2.loader.registry := by
        obtain ⟨files, cache, heq⟩ := session.forget_eq resolution.url
        rw [heq]
        exact Registry.sheds_invalidate _ resolution.url
      exact hforgotten.trans (.of_eq rfl rfl rfl)

theorem sheds_perform (session : Session σ H) (operation : Operation σ H) :
    Sheds session.loader.registry (session.perform operation).2.loader.registry := by
  rcases registry_perform session operation with heq | rfl
  · rw [heq]
    exact .refl _
  · exact Registry.sheds_clear _

/-- A load that has a record has it under way. -/
theorem underway_of_frame {frame : Frame σ H k .module} (hf : frame.load? = some load)
    (h : InFlight session.loader.registry (frame.claims ++ claims)) :
    session.loader.registry.Underway load.id := by
  obtain ⟨record, hr, -, hflight⟩ := record_of_frame hf h
  refine ⟨⟨record, hr, hflight⟩, fun hmem => ?_⟩
  obtain ⟨found, hfound, hterminal⟩ := h.sound.finished hmem
  rw [hr] at hfound
  cases hfound
  rw [hflight] at hterminal
  cases hterminal

theorem shifts_resume (host : Host σ H) (frame : Frame σ H k m) (value : Value σ H k)
    (stack : Stack σ H m n) (h : InFlight session.loader.registry (frame.claims ++ claims)) :
    Shifts session.loader.registry (resume host frame value stack session).2.loader.registry
      (frame.act? (resume host frame value stack session).1 >>=
        (·.use? session.loader.registry)) := by
  cases frame using Frame.cases_load with
  | asking next => exact .sheds (.refl _)
  | counting =>
      cases value with
      | ok loaded => exact .sheds (.of_eq rfl rfl rfl)
      | error e => exact .sheds (.of_eq rfl rfl rfl)
  | resolving order => exact (admits host order value stack session).shifts
  | loading frame load hf =>
      have hu := underway_of_frame hf h
      rw [Frame.act?_of_load? hf]
      exact (resume_attends host value hf hu).shifts hu
  | reloading reload => exact .sheds (reloads host reload value stack session).sheds
  | renewing reload key wasCached => exact .sheds (.refl _)

/-- Every step shifts the finished records, by the use that it makes. -/
theorem shifts_step (host : Host σ H) (focus : Focus σ H n)
    (h : InFlight session.loader.registry (focus.claims ++ claims)) :
    Shifts session.loader.registry (session.step host focus).2.loader.registry
      (session.use? host focus) := by
  obtain ⟨kind, work, stack⟩ := focus
  cases work with
  | done value =>
      cases stack with
      | nil => exact .sheds (.refl _)
      | cons frame rest => exact shifts_resume host frame value rest (inFlight_frame h)
  | ask request next =>
      cases request with
      | request request =>
          cases request with
          | operation operation => exact .sheds (sheds_perform session operation)
          | resolve specifier base => exact .sheds (.refl _)
          | require specifier base => exact .sheds (.of_eq rfl rfl rfl)
          | reload specifier base => exact .sheds (.refl _)
      | resolveDefault specifier context => exact .sheds (.refl _)
      | loadDefault url context => exact .sheds (.refl _)
      | pause =>
          rcases step_pause host next stack session with heq | heq <;> rw [heq]
          · exact .sheds (.refl _)
          · exact .sheds (.refl _)

end Session

namespace Traffic

variable {host : Host σ H} {traffic : Traffic σ H} {journal : List ModuleId}

/-! ## Runs -/

/-- The use that an event makes. -/
def use? (host : Host σ H) (traffic : Traffic σ H) (event : TrafficEvent σ H) :
    Option Registry.Use :=
  traffic.act? host event >>= (·.use? traffic.session.loader.registry)

/-- The finished records that events use, in order. -/
def uses (host : Host σ H) : Traffic σ H → List (TrafficEvent σ H) → List ModuleId
  | _, [] => []
  | traffic, event :: events =>
    ((traffic.use? host event).map (·.id)).toList ++ uses host (traffic.after host event) events

theorem uses_concat (host : Host σ H) (traffic : Traffic σ H) (events : List (TrafficEvent σ H))
    (event : TrafficEvent σ H) : traffic.uses host (events ++ [event]) =
      traffic.uses host events ++
        (((traffic.afterAll host events).use? host event).map (·.id)).toList := by
  induction events generalizing traffic with
  | nil => exact List.append_nil _
  | cons first events ih =>
      rw [List.cons_append, uses, ih, uses, List.append_assoc]
      rfl

/-- Whatever happens shifts the finished records, by the use that it makes. -/
theorem Reached.shifts (h : Reached host traffic) (event : TrafficEvent σ H) :
    Shifts traffic.session.loader.registry (traffic.after host event).session.loader.registry
      (traffic.use? host event) := by
  cases event with
  | imported specifier base => exact .sheds (.of_eq rfl rfl rfl)
  | required specifier base => exact .sheds (.of_eq rfl rfl rfl)
  | resolved specifier base => exact .sheds (.refl _)
  | reloaded specifier base => exact .sheds (.refl _)
  | operated operation => exact .sheds (Session.sheds_perform traffic.session operation)
  | changed surroundings => exact .sheds (.refl _)
  | advanced index =>
      cases htask : traffic.tasks[index]? with
      | none =>
          simp only [use?, act?, after, htask]
          exact .sheds (.refl _)
      | some task =>
          simp only [use?, act?, after, htask, session_proceed]
          exact Session.shifts_step host task.focus
            (h.isHonored.inFlight.perm (claims_perm htask))
  | dropped index =>
      have hsame : (traffic.after host (.dropped index)).session = traffic.session := by
        unfold after
        simp only
        split <;> rfl
      rw [hsame]
      exact .sheds (.refl _)

/-- A ranking outlasts every run, with its uses. -/
theorem Reached.ranked (h : Reached host traffic)
    (hr : Ranked journal traffic.session.loader.registry) (events : List (TrafficEvent σ H)) :
    Ranked (journal ++ traffic.uses host events)
        (traffic.afterAll host events).session.loader.registry ∧
      (traffic.afterAll host events).session.loader.registry.maxSize =
        traffic.session.loader.registry.maxSize := by
  induction events generalizing traffic journal with
  | nil =>
      rw [uses, List.append_nil]
      exact ⟨hr, rfl⟩
  | cons event events ih =>
      have hshifts := h.shifts event
      obtain ⟨hranked, hmaxSize⟩ := ih (h.step event) (hr.shifts hshifts)
      rw [uses, ← List.append_assoc]
      exact ⟨hranked, hmaxSize.trans hshifts.maxSize⟩

/-- What a loader keeps of finished modules, whatever happens from its start. -/
structure RanksFinished (host : Host σ H) (maxSize : Nat) (start : Traffic σ H) : Prop where
  /-- The order lists the finished records, and nothing else. -/
  mem_order_iff : ∀ events id, id ∈ (start.afterAll host events).session.loader.registry.order ↔
    (start.afterAll host events).session.loader.registry.Finished id
  nodup : ∀ events, (start.afterAll host events).session.loader.registry.order.Nodup
  length_le : ∀ events,
    (start.afterAll host events).session.loader.registry.order.length ≤ max 1 maxSize
  /-- It lists them by their last use. -/
  used : ∀ events, ∀ id ∈ (start.afterAll host events).session.loader.registry.order,
    id ∈ start.uses host events
  pairwise : ∀ events, (start.afterAll host events).session.loader.registry.order.Pairwise
    (UsedBefore (start.uses host events))
  /-- When a load ends, those used last are kept. -/
  ended : ∀ events event load result,
    (start.afterAll host events).act? host event = some (.ended load result) →
      Registry.KeepsLatest (start.uses host (events ++ [event]))
        (start.afterAll host events).session.loader.registry
        (start.afterAll host (events ++ [event])).session.loader.registry load.id
  maxSize : ∀ events, (start.afterAll host events).session.loader.registry.maxSize = maxSize

/-- A loader that was opened ranks its finished modules by their last use. -/
theorem ranksFinished_opened (host : Host σ H) {config : Config} {before : FileSystem}
    {loader : Loader H} {surroundings : Surroundings σ}
    (h : Loader.openWith config before = (.ok loader, surroundings.files)) :
    RanksFinished host config.maxCacheSize (opened surroundings loader) := by
  have hreached : Reached host (opened surroundings loader) := .opened surroundings h
  have hregistry : loader.registry = { maxSize := config.maxCacheSize } := (openWith_ok h).1
  have hranked : ∀ events, Ranked ((opened surroundings loader).uses host events)
        ((opened surroundings loader).afterAll host events).session.loader.registry ∧
      ((opened surroundings loader).afterAll host events).session.loader.registry.maxSize =
        config.maxCacheSize := by
    intro events
    have hnone : Ranked [] loader.registry := hregistry ▸ Registry.ranked_empty _
    obtain ⟨hevents, hmaxSize⟩ := hreached.ranked hnone events
    refine ⟨hevents, hmaxSize.trans ?_⟩
    show loader.registry.maxSize = config.maxCacheSize
    rw [hregistry]
  constructor
  case mem_order_iff => exact fun events => (hranked events).1.mem_order_iff
  case nodup => exact fun events => (hranked events).1.nodup
  case length_le => exact fun events => (hranked events).2 ▸ (hranked events).1.length_le
  case used => exact fun events => (hranked events).1.used
  case pairwise => exact fun events => (hranked events).1.pairwise
  case maxSize => exact fun events => (hranked events).2
  case ended =>
    intro events event load result hact
    have huse : ((opened surroundings loader).afterAll host events).use? host event =
        some (.finished load.id) := by
      rw [use?, hact]
      rfl
    have hshifts := (hreached.afterAll events).shifts event
    rw [uses_concat, afterAll_append, huse]
    rw [huse] at hshifts
    cases hshifts with
    | finishes hfinishes => exact (hranked events).1.keepsLatest hfinishes

/-! ## A narrow loader -/

/-- A host whose hooks give an empty script for every module. -/
def emptyHost : Host Unit Unit where
  engine := "1"
  resolve _ specifier _ := .done (.ok ⟨specifier, some .script, true⟩)
  load _ _ _ := .done (.ready (.ok ⟨.script, some [], true⟩))
  compile source _ := .done (.ok source)
  execute _ _ _ := .done (.ok ())

/-- A loader that keeps two finished modules. -/
def narrowLoader : Loader Unit :=
  { config := { maxCacheSize := 2 }, resolver := .ofConfig { maxCacheSize := 2 }
    registry := { maxSize := 2 }, cache := none }

/-- It was just opened, with no files. -/
def narrowStart : Traffic Unit Unit :=
  opened { files := .empty, exports := {}, state := () } narrowLoader

/-- Three modules are required, the first one again before the third. -/
def fourRequires : List (TrafficEvent Unit Unit) :=
  .operated (.register (some { resolve := some (), load := some () })) ::
    ["a", "b", "a", "c"].flatMap fun specifier =>
      .required specifier (.ofString "/") :: List.replicate 10 (.advanced 0)

/-- The second module has to go for the third, since the first was served meanwhile. -/
theorem ranksFinished_fourRequires :
    (narrowStart.afterAll emptyHost fourRequires).session.loader.registry.order = [⟨0⟩, ⟨2⟩] ∧
      narrowStart.uses emptyHost fourRequires = [⟨0⟩, ⟨1⟩, ⟨0⟩, ⟨2⟩] ∧
      RanksFinished emptyHost 2 narrowStart := by
  have hopen : Loader.openWith { maxCacheSize := 2 } .empty =
      (.ok narrowLoader, narrowStart.session.files) := rfl
  exact ⟨by decide +kernel, by decide +kernel, ranksFinished_opened emptyHost hopen⟩

end Traffic

end ScriptModules
