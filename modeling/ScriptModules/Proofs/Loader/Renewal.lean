import ScriptModules.Proofs.Loader.Freshness
import ScriptModules.Proofs.Loader.OneInstance
import ScriptModules.Proofs.Loader.Steadiness

/-!
# Reloading what has been loaded

When a module was required by a specifier, a reload by this specifier finds the same module
again, as long as hooks and programs do nothing but load modules.  What becomes of the reload
then depends on one thing only: whether the canonical id, taken as a specifier, leads to the
module too (`Traffic.Reached.renews`).  Where it does not, as with a hook that gives an alias
to an id of its own, what could be loaded cannot be reloaded.
-/

namespace ScriptModules

open Registry (Claim InFlight Precedes)

variable {σ H : Type} {k m n : Kind}

/-! ## Composed work -/

/-- Whether no frame waits. -/
def Stack.isEmpty : Stack σ H k n → Bool
  | .nil => true
  | .cons .. => false

theorem Stack.claims_append (stack : Stack σ H k m) (below : Stack σ H m n) :
    (stack.append below).claims = stack.claims ++ below.claims := by
  induction stack with
  | nil => rfl
  | cons frame rest ih =>
      simp only [append, claims, ih, List.append_assoc]

theorem Focus.claims_onto (focus : Focus σ H m) (below : Stack σ H m n) :
    (focus.onto below).claims = focus.claims ++ below.claims :=
  focus.stack.claims_append below

theorem Progress.GoesOn.claims {progress : Progress σ H n} {focus : Focus σ H n}
    (h : progress.GoesOn focus) : progress.claims = focus.claims := by
  cases h <;> rfl

namespace Session

variable {host : Host σ H} {session middle last : Session σ H} {claims : List Claim}
  {key specifier : String} {base : Path}

/-! ## What a load gives -/

/-- What is left of a load gives the module with a certain id, if it gives one. -/
inductive Loads (key : String) : Focus σ H .module → Prop where
  | inside {k : Kind} (focus : Focus σ H k) (frame : Frame σ H k .module) {load : Load}
      (hf : frame.load? = some load) (hk : load.key = key) :
      Loads key (focus.onto (.cons frame .nil))
  | ended {result : Except ModuleError LoadedModule}
      (h : ∀ other handle, result = .ok (other, handle) → other = key) :
      Loads key ⟨.module, .done result, .nil⟩

theorem Pursues.loads {load : Load} {record : ModuleRecord}
    {result : Focus σ H .module × Session σ H} (h : Pursues load record .nil session result) :
    Loads load.key result.1 := by
  cases h with
  | @waits kind work frame _ _ _ hf _ _ _ =>
      exact .inside ⟨kind, work, .nil⟩ frame hf rfl
  | @begins work _ _ handle _ _ _ _ _ =>
      exact .inside ⟨.execution, work, .nil⟩ (.executing load handle) rfl rfl
  | succeeds _ _ _ => exact .ended fun other handle heq => by cases heq; rfl
  | fails _ _ _ => exact .ended fun other handle heq => nomatch heq

theorem Arrives.loads {order : LoadOrder} {resolution : Resolution}
    {result : Focus σ H .module × Session σ H}
    (h : Arrives order resolution .nil session result) : Loads resolution.url result.1 := by
  cases h with
  | refused => exact .ended fun other handle heq => nomatch heq
  | served _ => exact .ended fun other handle heq => by cases heq; rfl
  | @begins base work _ _ _ =>
      exact .inside ⟨.reply, work, .nil⟩ (.fetching _ order.mode) rfl rfl

theorem inFlight_goesOn {focus next : Focus σ H n}
    (hi : InFlight session.loader.registry (focus.claims ++ claims))
    (h : (session.step host focus).1.GoesOn next) :
    InFlight (session.step host focus).2.loader.registry (next.claims ++ claims) := by
  rw [← h.claims]
  exact (leaves_step host focus hi).inFlight

/-- A step of a load of a module leaves a load of this module, or a module given. -/
theorem loads_step {focus next : Focus σ H .module}
    (hi : InFlight session.loader.registry (focus.claims ++ claims))
    (ht : session.loader.registry.Tabled) (hl : Loads key focus)
    (h : (session.step host focus).1.GoesOn next) : Loads key next := by
  cases hl with
  | @inside k focus frame load hf hk =>
      rcases step_cases host focus session with ⟨value, rfl⟩ | ⟨inner, hinner⟩
      · rw [Focus.claims_onto] at hi
        have hframe : InFlight session.loader.registry (frame.claims ++ claims) := by
          simpa [Focus.claims, Stack.claims] using hi
        obtain ⟨record, hr, -, -⟩ := record_of_frame hf hframe
        have hpursues := (resume_pursues host value hf hframe ht hr).loads
        rw [hk] at hpursues
        cases h
        exact hpursues
      · rw [h.unique (step_onto (.cons frame .nil) hinner).1]
        exact .inside inner frame hf hk
  | ended _ => exact absurd h not_goesOn_done

/-- What every step preserves of a sound loader, a run preserves. -/
theorem invariant_leads {motive : Focus σ H n → Session σ H → Prop} {focus final : Focus σ H n}
    (h : Leads host focus session final last)
    (hi : InFlight session.loader.registry (focus.claims ++ claims))
    (ht : session.loader.registry.Tabled) (hm : motive focus session)
    (hstep : ∀ {focus next : Focus σ H n} {session : Session σ H},
      InFlight session.loader.registry (focus.claims ++ claims) →
      session.loader.registry.Tabled → (session.step host focus).1.GoesOn next →
      motive focus session → motive next (session.step host focus).2) :
    motive final last := by
  induction h with
  | refl => exact hm
  | @step focus next final session last h _ ih =>
      have hturn := (turn_step host focus hi ht).1
      exact ih (inFlight_goesOn hi h) (hturn.tabled ht) (hstep hi ht h hm)

/-- A run leaves claims honored and records with their tables, and ids name one record
each. -/
theorem honored_leads {focus final : Focus σ H n} (h : Leads host focus session final last)
    (hi : InFlight session.loader.registry (focus.claims ++ claims))
    (ht : session.loader.registry.Tabled) :
    InFlight last.loader.registry (final.claims ++ claims) ∧ last.loader.registry.Tabled ∧
      Precedes session.loader.registry last.loader.registry := by
  refine invariant_leads (motive := fun focus after =>
    InFlight after.loader.registry (focus.claims ++ claims) ∧ after.loader.registry.Tabled ∧
      Precedes session.loader.registry after.loader.registry) h hi ht ⟨hi, ht, .refl _⟩ ?_
  intro focus next after hi ht hgoes hm
  have hturn := (turn_step host focus hi ht).1
  exact ⟨inFlight_goesOn hi hgoes, hturn.tabled ht, hm.2.2.trans hturn.precedes⟩

theorem loads_leads {focus final : Focus σ H .module} (h : Leads host focus session final last)
    (hi : InFlight session.loader.registry (focus.claims ++ claims))
    (ht : session.loader.registry.Tabled) (hl : Loads key focus) : Loads key final :=
  invariant_leads (motive := fun focus _ => Loads key focus) h hi ht hl
    fun hi ht hgoes hl => loads_step hi ht hl hgoes

theorem given_leads {keys : String → Prop} {focus final : Focus σ H n}
    (h : Leads host focus session final last)
    (hi : InFlight session.loader.registry (focus.claims ++ claims))
    (ht : session.loader.registry.Tabled) (hg : focus.Given keys session.loader.registry) :
    final.Given keys last.loader.registry := by
  refine invariant_leads (motive := fun focus after => focus.Given keys after.loader.registry)
    h hi ht hg ?_
  intro focus next after hi ht hgoes hg
  have hgiven := given_step host hi ht hg
  generalize after.step host focus = result at hgoes hgiven
  obtain ⟨progress, later⟩ := result
  cases hgoes <;> cases hgiven <;> assumption

/-- Frames that wait for other work are not over. -/
theorem onto_cons_ne {focus : Focus σ H k} {frame : Frame σ H k m} {stack : Stack σ H m n}
    {value : Value σ H n} : focus.onto (.cons frame stack) ≠ ⟨n, .done value, .nil⟩ := by
  intro h
  obtain ⟨kind, work, above⟩ := focus
  have hempty := congrArg (fun focus => focus.stack.isEmpty) h
  cases above <;> cases hempty

theorem Loads.of_ended {result : Except ModuleError LoadedModule}
    (h : Loads key (⟨.module, .done result, .nil⟩ : Focus σ H .module)) {other : String}
    {handle : Handle} (heq : result = .ok (other, handle)) : other = key := by
  generalize hfocus : (⟨.module, .done result, .nil⟩ : Focus σ H .module) = focus at h
  cases h with
  | inside focus frame _ _ => exact absurd hfocus.symm onto_cons_ne
  | ended h =>
      cases hfocus
      exact h other handle heq

/-! ## Requiring, taken apart -/

/-- A loader that has counted the start of a load. -/
def entered (session : Session σ H) : Session σ H :=
  let isMain := session.loader.executing == 0 && !session.loader.mainLoaded
  { session.withRegistry Registry.countStarted with
    loader.mainLoaded := session.loader.mainLoaded || isMain }

/-- The order of a load that starts now. -/
def orderOf (session : Session σ H) (specifier : String) (base : Path) : LoadOrder :=
  { mode := .immediate
    specifier
    base
    conditions := session.loader.conditions LoadMode.immediate.name
    isMain := session.loader.executing == 0 && !session.loader.mainLoaded }

/-- What resolve hooks are told of a load. -/
def contextOf (order : LoadOrder) : ResolveContext :=
  ⟨order.specifier, order.base, order.conditions, order.isMain⟩

/-- What is left of a load whose specifier is being resolved. -/
def ordered (order : LoadOrder) : Stack σ H .resolution .module :=
  .cons (.resolving order) (.cons .counting .nil)

theorem startLoad_eq (session : Session σ H) (specifier : String) (base : Path) :
    session.startLoad host .immediate specifier base .nil =
      onto (ordered (session.orderOf specifier base))
        (session.entered.asking host specifier (contextOf (session.orderOf specifier base))) :=
  rfl

/-- A load goes on with what its specifier is resolved to, and then its outcome is counted. -/
theorem comes_ordered_iff {order : LoadOrder} {result : Except ModuleError Resolution}
    {value : Value σ H .module} :
    Comes host ⟨.resolution, .done result, ordered order⟩ session value last ↔
      ∃ after, Comes host (receiveResolution host order result .nil session).1
          (receiveResolution host order result .nil session).2 value after ∧
        last = after.countOutcome value := by
  have honto : resume host (.resolving order) (result : Value σ H .resolution)
      (.cons .counting .nil) session =
      onto (.cons .counting .nil) (receiveResolution host order result .nil session) :=
    receiveResolution_onto .nil _ order result
  have hcomes := congrArg (fun result => Comes host result.1 result.2 value last) honto
  refine comes_resume_iff.trans ((iff_of_eq hcomes).trans (comes_onto_iff.trans ⟨?_, ?_⟩))
  · rintro ⟨between, after, hafter, hcounted⟩
    obtain ⟨rfl, rfl⟩ := comes_done_iff.mp (comes_resume_iff.mp hcounted)
    exact ⟨after, hafter, rfl⟩
  · rintro ⟨after, hafter, rfl⟩
    exact ⟨value, after, hafter, comes_resume_iff.mpr (comes_done_iff.mpr ⟨rfl, rfl⟩)⟩

/-- What a load gives that has been resolved is the module it was resolved to. -/
theorem url_of_comes {order : LoadOrder} {result : Except ModuleError Resolution} {handle : Handle}
    (hi : InFlight session.loader.registry claims) (ht : session.loader.registry.Tabled)
    (h : Comes host ⟨.resolution, .done result, ordered order⟩ session
      ((.ok (key, handle) : Except ModuleError LoadedModule) : Value σ H .module) last) :
    ∃ resolution, result = .ok resolution ∧ resolution.url = key := by
  obtain ⟨between, hgiven, -⟩ := comes_ordered_iff.mp h
  cases result with
  | error e => cases (comes_done_iff.mp hgiven).1
  | ok resolution =>
      refine ⟨resolution, rfl, ?_⟩
      have hnext : InFlight
          (receiveResolution host order (.ok resolution) .nil session).2.loader.registry
          ((receiveResolution host order (.ok resolution) .nil session).1.claims ++ claims) :=
        ((admits host order (.ok resolution) .nil session).inFlight hi).1
      have harrives : Arrives order resolution .nil session
          (receiveResolution host order (.ok resolution) .nil session) :=
        receiveResolution_arrives host order resolution hi.sound
      have hloads := loads_leads hgiven hnext (harrives.turn.1.tabled ht) harrives.loads
      exact (hloads.of_ended rfl).symm

/-- A module that is required is one that the specifier resolves to. -/
theorem require_resolves {handle : Handle} (hi : InFlight session.loader.registry claims)
    (ht : session.loader.registry.Tabled)
    (h : Answers host session (.require specifier base) (.ok (key, handle)) last) :
    ∃ resolution between,
      Comes host
          (session.entered.asking host specifier (contextOf (session.orderOf specifier base))).1
          (session.entered.asking host specifier (contextOf (session.orderOf specifier base))).2
          ((.ok resolution : Except ModuleError Resolution) : Value σ H .resolution) between ∧
        resolution.url = key ∧
        Comes host ⟨.resolution, .done (.ok resolution), ordered (session.orderOf specifier base)⟩
          between ((.ok (key, handle) : Except ModuleError LoadedModule) : Value σ H .module)
          last := by
  have hcomes := answers_require_iff.mp h
  rw [startLoad_eq] at hcomes
  obtain ⟨result, between, hasked, hrest⟩ := comes_onto_iff.mp hcomes
  have hstart : InFlight (session.entered.asking host specifier
      (contextOf (session.orderOf specifier base))).2.loader.registry
      ((session.entered.asking host specifier
        (contextOf (session.orderOf specifier base))).1.claims ++ claims) := hi.of_eq rfl rfl rfl
  obtain ⟨hbetween, htabled, -⟩ := honored_leads hasked hstart ht
  obtain ⟨resolution, rfl, hurl⟩ := url_of_comes hbetween htabled hrest
  exact ⟨resolution, between, hasked, hurl, hrest⟩

/-- After a module was required, its specifier still resolves to it. -/
theorem resolves_again {handle : Handle} (hh : host.IsSteady)
    (hi : InFlight session.loader.registry claims) (ht : session.loader.registry.Tabled)
    (hc : session.loader.IsConfigured) (hc' : middle.loader.IsConfigured)
    (hfiles : middle.files.ResolvesLike session.files)
    (h : Answers host session (.require specifier base) (.ok (key, handle)) middle) :
    ∃ resolution before, Answers host middle (.resolve specifier base) (.ok resolution) before ∧
      middle.Grows before ∧ resolution.url = key := by
  obtain ⟨resolution, between, hasked, hurl, hrest⟩ := require_resolves hi ht h
  have hasking : (session.entered.asking host specifier
      (contextOf (session.orderOf specifier base))).1.IsSteady :=
    ⟨keeps_resolveWork hh _ _ _, trivial⟩
  have hordered : Focus.IsSteady (⟨.resolution, .done (.ok resolution),
      ordered (session.orderOf specifier base)⟩ : Focus σ H .module) :=
    ⟨trivial, trivial, trivial, trivial⟩
  have hfirst : session.entered.Heeds between :=
    (grows_asking ..).toHeeds.trans (steadily_leads hh hasking hasked).heeds
  have hlater : between.Heeds middle := (steadily_leads hh hordered hrest).heeds
  have hheeds := hfirst.trans hlater
  have hconfig : middle.loader.config = session.loader.config :=
    hc'.config.symm.trans (hheeds.config.trans hc.config)
  have hcontext : ResolveContext.SameButMain
      ⟨specifier, base, middle.loader.conditions LoadMode.immediate.name, false⟩
      (contextOf (session.orderOf specifier base)) := by
    unfold Loader.conditions
    rw [hconfig]
    rfl
  obtain ⟨answer, last, hcomes, -, hfollows⟩ :=
    asking_alike hh.resolve middle session.entered hfiles hheeds.hooks hheeds.config hheeds.names
      specifier hcontext
  obtain ⟨rfl, rfl⟩ := hcomes.unique hasked
  have hstands : middle.loader.resolver.manifests.Stands
      session.entered.loader.resolver.manifests last.loader.resolver.manifests := by
    refine ⟨?_, fun hknown => ⟨_, hheeds.manifests _ _ hknown⟩, fun hknown hnow => ?_⟩
    · show _ = session.loader.resolver.manifests.fileName
      rw [hc'.fileName, hc.fileName, hconfig]
    · exact Option.some.inj (hknown.symm.trans (hlater.manifests _ _ hnow))
  obtain ⟨before, hbefore, hgrows⟩ := hfollows _ (.refl _) hstands
  exact ⟨resolution, before, answers_resolve_iff.mpr hbefore, hgrows, hurl⟩

/-! ## Requiring what was forgotten -/

theorem lookup?_forget (key : String) (session : Session σ H) :
    (session.forget key).2.loader.registry.lookup? key = none := by
  obtain ⟨files, cache, hforgotten⟩ := session.forget_eq key
  rw [hforgotten]
  exact Registry.lookup?_invalidate _ key

/-- When a module that was forgotten is required by its id and given, it has a record that
was never there before, and that is complete. -/
theorem require_forgotten {handle : Handle} (hi : InFlight session.loader.registry claims)
    (ht : session.loader.registry.Tabled) (hf : session.loader.registry.isLoading key = false)
    (hclaims : ∀ claim ∈ claims, claim.id.index < session.loader.registry.records.size)
    (h : Answers host (session.forget key).2 (.require specifier base) (.ok (key, handle)) last) :
    ∃ id record, last.loader.registry.lookup? key = some id ∧
      last.loader.registry.get? id = some record ∧ record.state = .complete ∧
        record.exports = some handle ∧ session.loader.registry.records.size ≤ id.index := by
  have hterminal : ∀ record, session.loader.registry.find? key = some record →
      record.state.isTerminal = true := by
    intro record hrecord
    unfold Registry.isLoading at hf
    rw [hrecord] at hf
    simpa using hf
  have hforgotten := inFlight_forget key hi hterminal
  have htabled : (session.forget key).2.loader.registry.Tabled :=
    (forget_turn key session).1.tabled ht
  have hsize := (forget_turn key session).1.precedes.size
  have hcomes := answers_require_iff.mp h
  have hstart : InFlight ((session.forget key).2.startLoad host .immediate specifier base
      .nil).2.loader.registry (((session.forget key).2.startLoad host .immediate specifier base
        .nil).1.claims ++ claims) :=
    (inFlight_startLoad host .immediate specifier base .nil hforgotten).1
  obtain ⟨hlast, -, hprecedes⟩ := honored_leads hcomes hstart htabled
  have hgiven : Focus.Given (· = key) _ _ :=
    given_leads hcomes hstart htabled (.other (by decide) ⟨trivial, trivial, trivial⟩)
  obtain ⟨id, record, hl, hr, he, hs⟩ : last.loader.registry.Holds key handle := by
    cases hgiven with
    | other hk _ => exact absurd rfl hk
    | result _ hheld => exact hheld key handle rfl rfl
  have hnew : session.loader.registry.records.size ≤ id.index := by
    refine Nat.le_of_not_lt fun hlt => ?_
    -- An older id would name a record of the module that was not forgotten.
    obtain ⟨old, hold, hbecomes⟩ := hprecedes.origin hr (Nat.lt_of_lt_of_le hlt hsize)
    obtain ⟨found, hfound, hkey, -⟩ := hlast.sound.of_lookup hl
    cases hr.symm.trans hfound
    have hlookup := hstart.sound.lookup_key hold
    rw [← hbecomes.key, hkey] at hlookup
    cases (lookup?_forget key session).symm.trans hlookup
  refine ⟨id, record, hl, hr, ?_, he, hnew⟩
  rcases hs with hs | hs
  · -- A body that is running is claimed, and all claims there are were there before.
    obtain ⟨claim, hclaim, rfl⟩ := hlast.claimed hr (by rw [hs]; rfl)
    exact absurd (hclaims claim hclaim) (Nat.not_lt.mpr hnew)
  · exact hs

/-! ## Reloading what has been loaded -/

/-- What it means that a specifier is reloaded through the id of its module.  The loader is
`before` when the specifier has been resolved. -/
structure ReloadsThrough (host : Host σ H) (session before : Session σ H) (specifier : String)
    (base : Path) (key : String) : Prop where
  /-- So far it has changed in nothing but what it knows of manifests. -/
  grows : session.Grows before
  /-- The reload comes to what requiring the id comes to once the module is forgotten. -/
  reloads : ∀ report last, Answers host session (.reload specifier base) report last ↔
    ∃ result, Answers host (before.forget key).2 (.require key base) result last ∧
      report = (session.reloadOf specifier base).report (some key) (before.forget key).1
        (result.map (·.2)) last
  /-- Where the id leads to the module, the reload succeeds, and the registry holds a new and
  complete record with the exports reported. -/
  succeeds : ∀ handle last,
    Answers host (before.forget key).2 (.require key base) (.ok (key, handle)) last →
    ∃ report, Answers host session (.reload specifier base) report last ∧
      report.resolved = some key ∧ report.outcome = .ok (last.exports.toJson handle) ∧
      ∃ id record, last.loader.registry.lookup? key = some id ∧
        last.loader.registry.get? id = some record ∧ record.state = .complete ∧
          record.exports = some handle ∧ session.loader.registry.records.size ≤ id.index
  /-- Where it is an error, so is the reload. -/
  fails : ∀ e last, Answers host (before.forget key).2 (.require key base) (.error e) last →
    ∃ report, Answers host session (.reload specifier base) report last ∧
      report.resolved = some key ∧ report.outcome = .error e

/-- What a specifier resolves to, if it is not built in and not in flight, it is reloaded
through. -/
theorem reloadsThrough_of_resolve {resolution : Resolution} {before : Session σ H}
    (hi : InFlight session.loader.registry claims) (ht : session.loader.registry.Tabled)
    (h : Answers host session (.resolve specifier base) (.ok resolution) before)
    (hg : session.Grows before) (hb : textAfter? builtinPrefix resolution.url = none)
    (hf : session.loader.registry.isLoading resolution.url = false) :
    ReloadsThrough host session before specifier base resolution.url := by
  have hf' : before.loader.registry.isLoading resolution.url = false := by
    rw [hg.registry]
    exact hf
  have hreloads : ∀ report last, Answers host session (.reload specifier base) report last ↔ _ :=
    fun report last => reload_iff_required h hb hf'
  refine ⟨hg, hreloads, fun handle last hrequired => ?_, fun e last hrequired => ?_⟩
  · have hclaims : ∀ claim ∈ claims, claim.id.index < before.loader.registry.records.size := by
      intro claim hclaim
      obtain ⟨record, hr, -⟩ := hi.carried claim hclaim
      rw [hg.registry]
      exact Registry.index_lt hr
    have hforgotten := require_forgotten (hg.registry ▸ hi) (hg.registry ▸ ht) hf' hclaims hrequired
    rw [hg.registry] at hforgotten
    exact ⟨_, (hreloads _ _).mpr ⟨_, hrequired, rfl⟩, rfl, rfl, hforgotten⟩
  · exact ⟨_, (hreloads _ _).mpr ⟨_, hrequired, rfl⟩, rfl, rfl⟩

end Session

namespace Traffic

variable {host : Host σ H} {session middle : Session σ H} {tasks : List (Task σ H)}
  {abandoned : List Claim}

/-- A loader that has answered a request of the embedder. -/
theorem Reached.answers (h : Reached host { session, tasks, abandoned }) {request : Request σ H}
    {answer : request.Answer} (ha : Session.Answers host session request answer middle) :
    Reached host { session := middle, tasks, abandoned } := by
  obtain ⟨steps, hsteps⟩ := ha
  obtain ⟨left, hleft, hover⟩ := h.answer steps request
  rw [hsteps] at hleft hover
  rw [hover rfl, List.append_nil] at hleft
  exact hleft

/-- All through every run of a loader with a steady host, a module that was just required can
be reloaded by the same specifier exactly as far as its id can be required. -/
theorem Reached.renews (h : Reached host { session, tasks, abandoned }) (hh : host.IsSteady)
    {specifier key : String} {base : Path} {handle : Handle}
    (hr : Session.Answers host session (.require specifier base) (.ok (key, handle)) middle)
    (hfiles : middle.files.ResolvesLike session.files) (hb : textAfter? builtinPrefix key = none)
    (hf : middle.loader.registry.isLoading key = false) :
    ∃ before, Session.ReloadsThrough host middle before specifier base key := by
  have hmiddle := h.answers hr
  obtain ⟨resolution, before, hresolve, hgrows, rfl⟩ :=
    Session.resolves_again hh h.isHonored.inFlight h.tabled h.isConfigured hmiddle.isConfigured
      hfiles hr
  exact ⟨before, Session.reloadsThrough_of_resolve hmiddle.isHonored.inFlight hmiddle.tabled
    hresolve hgrows hb hf⟩

/-! ## Ids that lead to their modules -/

instance : DecidableEq FileSystem
  | ⟨nodes, place, lost, clock⟩, ⟨nodes', place', lost', clock'⟩ =>
    decidable_of_iff (nodes = nodes' ∧ place = place' ∧ lost = lost' ∧ clock = clock') (by simp)

theorem isSteady_cyclicHost : cyclicHost.IsSteady where
  resolve _ specifier _ _ _ := .done (.ok ⟨specifier, some .script, true⟩)
  load _ _ _ := trivial
  compile _ _ := trivial
  execute _ _ _ := ⟨trivial, fun _ _ => trivial⟩

/-- The loader of this host when a module was required. -/
def requiredLoader : Session Unit Unit :=
  (cyclicLoader.session.answer cyclicHost 20 (.require "m" (.ofString "/"))).2

/-- A module is required with success when that can be seen of the answer. -/
theorem answers_of_toOption {host : Host Unit Unit} {session : Session Unit Unit} {steps : Nat}
    {specifier : String} {base : Path} {loaded : LoadedModule}
    (h : (session.answer host steps (.require specifier base)).1.map
      (fun answer : Except ModuleError LoadedModule => answer.toOption) = some (some loaded)) :
    Session.Answers host session (.require specifier base) (.ok loaded)
      (session.answer host steps (.require specifier base)).2 :=
  Session.answers_require_iff.mpr (Session.comes_of_toOption h)

/-- The module has been required, and its id leads to it. -/
theorem renews_requiredLoader :
    ∃ before, Session.ReloadsThrough cyclicHost requiredLoader before "m" (.ofString "/") "m" := by
  have hreached : Reached cyclicHost cyclicLoader := (reached_idleLoader cyclicHost).afterAll _
  have hrequired : Session.Answers cyclicHost cyclicLoader.session (.require "m" (.ofString "/"))
      (.ok ("m", ⟨0⟩)) requiredLoader := answers_of_toOption (by decide +kernel)
  have hfiles : requiredLoader.files = cyclicLoader.session.files := by decide +kernel
  have hlike : requiredLoader.files.ResolvesLike cyclicLoader.session.files :=
    fun _ _ _ => by rw [hfiles]
  have hidle : requiredLoader.loader.registry.isLoading "m" = false := by decide +kernel
  exact hreached.renews isSteady_cyclicHost hrequired hlike (by decide +kernel) hidle

/-! ## Ids that do not -/

/-- A host whose hooks know the module `lib` by an id that they do not take as a
specifier. -/
def aliasHost : Host Unit Unit where
  engine := "1"
  resolve _ specifier context :=
    if specifier = "lib" then .done (.ok ⟨"mem:lib", some .script, true⟩)
    else .ask (.next specifier context) fun
      | .ok resolution => .done (.ok resolution)
      | .error _ => .done (.error (.message "no"))
  load _ _ _ := .done (.ready (.ok ⟨.script, some [], true⟩))
  compile source _ := .done (.ok source)
  execute _ _ _ := .done (.ok ())

theorem isSteady_aliasHost : aliasHost.IsSteady where
  resolve _ specifier context other hc := by
    unfold aliasHost
    simp only
    split
    · exact .done _
    · exact .next hc fun answer => by cases answer <;> exact .done _
  load _ _ _ := trivial
  compile _ _ := trivial
  execute _ _ _ := trivial

/-- The loader of this host with its hooks registered. -/
def aliasLoader : Traffic Unit Unit :=
  idleLoader.afterAll aliasHost
    [.operated (.register (some { resolve := some (), load := some () }))]

/-- The same loader when the module was required. -/
def aliasRequired : Session Unit Unit :=
  (aliasLoader.session.answer aliasHost 20 (.require "lib" (.ofString "/"))).2

/-- The module can be required, and then it cannot be reloaded. -/
theorem not_reload_succeeds :
    ¬ ∀ host : Host Unit Unit, host.IsSteady →
      ∀ traffic : Traffic Unit Unit, Reached host traffic → traffic.tasks.length = 0 →
      ∀ (specifier key : String) (base : Path) (handle : Handle) (middle : Session Unit Unit),
        Session.Answers host traffic.session (.require specifier base) (.ok (key, handle)) middle →
        middle.files = traffic.session.files → textAfter? builtinPrefix key = none →
      ∀ (report : ReloadResult) (last : Session Unit Unit),
        Session.Answers host middle (.reload specifier base) report last →
        report.outcome.isOk = true := by
  intro hclaim
  have hreload : (aliasRequired.answer aliasHost 20 (.reload "lib" (.ofString "/"))).1.map
      (fun report : ReloadResult => report.outcome.isOk) = some false := by
    decide +kernel
  have hfiles : aliasRequired.files = aliasLoader.session.files := by decide +kernel
  obtain ⟨report, hreport, hfailed⟩ := Option.map_eq_some_iff.mp hreload
  have hreached : Reached aliasHost aliasLoader := (reached_idleLoader aliasHost).afterAll _
  have hrequired : Session.Answers aliasHost aliasLoader.session (.require "lib" (.ofString "/"))
      (.ok ("mem:lib", ⟨0⟩)) aliasRequired := answers_of_toOption (by decide +kernel)
  have hsucceeded := hclaim aliasHost isSteady_aliasHost aliasLoader hreached (by decide +kernel)
    "lib" "mem:lib" (.ofString "/") ⟨0⟩ aliasRequired hrequired hfiles (by decide +kernel) report _
    (Session.answers_of_eq hreport)
  exact absurd (hfailed.symm.trans hsucceeded) (by decide)

end Traffic

end ScriptModules
