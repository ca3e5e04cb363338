import ScriptModules.Proofs.Loader.Bytecode

/-!
# Reloading compiles anew

A reload forgets a module and then requires it by its canonical id.  What it forgets in the
compile cache is the entry whose fingerprint stands in the record of the module.  Where no
entry of the source that is read now is left, the compiler is started on it
(`Traffic.Reached.recompiles`).  One is left when the record is gone, or is that of another
source: then the reload takes the bytecode that was there before.
-/

namespace ScriptModules

open Registry (Claim InFlight Precedes)

variable {σ H : Type} {k m n : Kind}

/-- Whether the compiler is running. -/
def Focus.isCompiling : Focus σ H n → Bool
  | ⟨_, _, .cons (.compiling ..) _⟩ => true
  | _ => false

/-! ## What is forgotten -/

namespace Registry

variable {registry after : Registry} {key : String} {id : ModuleId}

/-- The record that is dropped is given back. -/
theorem invalidate_fst (registry : Registry) (key : String) :
    (registry.invalidate key).1 = registry.find? key := by
  unfold invalidate find?
  cases registry.lookup? key <;> rfl

/-- What comes to stand under a key that was free has a new id. -/
theorem Precedes.size_le_index (h : Precedes registry after) (hs : registry.Sound)
    (hs' : after.Sound) (hn : registry.lookup? key = none) (hl : after.lookup? key = some id) :
    registry.records.size ≤ id.index := by
  refine Nat.le_of_not_lt fun hlt => ?_
  obtain ⟨found, hfound, hkey, -⟩ := hs'.of_lookup hl
  obtain ⟨old, hold, hbecomes⟩ := h.origin hfound hlt
  have hlookup := hs.lookup_key hold
  rw [← hbecomes.key, hkey, hn] at hlookup
  cases hlookup

end Registry

namespace Session

variable {host : Host σ H} {session middle before last : Session σ H} {claims : List Claim}
  {key specifier : String} {base : Path}

/-- When the module under a key is forgotten, an entry with a certain fingerprint is left in the
compile cache, and it checks out. -/
def LeavesEntry (host : Host σ H) (session : Session σ H) (key : String)
    (fingerprint : Fingerprint) : Prop :=
  ∃ cache, (session.forget key).2.loader.cache = some cache ∧
    (cache.lookup (session.forget key).2.files fingerprint host.engine).1.isSome = true

/-- The entry of the source that the record tells of is not left. -/
theorem not_leavesEntry {cache : Cache} {record : ModuleRecord} {fingerprint : Fingerprint}
    (hc : session.loader.cache = some cache) (hg : session.files.Grounded)
    (hr : session.loader.registry.find? key = some record)
    (hf : record.fingerprint = some fingerprint) :
    ¬ session.LeavesEntry host key fingerprint := by
  rintro ⟨now, hnow, hfound⟩
  have hrecord : ((session.loader.registry.invalidate key).1 >>= (·.fingerprint)) =
      some fingerprint := by
    rw [Registry.invalidate_fst, hr]
    exact hf
  simp only [forget, hrecord, hc, Option.some.injEq] at hnow hfound
  subst hnow
  obtain ⟨bytecode, hbytecode⟩ := Option.isSome_iff_exists.mp hfound
  obtain ⟨file, hread, -⟩ := Cache.lookup_eq_some_iff.mp hbytecode
  refine Cache.read_remove_ne_ok hg cache fingerprint file ?_
  have hdirectory : (cache.remove session.files fingerprint).2.1.directory = cache.directory :=
    congrArg Prod.fst (Cache.settings_remove cache session.files fingerprint)
  rw [Cache.entryPath, hdirectory] at hread
  exact hread

/-! ## The course of a reload -/

/-- A module that is neither built in nor in flight is forgotten and required by its id. -/
theorem receiveReload_eq {resolution : Resolution} (reload : Reload)
    (hb : textAfter? builtinPrefix resolution.url = none)
    (hf : session.loader.registry.isLoading resolution.url = false) :
    session.receiveReload host reload (.ok resolution) (.nil : Stack σ H .reload .reload) =
      (session.forget resolution.url).2.startLoad host .immediate resolution.url reload.base
        (.cons (.renewing reload resolution.url (session.forget resolution.url).1) .nil) := by
  unfold Registry.isLoading at hf
  simp only [receiveReload, hb, hf, Bool.false_eq_true, if_false]

/-- The focus and the loader of a reload that begins. -/
def reloading (host : Host σ H) (session : Session σ H) (specifier : String) (base : Path) :
    Focus σ H .reload × Session σ H :=
  session.startReload host specifier base .nil

/-- So the load by the id is part of the run. -/
theorem leads_required {resolution : Resolution}
    (h : Answers host session (.resolve specifier base) (.ok resolution) before)
    (hb : textAfter? builtinPrefix resolution.url = none)
    (hf : before.loader.registry.isLoading resolution.url = false) :
    ∃ below, Leads host (session.reloading host specifier base).1
      (session.reloading host specifier base).2
      (((before.forget resolution.url).2.startLoad host .immediate resolution.url base .nil).1.onto
        below)
      ((before.forget resolution.url).2.startLoad host .immediate resolution.url base .nil).2 := by
  have hresolve := answers_resolve_iff.mp h
  have habove := hresolve.onto (.cons (.reloading (session.reloadOf specifier base)) .nil)
  refine ⟨.cons (.renewing (session.reloadOf specifier base) resolution.url
    (before.forget resolution.url).1) .nil, habove.trans (.step .running ?_)⟩
  show Leads host (receiveReload host (session.reloadOf specifier base) (.ok resolution) .nil
    before).1 (receiveReload host (session.reloadOf specifier base) (.ok resolution) .nil
    before).2 _ _
  rw [receiveReload_eq (session.reloadOf specifier base) hb hf]
  exact .refl

theorem StartsCompiler.of_leads {inner : Focus σ H m} {below : Stack σ H m n}
    {focus : Focus σ H n} {source : Bytes} {options : CompileOptions}
    (h : Leads host focus session (inner.onto below) middle)
    (hs : StartsCompiler host inner middle source options) :
    StartsCompiler host focus session source options := by
  obtain ⟨load, fingerprint, stack, last, hleads⟩ := hs
  exact ⟨load, fingerprint, stack.append below, last, h.trans (hleads.onto below)⟩

theorem Gives.onto {load : Load} {source : Bytes} {focus : Focus σ H m}
    (h : Gives load source focus) (below : Stack σ H m n) :
    Gives load source (focus.onto below) := by
  cases h with
  | replied hf hs => exact .replied hf hs
  | awaited hf hs => exact .awaited hf hs

theorem GivesSource.of_leads {inner : Focus σ H m} {below : Stack σ H m n}
    {focus : Focus σ H n} {load : Load} {source : Bytes}
    (h : Leads host focus session (inner.onto below) middle)
    (hs : GivesSource host inner middle load source) :
    GivesSource host focus session load source := by
  obtain ⟨given, last, hleads, hgives⟩ := hs
  exact ⟨given.onto below, last, h.trans (hleads.onto below), hgives.onto below⟩

/-! ## Seeing whether the compiler is started -/

/-- Whether the compiler comes to be running within a number of steps. -/
def compilesWithin (host : Host σ H) : (steps : Nat) → Focus σ H n → Session σ H → Bool
  | 0, _, _ => false
  | steps + 1, focus, session =>
    focus.isCompiling ||
      match session.step host focus with
      | (.running next, session) | (.suspended next, session) =>
        compilesWithin host steps next session
      | (.finished _, _) => false

/-- In a run that ends within a number of steps this is seen. -/
theorem StartsCompiler.compilesWithin {focus : Focus σ H n} {source : Bytes}
    {options : CompileOptions} (h : StartsCompiler host focus session source options) {steps : Nat}
    (hover : (finish host steps focus session).1.isSome = true) :
    session.compilesWithin host steps focus = true := by
  obtain ⟨load, fingerprint, stack, last, hleads⟩ := h
  generalize hfinal : (⟨.bytecode, .ofProgram (host.compile source options),
    .cons (.compiling load source fingerprint) stack⟩ : Focus σ H n) = final at hleads
  induction hleads generalizing steps with
  | refl =>
      subst hfinal
      cases steps with
      | zero => cases hover
      | succ steps => rfl
  | @step focus next final session last hgoes _ ih =>
      cases steps with
      | zero => cases hover
      | succ steps =>
          simp only [finish, Session.compilesWithin] at hover ⊢
          generalize session.step host focus = result at hgoes hover ih ⊢
          obtain ⟨progress, after⟩ := result
          rw [Bool.or_eq_true]
          right
          cases hgoes with
          | running => exact ih hover hfinal
          | suspended => exact ih hover hfinal

/-! ## What a reload compiles -/

/-- In a reload the compiler is started on a source with a certain fingerprint. -/
def Recompiles (host : Host σ H) (session : Session σ H) (specifier : String) (base : Path)
    (cache : Cache) (fingerprint : Fingerprint) : Prop :=
  ∃ source options, StartsCompiler host (session.reloading host specifier base).1
    (session.reloading host specifier base).2 source options ∧
      cache.fingerprintOf source host.engine options = fingerprint

/-- A reload overlooks an entry: when it forgets the module, the entry is left, for there is no
record that tells of it. -/
def Overlooks (host : Host σ H) (session : Session σ H) (specifier : String) (base : Path)
    (key : String) (fingerprint : Fingerprint) : Prop :=
  ∃ resolution before, Answers host session (.resolve specifier base) (.ok resolution) before ∧
    before.LeavesEntry host key fingerprint ∧
      ∀ record, before.loader.registry.find? key = some record →
        record.fingerprint ≠ some fingerprint

/-- A load of a reload is given the source with a certain fingerprint, and the source is compiled
unless the reload overlooks an entry of it. -/
def CompilesGiven (host : Host σ H) (session : Session σ H) (specifier : String) (base : Path)
    (cache : Cache) (load : Load) (fingerprint : Option Fingerprint) : Prop :=
  ∃ source options, GivesSource host (session.reloading host specifier base).1
      (session.reloading host specifier base).2 load source ∧
    fingerprint = some (cache.fingerprintOf source host.engine options) ∧
    (session.Recompiles host specifier base cache
        (cache.fingerprintOf source host.engine options) ∨
      session.Overlooks host specifier base load.key
        (cache.fingerprintOf source host.engine options))

/-- While a specifier is resolved, the loader keeps its compile cache. -/
theorem covers_resolve {cache : Cache} {result : Except ModuleError Resolution}
    (hi : InFlight session.loader.registry claims) (ht : session.loader.registry.Tabled)
    (hc : session.loader.cache = some cache) (hg : session.files.Grounded)
    (h : Answers host session (.resolve specifier base) result before) :
    ∃ account : Account σ H, account.host = host ∧ account.cache = cache ∧
      account.Covers before := by
  have hcomes := answers_resolve_iff.mp h
  have hstart : InFlight (session.startResolve host specifier base .nil).2.loader.registry
      ((session.startResolve host specifier base .nil).1.claims ++ claims) := hi
  exact ⟨_, rfl, rfl, covers_leads hcomes hstart ht hc hg trivial⟩

/-- A load that was started on a loader that has just forgotten a module. -/
def renewing (host : Host σ H) (session : Session σ H) (key : String) (base : Path) :
    Focus σ H .module × Session σ H :=
  (session.forget key).2.startLoad host .immediate key base .nil

/-- The script that stands under a key when its module was required after it was forgotten was
compiled meanwhile, unless its entry was left. -/
theorem required_recompiles {account : Account σ H} {result : Except ModuleError LoadedModule}
    (hc : account.Covers before) (hi : InFlight before.loader.registry claims)
    (ht : before.loader.registry.Tabled) (hf : before.loader.registry.isLoading key = false)
    (h : Answers account.host (before.forget key).2 (.require key base) result last)
    {record : ModuleRecord} (hfound : last.loader.registry.find? key = some record)
    (hscript : record.format = .script) (hs : record.state = .complete) :
    ∃ load source options, last.loader.registry.lookup? key = some load.id ∧ load.key = key ∧
      GivesSource account.host (before.renewing account.host key base).1
        (before.renewing account.host key base).2 load source ∧
      record.fingerprint = some (account.fingerprintOf source options) ∧
      ((∃ other more, StartsCompiler account.host (before.renewing account.host key base).1
          (before.renewing account.host key base).2 other more ∧
            account.fingerprintOf other more = account.fingerprintOf source options) ∨
        before.LeavesEntry account.host key (account.fingerprintOf source options)) := by
  have hterminal : ∀ record, before.loader.registry.find? key = some record →
      record.state.isTerminal = true := by
    intro record hrecord
    simpa [Registry.isLoading, hrecord] using hf
  have hforgotten := inFlight_forget key hi hterminal
  have htabled : (before.forget key).2.loader.registry.Tabled :=
    (forget_turn key before).1.tabled ht
  have hcovers := covers_forget hc key
  obtain ⟨cache, hcache, hsettings⟩ := hcovers.cache
  have hcomes := answers_require_iff.mp h
  have hstart : InFlight (before.renewing account.host key base).2.loader.registry
      ((before.renewing account.host key base).1.claims ++ claims) :=
    (inFlight_startLoad account.host .immediate key base .nil hforgotten).1
  obtain ⟨hlast, -, hprecedes⟩ := honored_leads hcomes hstart htabled
  have hrun := covers_leads hcomes hstart htabled hcache (hcovers.files hcovers.grounded).1
    ⟨trivial, trivial, trivial⟩
  obtain ⟨id, hl, hr⟩ := Option.bind_eq_some_iff.mp hfound
  have hnew := hprecedes.size_le_index hstart.sound hlast.sound (lookup?_forget key before) hl
  obtain ⟨load, rfl, hload, source, options, hgiven, hfingerprint, hfrom⟩ :=
    hrun.records hr hnew hscript (Or.inr hs)
  obtain ⟨found, hfound', hkey, -⟩ := hlast.sound.of_lookup hl
  cases hr.symm.trans hfound'
  have hsame := fun source options =>
    Account.fingerprintOf_of_settings hsettings source options
  refine ⟨load, source, options, hl, hload.trans hkey, hgiven, hfingerprint.trans ?_, ?_⟩
  · exact congrArg some (hsame source options)
  · rw [← hsame]
    refine hfrom.imp ?_ fun hfinds => ⟨cache, hcache, hfinds⟩
    rintro ⟨other, more, hstarts, heq⟩
    exact ⟨other, more, hstarts, by rw [← hsame]; exact heq⟩

end Session

namespace Traffic

variable {host : Host σ H} {session : Session σ H} {tasks : List (Task σ H)}
  {abandoned : List Claim}

/-- All through every run of a loader with a compile cache, a reload that leaves a script under
the id it reports has compiled the source it was given, unless it overlooked the entry of this
source. -/
theorem Reached.recompiles (h : Reached host { session, tasks, abandoned }) {cache : Cache}
    (hc : session.loader.cache = some cache) (hg : session.files.Grounded)
    {specifier key : String} {base : Path} {report : ReloadResult} {last : Session σ H}
    (hr : Session.Answers host session (.reload specifier base) report last)
    (hk : report.resolved = some key) (hb : textAfter? builtinPrefix key = none)
    {record : ModuleRecord} (hfound : last.loader.registry.find? key = some record)
    (hscript : record.format = .script) (hs : record.state = .complete) :
    ∃ load : Load, last.loader.registry.lookup? key = some load.id ∧ load.key = key ∧
      session.CompilesGiven host specifier base cache load record.fingerprint := by
  obtain ⟨result, before, hresolve, hrenews⟩ := Session.answers_reload_iff_renews.mp hr
  have hbefore := h.answers hresolve
  have hresolved := hk.symm.trans hrenews.resolved
  cases result with
  | error e => cases hresolved
  | ok resolution =>
      obtain rfl : key = resolution.url := Option.some.inj hresolved
      cases hrenews with
      | builtin hb' => cases hb.symm.trans hb'
      | inFlight _ hf =>
          rw [Registry.isLoading, hfound] at hf
          simp [hs, ModuleState.isTerminal] at hf
      | required _ hf hrequired =>
          obtain ⟨account, rfl, rfl, hcovers⟩ := Session.covers_resolve
            h.isHonored.inFlight h.tabled hc hg hresolve
          obtain ⟨load, source, options, hl, hkey, hgiven, hfingerprint, hfrom⟩ :=
            Session.required_recompiles hcovers hbefore.isHonored.inFlight hbefore.tabled hf
              hrequired hfound hscript hs
          obtain ⟨below, hleads⟩ := Session.leads_required hresolve hb hf
          refine ⟨load, hl, hkey, source, options, hgiven.of_leads hleads, hfingerprint, ?_⟩
          rcases hfrom with ⟨other, more, hstarts, heq⟩ | hleft
          · exact Or.inl ⟨other, more, hstarts.of_leads hleads, heq⟩
          · rw [hkey]
            refine Or.inr ⟨resolution, before, hresolve, hleft, fun old hold hsame => ?_⟩
            obtain ⟨now, hnow, -⟩ := hcovers.cache
            exact Session.not_leavesEntry hnow (hcovers.files hcovers.grounded).1 hold hsame hleft

/-! ## A first reload -/

/-- A loader with a compile cache, and a script. -/
def cachingLoader : Traffic Unit Unit :=
  let script : Location × Node := ([Bytes.ofText "a.js"], .file (Bytes.ofText "a") ⟨0, 0⟩)
  let files := { Cache.emptyDirectory with nodes := script :: Cache.emptyDirectory.nodes }
  idleLoader.afterAll forwardingHost [.changed { files, exports := {}, state := () },
    .operated (.enableCacheWith (Cache.limitedConfig 1048576))]

theorem reached_cachingLoader : Reached forwardingHost cachingLoader :=
  (reached_idleLoader forwardingHost).afterAll _

/-- The loader when the script was reloaded. -/
def reloadedOnce : Session Unit Unit :=
  (cachingLoader.session.answer forwardingHost 30 (.reload "./a.js" (.ofString "/"))).2

theorem recompiles_cachingLoader : ∃ (cache : Cache) (record : ModuleRecord) (load : Load),
    cachingLoader.session.loader.cache = some cache ∧
    reloadedOnce.loader.registry.find? "/a.js" = some record ∧
    reloadedOnce.loader.registry.lookup? "/a.js" = some load.id ∧
    load.key = "/a.js" ∧ cachingLoader.session.CompilesGiven forwardingHost "./a.js"
      (.ofString "/") cache load record.fingerprint := by
  have hrun : cachingLoader.session.loader.cache.isSome = true ∧
      cachingLoader.session.files.workingDirectory = [] ∧
      (cachingLoader.session.answer forwardingHost 30
        (.reload "./a.js" (.ofString "/"))).1.map ReloadResult.resolved = some (some "/a.js") ∧
      (reloadedOnce.loader.registry.find? "/a.js").map
        (fun record => (record.format, record.state)) = some (.script, .complete) := by
    decide +kernel
  obtain ⟨hcache, hplace, hreload, hfound⟩ := hrun
  obtain ⟨cache, hcache⟩ := Option.isSome_iff_exists.mp hcache
  obtain ⟨report, hreport, hresolved⟩ := Option.map_eq_some_iff.mp hreload
  obtain ⟨record, hrecord, hstate⟩ := Option.map_eq_some_iff.mp hfound
  obtain ⟨load, hrest⟩ := reached_cachingLoader.recompiles hcache
    (FileSystem.grounded_of_root hplace) (Session.answers_of_eq hreport) hresolved
    (by decide +kernel) hrecord (congrArg Prod.fst hstate) (congrArg Prod.snd hstate)
  exact ⟨cache, record, load, hcache, hrecord, hrest⟩

/-! ## A reload that overlooks an entry -/

/-- The same loader when it has run the script and was told to forget it. -/
def clearedLoader : Traffic Unit Unit :=
  cachingLoader.afterAll forwardingHost
    (.required "./a.js" (.ofString "/") :: List.replicate 20 (.advanced 0) ++
      [.operated .clearModules])

/-- A reload then succeeds, and the compiler is not started at all. -/
theorem not_reload_recompiles :
    ¬ ∀ traffic : Traffic Unit Unit, Reached forwardingHost traffic →
      ∀ cache : Cache, traffic.session.loader.cache = some cache →
      traffic.session.files.Grounded →
      ∀ (specifier key : String) (base : Path) (report : ReloadResult) (last : Session Unit Unit)
        (record : ModuleRecord),
        Session.Answers forwardingHost traffic.session (.reload specifier base) report last →
        report.outcome.isOk = true → report.resolved = some key →
        textAfter? builtinPrefix key = none →
        last.loader.registry.find? key = some record → record.format = .script →
        ∃ fingerprint,
          traffic.session.Recompiles forwardingHost specifier base cache fingerprint := by
  intro hclaim
  have hreached : Reached forwardingHost clearedLoader := reached_cachingLoader.afterAll _
  have hrun : clearedLoader.session.loader.cache.isSome = true ∧
      clearedLoader.session.files.workingDirectory = [] ∧
      (clearedLoader.session.answer forwardingHost 30 (.reload "./a.js" (.ofString "/"))).1.map
        (fun report : ReloadResult => (report.outcome.isOk, report.resolved)) =
          some (true, some "/a.js") ∧
      ((clearedLoader.session.answer forwardingHost 30
        (.reload "./a.js" (.ofString "/"))).2.loader.registry.find? "/a.js").map (·.format) =
          some .script ∧
      Session.compilesWithin forwardingHost 30
        (clearedLoader.session.reloading forwardingHost "./a.js" (.ofString "/")).1
        (clearedLoader.session.reloading forwardingHost "./a.js" (.ofString "/")).2 = false := by
    decide +kernel
  obtain ⟨hcache, hplace, hreload, hfound, hnever⟩ := hrun
  obtain ⟨cache, hcache⟩ := Option.isSome_iff_exists.mp hcache
  obtain ⟨report, hreport, houtcome⟩ := Option.map_eq_some_iff.mp hreload
  obtain ⟨record, hrecord, hscript⟩ := Option.map_eq_some_iff.mp hfound
  obtain ⟨_, source, options, hstarts, -⟩ := hclaim clearedLoader hreached cache hcache
    (FileSystem.grounded_of_root hplace) "./a.js" "/a.js" (.ofString "/") report _ record
    (Session.answers_of_eq hreport) (congrArg Prod.fst houtcome) (congrArg Prod.snd houtcome)
    (by decide +kernel) hrecord hscript
  have hover : (Session.finish forwardingHost 30
      (clearedLoader.session.reloading forwardingHost "./a.js" (.ofString "/")).1
      (clearedLoader.session.reloading forwardingHost "./a.js" (.ofString "/")).2).1.isSome =
        true := congrArg Option.isSome hreport
  exact absurd (hnever.symm.trans (hstarts.compilesWithin hover)) (by decide)

end Traffic

end ScriptModules
