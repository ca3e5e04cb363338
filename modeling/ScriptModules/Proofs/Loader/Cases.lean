import ScriptModules.Loader.Machine
import ScriptModules.Proofs.Registry.Representation

/-!
# The cases of a step

What operations, loads and reloads branch on is gone through here, once for each of them.  An
operation changes a session in one of a few ways (`Session.Performs`).  The registry refuses a key,
gives it what is there or leaves it free (`Session.Considers`), and so a load whose specifier is
resolved is over or gets a record (`Session.Admits`).  A load that has a record carries on in small
moves: its contents come, the compiler is asked, the body begins or ends, and in between it looks
at files and at the compile cache (`Session.Carries`).  A reload is over, or a load begins
(`Session.Reloads`).

What is to be shown of all steps is shown of these cases.
-/

namespace ScriptModules

variable {σ H : Type} {k m n : Kind}

/-- A frame belongs to a load that has a record, or it is one of five others. -/
@[elab_as_elim]
theorem Frame.cases_load {motive : {k m : Kind} → Frame σ H k m → Prop}
    {k m : Kind} (frame : Frame σ H k m)
    (asking : ∀ {k m : Kind} (next : Value σ H k → Work σ H (Value σ H m)), motive (.asking next))
    (counting : motive .counting) (resolving : ∀ order, motive (.resolving order))
    (loading : ∀ {k : Kind} (frame : Frame σ H k .module) (load : Load),
      frame.load? = some load → motive frame)
    (reloading : ∀ reload, motive (.reloading reload))
    (renewing : ∀ reload key wasCached, motive (.renewing reload key wasCached)) :
    motive frame := by
  cases frame with
  | asking next => exact asking next
  | counting => exact counting
  | resolving order => exact resolving order
  | fetching load mode => exact loading _ load rfl
  | awaiting load => exact loading _ load rfl
  | compiling load source fingerprint => exact loading _ load rfl
  | executing load handle => exact loading _ load rfl
  | reloading reload => exact reloading reload
  | renewing reload key wasCached => exact renewing reload key wasCached

namespace Session

variable {host : Host σ H} {session : Session σ H}

/-! ## Operations -/

/-- What an operation makes of a session. -/
inductive Performs (session : Session σ H) : Operation σ H → Session σ H → Prop where
  | keeps {operation : Operation σ H} : Performs session operation session
  /-- The state of the embedder or the exports change. -/
  | writes {operation : Operation σ H} (exports : ExportTables) (state : σ) :
      Performs session operation { session with exports, state }
  | defines (name : String) (handle : Handle) : Performs session (.defineBuiltin name handle)
      { session with loader := session.loader.defineBuiltin name handle }
  | registers {options : Option (HookOptions H)} (registration : Registration H) :
      Performs session (.register options)
        { session with loader.hooks :=
            { session.loader.hooks with
              registrations := registration :: session.loader.hooks.registrations } }
  | clears : Performs session .clearModules
      { session with loader.registry := session.loader.registry.clear.2 }
  /-- The compile cache is opened, cleared or written. -/
  | caches {operation : Operation σ H} (files : FileSystem) (cache : Option Cache) :
      Performs session operation { session with files, loader.cache := cache }
  | finds (path base : Path) : Performs session (.findManifest path base)
      { session with loader.resolver :=
          (session.loader.resolver.findManifest session.files (base.join path)).2 }

theorem performs_enableCacheWith (session : Session σ H) (operation : Operation σ H)
    (config : CacheConfig) : Performs session operation (session.enableCacheWith config).2 := by
  unfold enableCacheWith
  split
  · exact .keeps
  · split
    · exact .caches _ session.loader.cache
    · exact .caches _ _

theorem performs (session : Session σ H) (operation : Operation σ H) :
    Performs session operation (session.perform operation).2 := by
  cases operation with
  | writeState state => exact .writes session.exports state
  | makeExports bindings => exact .writes _ session.state
  | writeExport handle name value => exact .writes _ session.state
  | defineBuiltin name handle => exact .defines name handle
  | register options =>
      unfold perform HookChain.register
      cases options with
      | none => exact .keeps
      | some options =>
          simp only
          split
          · rename_i heq
            split at heq
            · cases heq
            · cases heq
              exact .registers _
          · exact .keeps
  | clearModules => exact .clears
  | clearCache =>
      unfold perform clearCache
      simp only
      split
      · exact .keeps
      · exact .caches _ _
  | enableCache directory portable => exact performs_enableCacheWith session _ _
  | enableCacheWith config => exact performs_enableCacheWith session _ config
  | flush =>
      unfold perform flush
      simp only
      split
      · exact .keeps
      · exact .caches _ _
  | findManifest path base => exact .finds path base
  | _ => exact .keeps

/-! ## What the registry decides -/

/-- Under the key there is no module, or one that failed or is not to be kept. -/
def IsFree (session : Session σ H) (key : String) : Prop :=
  ∀ id record, session.loader.registry.lookup? key = some id →
    session.loader.registry.get? id = some record → record.state = .errored ∨
      (record.state = .complete ∧
        (session.loader.config.enableCache = false ∨ record.exports = none))

/-- What the registry says to a key. -/
inductive Considers (key : String) (session : Session σ H) :
    Except ModuleError (Option Handle) × Session σ H → Prop where
  /-- A load of the module is under way, and its body has not begun. -/
  | refused {id : ModuleId} {record : ModuleRecord}
      (hl : session.loader.registry.lookup? key = some id)
      (hr : session.loader.registry.get? id = some record)
      (hs : record.state.canAdvance .executing = true) :
      Considers key session (.error (.loadInProgress key), session)
  /-- Its body is running. -/
  | running {id : ModuleId} {record : ModuleRecord} {exports : Option Handle}
      (hl : session.loader.registry.lookup? key = some id)
      (hr : session.loader.registry.get? id = some record) (hs : record.state = .executing)
      (he : record.exports = exports) : Considers key session (.ok exports, session)
  | served {id : ModuleId} {record : ModuleRecord} {handle : Handle}
      (hl : session.loader.registry.lookup? key = some id)
      (hr : session.loader.registry.get? id = some record) (hs : record.state = .complete)
      (hc : session.loader.config.enableCache = true) (he : record.exports = some handle) :
      Considers key session (.ok (some handle),
        session.withRegistry fun registry => registry.countHit.touch id)
  | free (h : session.IsFree key) : Considers key session (.ok none, session)

theorem isFree_of_record {key : String} {id : ModuleId} {record : ModuleRecord}
    (hl : session.loader.registry.lookup? key = some id)
    (hr : session.loader.registry.get? id = some record)
    (h : record.state = .errored ∨ (record.state = .complete ∧
      (session.loader.config.enableCache = false ∨ record.exports = none))) :
    session.IsFree key := by
  intro other found hother hfound
  cases hl.symm.trans hother
  cases hr.symm.trans hfound
  exact h

theorem considers (session : Session σ H) (key : String) :
    Considers key session (session.servedExports key) := by
  cases hl : session.loader.registry.lookup? key with
  | none =>
      unfold servedExports
      simp only [hl]
      refine .free fun id record hid _ => ?_
      cases hl.symm.trans hid
  | some id =>
      have hf : session.loader.registry.find? key = session.loader.registry.get? id := by
        rw [Registry.find?, hl, Option.bind_eq_bind, Option.bind_some]
      cases hr : session.loader.registry.get? id with
      | none =>
          unfold servedExports
          simp only [hl, hf.trans hr]
          refine .free fun other record hother hrecord => ?_
          cases hl.symm.trans hother
          cases hr.symm.trans hrecord
      | some record =>
          unfold servedExports
          simp only [hl, hf.trans hr]
          split
          · rename_i hs
            split
            · rename_i hc
              split
              · rename_i he
                exact .served hl hr hs hc he
              · rename_i he
                exact .free (isFree_of_record hl hr (Or.inr ⟨hs, Or.inr he⟩))
            · rename_i hc
              refine .free (isFree_of_record hl hr (Or.inr ⟨hs, Or.inl ?_⟩))
              exact Bool.eq_false_iff.mpr hc
          · rename_i hs
            exact .running hl hr hs rfl
          · rename_i hs
            exact .free (isFree_of_record hl hr (Or.inl hs))
          · rename_i hcomplete hexecuting herrored
            refine .refused hl hr ?_
            cases hs : record.state with
            | complete => exact absurd hs hcomplete
            | executing => exact absurd hs hexecuting
            | errored => exact absurd hs herrored
            | _ => rfl

theorem considers_of_eq {key : String}
    {served : Except ModuleError (Option Handle) × Session σ H}
    (h : session.servedExports key = served) : Considers key session served :=
  h ▸ session.considers key

/-- The load hooks are asked for a module that gets a record. -/
def startFetch (host : Host σ H) (order : LoadOrder) (resolution : Resolution)
    (stack : Stack σ H .module n) (session : Session σ H) : Focus σ H n × Session σ H :=
  let (load, session) := session.beginLoad resolution.url resolution.format order.base
  let (work, session) :=
    session.loadWork host load.key ⟨resolution.format, order.conditions, order.isMain⟩
  (⟨.reply, work, .cons (.fetching load order.mode) stack⟩, session)

/-- What becomes of a load whose specifier is resolved. -/
inductive Admits (host : Host σ H) (order : LoadOrder) (stack : Stack σ H .module n)
    (session : Session σ H) : Except ModuleError Resolution → Focus σ H n × Session σ H → Prop where
  | unresolved {e : ModuleError} : Admits host order stack session (.error e)
      (give (.error e) stack session)
  | refused {resolution : Resolution}
      (h : session.servedExports resolution.url =
        (.error (.loadInProgress resolution.url), session)) :
      Admits host order stack session (.ok resolution)
        (give (.error (.loadInProgress resolution.url)) stack session)
  | served {resolution : Resolution} {handle : Handle} {after : Session σ H}
      (h : session.servedExports resolution.url = (.ok (some handle), after)) :
      Admits host order stack session (.ok resolution)
        (give (.ok (resolution.url, handle)) stack after)
  | begins {resolution : Resolution}
      (h : session.servedExports resolution.url = (.ok none, session)) :
      Admits host order stack session (.ok resolution)
        (startFetch host order resolution stack session)

theorem admits (host : Host σ H) (order : LoadOrder) (answer : Except ModuleError Resolution)
    (stack : Stack σ H .module n) (session : Session σ H) :
    Admits host order stack session answer (receiveResolution host order answer stack session) := by
  cases answer with
  | error e => exact .unresolved
  | ok resolution =>
      have hconsiders := session.considers resolution.url
      generalize hserved : session.servedExports resolution.url = served at hconsiders
      unfold receiveResolution
      simp only [hserved]
      cases hconsiders with
      | refused _ _ _ => exact .refused hserved
      | @running id record exports _ _ _ _ =>
          cases exports with
          | some handle => exact .served hserved
          | none => exact .begins hserved
      | served _ _ _ _ _ => exact .served hserved
      | free _ => exact .begins hserved

theorem receiveResolution_of_free {order : LoadOrder} {resolution : Resolution}
    {stack : Stack σ H .module n}
    (h : session.servedExports resolution.url = (.ok none, session)) :
    receiveResolution host order (.ok resolution) stack session =
      startFetch host order resolution stack session := by
  unfold receiveResolution
  simp only [h]
  rfl

/-! ## Carrying on a load -/

end Session

/-- What is still to come of a reply. -/
def LoadReply.rest? : LoadReply σ H → Option (Work σ H (Except ModuleError LoadOutput))
  | .ready _ => none
  | .pending rest => some rest

/-- What is still to come of a value. -/
def Value.rest? : {k : Kind} → Value σ H k → Option (Work σ H (Except ModuleError LoadOutput))
  | .reply, reply => LoadReply.rest? reply
  | .resolution, _ | .output, _ | .bytecode, _ | .execution, _ | .module, _ | .reload, _ => none

namespace Session

/-- What a load does that is not about its record. -/
inductive Aside (session : Session σ H) : Session σ H → Prop where
  /-- The manifest nearest to a script tells how it is compiled. -/
  | examines (path : Path) : Aside session
      { session with loader.resolver :=
          (session.loader.resolver.kindOf session.files path).2 }
  /-- Something is looked up in the compile cache or stored there. -/
  | caches (files : FileSystem) (cache : Cache) : Aside session
      { session with files, loader.cache := some cache }
  /-- The body of the module has ended. -/
  | leaves : Aside session { session with loader.executing := session.loader.executing - 1 }

/-- The record of a built-in module is complete as soon as it has its exports. -/
def adopt (load : Load) (handle : Handle) (session : Session σ H) : Session σ H :=
  let registry := session.loader.registry.setExports load.id handle
  let (_, registry, exports) := registry.beginExecution session.exports load.id
  { session with exports, loader.registry := registry.complete load.id }

/-- How a load carries on that has brought its record to a state, with the exports the body of
the module fills if it is running.  `rest?` is what is still to come of the contents. -/
inductive Carries (host : Host σ H) (load : Load)
    (rest? : Option (Work σ H (Except ModuleError LoadOutput))) (stack : Stack σ H .module n) :
    ModuleState → Option Handle → Session σ H → Focus σ H n × Session σ H → Prop where
  | fails {state : ModuleState} {exports : Option Handle} {session : Session σ H} (e : ModuleError)
      (ht : state.isTerminal = false) (hw : state = .resolving ∨ ∀ key, e ≠ .deferred key) :
      Carries host load rest? stack state exports session (failLoad load e stack session)
  | awaits {session : Session σ H} {rest : Work σ H (Except ModuleError LoadOutput)}
      (h : rest? = some rest) : Carries host load rest? stack .resolving none session
        (⟨.output, rest, .cons (.awaiting load) stack⟩, session)
  /-- The contents are there. -/
  | receives {session : Session σ H} {result : Focus σ H n × Session σ H} (format : ModuleFormat)
      (h : Carries host load rest? stack .compiling none (session.withRegistry fun registry =>
        ((registry.setFormat load.id format).advance load.id .compiling).2) result) :
      Carries host load rest? stack .resolving none session result
  | compiles {session : Session σ H} (source : Bytes) (options : CompileOptions)
      (fingerprint : Option Fingerprint) : Carries host load rest? stack .compiling none session
        (⟨.bytecode, .ofProgram (host.compile source options),
          .cons (.compiling load source fingerprint) stack⟩, session)
  | begins {session : Session σ H} (bytecode : Bytes) (fingerprint : Option Fingerprint)
      (sourceLength : Nat) : Carries host load rest? stack .compiling none session
        (startBody host load bytecode fingerprint sourceLength stack session)
  /-- A built-in module has no body. -/
  | adopts {session : Session σ H} (handle : Handle)
      (hv : ∀ record, session.loader.registry.get? load.id = some record →
        record.format = .virtual) : Carries host load rest? stack .compiling none session
          (give (.ok (load.key, handle)) stack (session.adopt load handle))
  | completes {session : Session σ H} (handle : Handle) (dependencies : List String) :
      Carries host load rest? stack .executing (some handle) session
        (give (.ok (load.key, handle)) stack <| session.withRegistry fun registry =>
          (registry.setDependencies load.id dependencies).complete load.id)
  | aside {state : ModuleState} {exports : Option Handle} {session middle : Session σ H}
      {result : Focus σ H n × Session σ H} (ha : session.Aside middle)
      (h : Carries host load rest? stack state exports middle result) :
      Carries host load rest? stack state exports session result

variable {load : Load} {rest? : Option (Work σ H (Except ModuleError LoadOutput))}
  {stack : Stack σ H .module n}

theorem startCompiler_carries (source : Bytes) : Carries host load rest? stack .compiling none
    session (startCompiler host load source stack session) := by
  have hexamined : ∀ pair : ModuleKind × Resolver,
      pair = (if (Path.ofString load.key).isAbsolute then
        session.loader.resolver.kindOf session.files (Path.ofString load.key)
        else (.commonJs, session.loader.resolver)) →
      ∀ {result : Focus σ H n × Session σ H}, Carries host load rest? stack .compiling none
        { session with loader.resolver := pair.2 } result →
          Carries host load rest? stack .compiling none session result := by
    rintro pair rfl result h
    split at h
    · exact .aside (.examines _) h
    · exact h
  unfold startCompiler
  simp only
  generalize hpair : (if (Path.ofString load.key).isAbsolute then
    session.loader.resolver.kindOf session.files (Path.ofString load.key)
    else (.commonJs, session.loader.resolver)) = pair
  refine hexamined pair hpair.symm ?_
  split
  · exact .compiles source _ none
  · split
    · exact .aside (.caches _ _) (.begins _ _ _)
    · exact .aside (.caches _ _) (.compiles source _ _)

theorem finishBuiltin_carries (hv : ∀ record, session.loader.registry.get? load.id = some record →
    record.format = .virtual) : Carries host load rest? stack .compiling none session
      (finishBuiltin load stack session) := by
  unfold finishBuiltin
  simp only
  split
  · exact .fails _ rfl (Or.inr nofun)
  · exact .adopts _ hv

/-- A record that is to be compiled has the format of its contents. -/
theorem format_of_advance {registry : Registry} {id : ModuleId} {format : ModuleFormat}
    {record : ModuleRecord}
    (h : ((registry.setFormat id format).advance id .compiling).2.get? id = some record) :
    record.format = format := by
  have hformat : ∀ noted, (registry.setFormat id format).get? id = some noted →
      noted.format = format := by
    intro noted hnoted
    rw [Registry.setFormat, Registry.get?_modify, if_pos rfl] at hnoted
    obtain ⟨before, -, rfl⟩ := Option.map_eq_some_iff.mp hnoted
    rfl
  unfold Registry.advance at h
  split at h
  · exact hformat record h
  · rename_i noted hnoted
    split at h
    · rw [Registry.get?_modify, if_pos rfl, hnoted] at h
      cases h
      exact hformat noted hnoted
    · exact hformat record h

theorem contents_carry (output : LoadOutput) : Carries host load rest? stack .compiling none
    (session.withRegistry fun registry =>
      ((registry.setFormat load.id output.format).advance load.id .compiling).2)
    (receive host load output stack session) := by
  unfold receive
  simp only
  split
  · rename_i hvirtual
    exact finishBuiltin_carries fun record hr => (format_of_advance hr).trans hvirtual
  · exact .fails _ rfl (Or.inr nofun)
  · exact .begins _ _ _
  · exact startCompiler_carries _

theorem receiveResult_carries (answer : Except ModuleError LoadOutput) :
    Carries host load rest? stack .resolving none session
      (receiveResult host load answer stack session) := by
  cases answer with
  | ok output => exact .receives output.format (contents_carry output)
  | error e => exact .fails e rfl (Or.inl rfl)

theorem receiveReply_carries (mode : LoadMode) (reply : LoadReply σ H) :
    Carries host load reply.rest? stack .resolving none session
      (receiveReply host load mode reply stack session) := by
  unfold receiveReply
  split
  · exact receiveResult_carries _
  · exact .awaits rfl
  · exact .fails _ rfl (Or.inl rfl)

theorem receiveBytecode_carries (source : Bytes) (fingerprint : Option Fingerprint)
    (answer : Except CompileError Bytes) : Carries host load rest? stack .compiling none session
      (receiveBytecode host load source fingerprint answer stack session) := by
  cases answer with
  | error e => exact .fails _ rfl (Or.inr nofun)
  | ok bytecode =>
      unfold receiveBytecode
      simp only
      split
      · exact .aside (.caches _ _) (.begins _ _ _)
      · exact .begins _ _ _

theorem receiveExecution_carries (handle : Handle) (answer : Except Failure Unit)
    (dependencies : List String) :
    Carries host load rest? stack .executing (some handle) session
      (receiveExecution load handle answer dependencies stack session) := by
  cases answer with
  | error failure => exact .aside .leaves (.fails _ rfl (Or.inr nofun))
  | ok _ => exact .aside .leaves (.completes handle dependencies)

/-! ## Reloads -/

/-- What is forgotten has no record and no entry in the compile cache. -/
theorem forget_eq (key : String) (session : Session σ H) :
    ∃ files cache, (session.forget key).2 =
      { session with
        files
        loader :=
          { session.loader with
            registry := (session.loader.registry.invalidate key).2
            cache
            resolver := session.loader.resolver.clearManifests } } := by
  unfold forget
  simp only
  split
  · exact ⟨_, _, rfl⟩
  · exact ⟨session.files, session.loader.cache, rfl⟩

/-- What becomes of a reload whose specifier is resolved. -/
inductive Reloads (host : Host σ H) (reload : Reload) (stack : Stack σ H .reload n)
    (session : Session σ H) : Except ModuleError Resolution → Focus σ H n × Session σ H → Prop where
  | ends {answer : Except ModuleError Resolution} (resolved : Option String) (wasCached : Bool)
      (outcome : Except ModuleError Handle) : Reloads host reload stack session answer
        (finishReload reload resolved wasCached outcome stack session)
  /-- No load of the module is under way. -/
  | begins {resolution : Resolution} (wasCached : Bool)
      (ht : ∀ record, session.loader.registry.find? resolution.url = some record →
        record.state.isTerminal = true) : Reloads host reload stack session (.ok resolution)
          ((session.forget resolution.url).2.startLoad host .immediate resolution.url reload.base
            (.cons (.renewing reload resolution.url wasCached) stack))

theorem reloads (host : Host σ H) (reload : Reload) (answer : Except ModuleError Resolution)
    (stack : Stack σ H .reload n) (session : Session σ H) :
    Reloads host reload stack session answer (receiveReload host reload answer stack session) := by
  cases answer with
  | error e => exact .ends none false _
  | ok resolution =>
      unfold receiveReload
      simp only
      split
      · exact .ends _ _ _
      · split
        · exact .ends _ _ _
        · rename_i hidle
          refine .begins _ fun record hf => ?_
          rw [hf] at hidle
          simpa using hidle

/-! ## Pauses -/

/-- A pause changes nothing, and may suspend what goes on after it. -/
theorem step_pause (host : Host σ H) (next : Unit → Work σ H (Value σ H k))
    (stack : Stack σ H k n) (session : Session σ H) :
    session.step host ⟨k, .ask .pause next, stack⟩ =
        (.running ⟨k, next (), stack⟩, session) ∨
      session.step host ⟨k, .ask .pause next, stack⟩ =
        (.suspended ⟨k, next (), stack⟩, session) := by
  unfold step
  simp only
  split
  · exact Or.inr rfl
  · exact Or.inl rfl

end Session

end ScriptModules
