import ScriptModules.Proofs.Loader.Deferring
import ScriptModules.Proofs.Loader.Renewal

/-!
# Requires whose load hooks defer

A require cannot wait.  If its load hooks are asked and their reply is pending, it fails
(`Session.answers_deferred_iff`).  The error says so, and it has only two other sources: it may
be what the specifier resolves to, and it may be what the load hooks reply with, when one of them
hands on that another module could not be waited for.  Nothing that happens to a module when its
contents are there ends with it (`Session.Delivered`).
-/

namespace ScriptModules

variable {σ H : Type} {k : Kind}

namespace Session

variable {host : Host σ H} {session middle later last : Session σ H} {load : Load}
  {specifier key : String} {base : Path}

/-! ## Failing to wait -/

/-- A load comes to the error that a module could not be waited for. -/
def FailsToWait (host : Host σ H) (focus : Focus σ H .module) (session : Session σ H)
    (key : String) : Prop :=
  ∃ last, Comes host focus session
    ((.error (.deferred key) : Except ModuleError LoadedModule) : Value σ H .module) last

theorem failsToWait_done_iff {result : Except ModuleError LoadedModule} :
    FailsToWait host (⟨.module, .done result, .nil⟩ : Focus σ H .module) session key ↔
      result = .error (.deferred key) := by
  constructor
  · rintro ⟨last, hcomes⟩
    exact (comes_done_iff.mp hcomes).1.symm
  · rintro rfl
    exact ⟨session, comes_done_iff.mpr ⟨rfl, rfl⟩⟩

theorem not_failsToWait_done {result : Except ModuleError LoadedModule}
    (h : result ≠ .error (.deferred key)) :
    ¬ FailsToWait host (⟨.module, .done result, .nil⟩ : Focus σ H .module) session key :=
  fun hfails => h (failsToWait_done_iff.mp hfails)

/-- What waits for work fails to wait as it does with what the work gives. -/
theorem failsToWait_frame_iff {work : Work σ H (Value σ H k)} {frame : Frame σ H k .module} :
    FailsToWait host ⟨k, work, .cons frame .nil⟩ session key ↔
      ∃ value between, Comes host ⟨k, work, .nil⟩ session value between ∧
        FailsToWait host (resume host frame value .nil between).1
          (resume host frame value .nil between).2 key := by
  have honto : (⟨k, work, .cons frame .nil⟩ : Focus σ H .module) =
      Focus.onto (.cons frame .nil) ⟨k, work, .nil⟩ := rfl
  unfold FailsToWait
  rw [honto]
  constructor
  · rintro ⟨last, hcomes⟩
    obtain ⟨value, between, hwork, hrest⟩ := comes_onto_iff.mp hcomes
    exact ⟨value, between, hwork, last, comes_resume_iff.mp hrest⟩
  · rintro ⟨value, between, hwork, last, hrest⟩
    exact ⟨last, comes_onto_iff.mpr ⟨value, between, hwork, comes_resume_iff.mpr hrest⟩⟩

/-- A load fails to wait as it does when its specifier is resolved. -/
theorem failsToWait_ordered_iff {order : LoadOrder} {result : Except ModuleError Resolution} :
    FailsToWait host ⟨.resolution, .done result, ordered order⟩ session key ↔
      FailsToWait host (receiveResolution host order result .nil session).1
        (receiveResolution host order result .nil session).2 key := by
  constructor
  · rintro ⟨last, hcomes⟩
    obtain ⟨after, hafter, -⟩ := comes_ordered_iff.mp hcomes
    exact ⟨after, hafter⟩
  · rintro ⟨after, hafter⟩
    exact ⟨_, comes_ordered_iff.mpr ⟨after, hafter, rfl⟩⟩

/-! ## When the contents are there -/

/-- A load that has its contents is over, and not because it could not wait, or it waits for the
compiler or for the body of the module. -/
inductive Delivered : Focus σ H .module → Prop where
  | ended {result : Except ModuleError LoadedModule} (h : ∀ key, result ≠ .error (.deferred key)) :
      Delivered ⟨.module, .done result, .nil⟩
  | executing {work : Work σ H (Except Failure Unit × List String)} {load : Load}
      {exports : Handle} : Delivered ⟨.execution, work, .cons (.executing load exports) .nil⟩
  | compiling {work : Work σ H (Except CompileError Bytes)} {load : Load} {source : Bytes}
      {fingerprint : Option Fingerprint} :
      Delivered ⟨.bytecode, work, .cons (.compiling load source fingerprint) .nil⟩

theorem Carries.delivered {rest? : Option (Work σ H (Except ModuleError LoadOutput))}
    {state : ModuleState} {exports : Option Handle} {result : Focus σ H .module × Session σ H}
    (hc : Carries host load rest? .nil state exports session result) (hs : state = .compiling) :
    Delivered result.1 := by
  induction hc with
  | fails e _ hw =>
      have hready : ∀ key, e ≠ .deferred key := hw.resolve_left (by rw [hs]; nofun)
      exact .ended fun key heq => hready key (Except.error.inj heq)
  | awaits _ => cases hs
  | receives format _ _ => cases hs
  | compiles source options fingerprint => exact .compiling
  | begins bytecode fingerprint sourceLength => exact .executing
  | adopts handle _ => exact .ended nofun
  | completes handle dependencies => cases hs
  | aside _ _ ih => exact ih hs

theorem delivered_receive (output : LoadOutput) :
    Delivered (receive host load output .nil session).1 := by
  have hcarries : Carries host load none .nil .compiling none _
      (receive host load output .nil session) := contents_carry output
  exact hcarries.delivered rfl

theorem not_failsToWait_receiveExecution (handle : Handle) (result : Except Failure Unit)
    (dependencies : List String) :
    ¬ FailsToWait host (receiveExecution load handle result dependencies .nil session).1
      (receiveExecution load handle result dependencies .nil session).2 key := by
  cases result with
  | error failure => exact not_failsToWait_done nofun
  | ok _ => exact not_failsToWait_done nofun

theorem not_failsToWait_executing {work : Work σ H (Except Failure Unit × List String)}
    {exports : Handle} : ¬ FailsToWait host
      (⟨.execution, work, .cons (.executing load exports) .nil⟩ : Focus σ H .module) session
      key := by
  intro h
  obtain ⟨value, between, -, hrest⟩ := failsToWait_frame_iff.mp h
  exact not_failsToWait_receiveExecution exports value.1 value.2 hrest

/-- Such a load does not fail because it could not wait. -/
theorem Delivered.not_failsToWait {focus : Focus σ H .module} (h : Delivered focus) :
    ¬ FailsToWait host focus session key := by
  cases h with
  | ended h => exact not_failsToWait_done (h key)
  | executing => exact not_failsToWait_executing
  | compiling =>
      intro hfails
      obtain ⟨result, between, -, hrest⟩ := failsToWait_frame_iff.mp hfails
      cases (result : Except CompileError Bytes) with
      | error e => cases failsToWait_done_iff.mp hrest
      | ok bytecode => exact not_failsToWait_executing hrest

/-! ## Replies -/

/-- A load that cannot wait fails for that reason if its reply is pending, or is that error. -/
theorem failsToWait_receiveReply_iff {reply : LoadReply σ H} :
    FailsToWait host (receiveReply host load .immediate reply .nil session).1
        (receiveReply host load .immediate reply .nil session).2 key ↔
      (reply.isPending = true ∧ load.key = key) ∨ reply = .ready (.error (.deferred key)) := by
  cases reply with
  | pending rest =>
      refine failsToWait_done_iff.trans ⟨?_, ?_⟩
      · intro h
        cases h
        exact .inl ⟨rfl, rfl⟩
      · rintro (⟨-, rfl⟩ | h)
        · rfl
        · cases h
  | ready result =>
      cases result with
      | error e =>
          refine failsToWait_done_iff.trans ⟨?_, ?_⟩
          · intro h
            cases h
            exact .inr rfl
          · rintro (⟨h, -⟩ | h)
            · cases h
            · cases h
              rfl
      | ok output =>
          refine ⟨fun h => absurd h (delivered_receive output).not_failsToWait, ?_⟩
          rintro (⟨h, -⟩ | h)
          · cases h
          · cases h

/-- The load hooks are asked for a module that gets a record. -/
def asksFor (host : Host σ H) (order : LoadOrder) (resolution : Resolution)
    (session : Session σ H) : Load × Focus σ H .reply × Session σ H :=
  let (load, session) := session.beginLoad resolution.url resolution.format order.base
  let (work, session) :=
    session.loadWork host load.key ⟨resolution.format, order.conditions, order.isMain⟩
  (load, ⟨.reply, work, .nil⟩, session)

/-- A load that is resolved is over at once, and not because it could not wait, or its load hooks
are asked. -/
theorem receiveResolution_cases (host : Host σ H) (order : LoadOrder) (resolution : Resolution)
    (session : Session σ H) :
    (∃ given later, receiveResolution host order (.ok resolution) .nil session =
        (⟨.module, .done given, .nil⟩, later) ∧ (∀ key, given ≠ .error (.deferred key)) ∧
        ∀ after, session.servedExports resolution.url ≠ (.ok none, after)) ∨
      ∃ later, session.servedExports resolution.url = (.ok none, later) ∧
        receiveResolution host order (.ok resolution) .nil session =
          (⟨.reply, (later.asksFor host order resolution).2.1.work,
            .cons (.fetching (later.asksFor host order resolution).1 order.mode) .nil⟩,
            (later.asksFor host order resolution).2.2) := by
  have hadmits := admits host order (.ok resolution) .nil session
  generalize receiveResolution host order (.ok resolution) .nil session = result at hadmits ⊢
  cases hadmits with
  | refused hserved =>
      refine .inl ⟨_, session, rfl, nofun, fun after hnone => ?_⟩
      cases hserved.symm.trans hnone
  | served hserved =>
      refine .inl ⟨_, _, rfl, nofun, fun after hnone => ?_⟩
      cases hserved.symm.trans hnone
  | begins hserved => exact .inr ⟨session, hserved, rfl⟩

/-- A load that is resolved fails to wait only if it asks its load hooks, unless it is resolved to
that error. -/
theorem failsToWait_receiveResolution_iff {order : LoadOrder} (hm : order.mode = .immediate)
    {result : Except ModuleError Resolution} :
    FailsToWait host (receiveResolution host order result .nil session).1
        (receiveResolution host order result .nil session).2 key ↔
      result = .error (.deferred key) ∨
        ∃ (resolution : Resolution) (later : Session σ H) (reply : LoadReply σ H)
          (last : Session σ H),
          result = .ok resolution ∧
            session.servedExports resolution.url = (.ok none, later) ∧
            Comes host (later.asksFor host order resolution).2.1
              (later.asksFor host order resolution).2.2 (reply : Value σ H .reply) last ∧
            ((reply.isPending = true ∧ resolution.url = key) ∨
              reply = .ready (.error (.deferred key))) := by
  cases result with
  | error e =>
      refine failsToWait_done_iff.trans ⟨?_, ?_⟩
      · intro h
        cases h
        exact .inl rfl
      · rintro (h | ⟨_, _, _, _, h, -⟩)
        · cases h
          rfl
        · cases h
  | ok resolution =>
      rcases receiveResolution_cases host order resolution session with
        ⟨given, later, heq, hgiven, hserved⟩ | ⟨later, hfree, heq⟩
      · rw [heq]
        refine ⟨fun h => absurd h (not_failsToWait_done (hgiven key)), ?_⟩
        rintro (h | ⟨_, after, _, _, h, hfree, -⟩)
        · cases h
        · cases h
          exact absurd hfree (hserved after)
      · rw [heq, hm]
        refine failsToWait_frame_iff.trans ⟨?_, ?_⟩
        · rintro ⟨reply, last, hreply, hrest⟩
          refine .inr ⟨resolution, later, reply, last, rfl, hfree, hreply, ?_⟩
          exact failsToWait_receiveReply_iff.mp hrest
        · rintro (h | ⟨_, _, reply, last, h, hfree', hreply, hrest⟩)
          · cases h
          · cases h
            cases hfree.symm.trans hfree'
            exact ⟨reply, last, hreply, failsToWait_receiveReply_iff.mpr hrest⟩

/-! ## Requiring -/

/-- The load hooks of a module that is required have been asked, and come to a reply. -/
inductive Replies (host : Host σ H) (order : LoadOrder) (session : Session σ H) (key : String)
    (reply : LoadReply σ H) : Prop where
  | intro {resolution : Resolution} {middle later last : Session σ H}
      (hresolved : Comes host (session.asking host order.specifier (contextOf order)).1
        (session.asking host order.specifier (contextOf order)).2
        ((.ok resolution : Except ModuleError Resolution) : Value σ H .resolution) middle)
      (hkey : resolution.url = key)
      (hfree : middle.servedExports key = (.ok none, later))
      (hreply : Comes host (later.asksFor host order resolution).2.1
        (later.asksFor host order resolution).2.2 (reply : Value σ H .reply) last) :
      Replies host order session key reply

/-- A require fails because it cannot wait if its specifier resolves to that error, if the reply
of its load hooks is pending, or if they reply with that error themselves. -/
theorem answers_deferred_iff :
    (∃ last, Answers host session (.require specifier base)
        ((.error (.deferred key) : Except ModuleError LoadedModule)) last) ↔
      (∃ last, Comes host
        (session.entered.asking host specifier (contextOf (session.orderOf specifier base))).1
        (session.entered.asking host specifier (contextOf (session.orderOf specifier base))).2
        ((.error (.deferred key) : Except ModuleError Resolution) : Value σ H .resolution) last) ∨
      ∃ url reply, Replies host (session.orderOf specifier base) session.entered url reply ∧
        ((reply.isPending = true ∧ url = key) ∨ reply = .ready (.error (.deferred key))) := by
  have hstart : (∃ last, Answers host session (.require specifier base)
        ((.error (.deferred key) : Except ModuleError LoadedModule)) last) ↔
      ∃ (result : Except ModuleError Resolution) (middle : Session σ H), Comes host
          (session.entered.asking host specifier (contextOf (session.orderOf specifier base))).1
          (session.entered.asking host specifier (contextOf (session.orderOf specifier base))).2
          (result : Value σ H .resolution) middle ∧
        FailsToWait host
          (receiveResolution host (session.orderOf specifier base) result .nil middle).1
          (receiveResolution host (session.orderOf specifier base) result .nil middle).2 key := by
    refine (exists_congr fun last => answers_require_iff).trans ?_
    simp only [startLoad_eq]
    constructor
    · rintro ⟨last, hcomes⟩
      obtain ⟨result, middle, hresult, hrest⟩ := comes_onto_iff.mp hcomes
      exact ⟨result, middle, hresult, failsToWait_ordered_iff.mp ⟨last, hrest⟩⟩
    · rintro ⟨result, middle, hresult, hfails⟩
      obtain ⟨last, hrest⟩ := failsToWait_ordered_iff.mpr hfails
      exact ⟨last, comes_onto_iff.mpr ⟨result, middle, hresult, hrest⟩⟩
  refine hstart.trans ⟨?_, ?_⟩
  · rintro ⟨result, middle, hresult, hfails⟩
    rcases (failsToWait_receiveResolution_iff rfl).mp hfails with
      rfl | ⟨resolution, later, reply, last, rfl, hfree, hreply, hrest⟩
    · exact .inl ⟨middle, hresult⟩
    · exact .inr ⟨resolution.url, reply, .intro hresult rfl hfree hreply, hrest⟩
  · rintro (⟨middle, hresult⟩ | ⟨url, reply, ⟨hresult, rfl, hfree, hreply⟩, hrest⟩)
    · exact ⟨_, middle, hresult, (failsToWait_receiveResolution_iff rfl).mpr (.inl rfl)⟩
    · exact ⟨_, _, hresult, (failsToWait_receiveResolution_iff rfl).mpr
        (.inr ⟨_, _, reply, _, rfl, hfree, hreply, hrest⟩)⟩

end Session

end ScriptModules
