import ScriptModules.Proofs.Loader.Resolving

/-!
# Programs that leave the meaning of specifiers alone

Programs a loader runs may register hooks, define built-in modules and reload modules, and
each of these may change what specifiers mean.  If none of them does so, the loader knows
every manifest at the end of a call that it knew at any time before, and has the same hooks
and built-in modules (`Session.steadily_leads`).

What a program may ask for, and what it may expect of the answers, is its *contract*.  It
is kept by each program alone, and so by what a loader puts together from programs.
-/

namespace ScriptModules

variable {σ H α β S : Type} {I J : Interface} {k m n : Kind}

/-! ## Contracts -/

/-- What programs may ask for, and what they may expect. -/
structure Contract (I : Interface) where
  allowed : I.Request → Prop
  expected : (request : I.Request) → I.Answer request → Prop

/-- A program keeps a contract and promises something of its result. -/
def Program.Keeps (contract : Contract I) (promised : α → Prop) : Program I α → Prop
  | .done result => promised result
  | .ask request next =>
    contract.allowed request ∧
      ∀ answer, contract.expected request answer → (next answer).Keeps contract promised

namespace Program.Keeps

variable {contract : Contract I} {outer : Contract J} {promised : α → Prop}

theorem bind {program : Program I α} (h : program.Keeps contract promised) {later : β → Prop}
    {next : α → Program I β} (hn : ∀ result, promised result → (next result).Keeps contract later) :
    (program.bind next).Keeps contract later := by
  induction program with
  | done result => exact hn result h
  | ask request rest ih => exact ⟨h.1, fun answer ha => ih answer (h.2 answer ha)⟩

theorem expand {program : Program I α} (h : program.Keeps contract promised)
    {replace : (request : I.Request) → S → Program J (I.Answer request × S)}
    (hr : ∀ request state, contract.allowed request →
      (replace request state).Keeps outer fun pair => contract.expected request pair.1)
    (state : S) : (program.expand replace state).Keeps outer fun pair => promised pair.1 := by
  induction program generalizing state with
  | done result => exact h
  | ask request rest ih =>
      refine bind (hr request state h.1) fun pair hp => ?_
      exact ih pair.1 (h.2 pair.1 hp) pair.2

theorem substitute {program : Program I α} (h : program.Keeps contract promised)
    {replace : (request : I.Request) → Program J (I.Answer request)}
    (hr : ∀ request, contract.allowed request →
      (replace request).Keeps outer (contract.expected request)) :
    (program.substitute replace).Keeps outer promised := by
  induction program with
  | done result => exact h
  | ask request rest ih =>
      exact bind (hr request h.1) fun answer ha => ih answer (h.2 answer ha)

end Program.Keeps

/-- Whether a request leaves hooks, built-in modules and known manifests as they are. -/
def Request.isSteady : Request σ H → Bool
  | .operation (.defineBuiltin ..) | .operation (.register _) | .reload .. => false
  | _ => true

/-- The contract of programs that only ask things of the loader. -/
def steadyProgram : Contract (loaderInterface σ H) where
  allowed request := request.isSteady = true
  expected _ _ := True

/-- The contract of what a loader runs. -/
def steadyWork : Contract (workInterface σ H) where
  allowed
    | .request request => request.isSteady = true
    | _ => True
  expected _ _ := True

/-- A reply of the load hooks whose result comes of steady work, if it is still to come. -/
def LoadReply.IsSteady : LoadReply σ H → Prop
  | .ready _ => True
  | .pending rest => rest.Keeps steadyWork fun _ => True

/-- The contract of load hooks. -/
def steadyLoad : Contract (loadInterface σ H) where
  allowed
    | .request request => request.isSteady = true
    | .next .. => True
  expected
    | .request _, _ => True
    | .next .., reply => LoadReply.IsSteady reply

/-- The contract of load hooks that have deferred their reply. -/
def steadyDeferred : Contract (deferredInterface σ H) where
  allowed
    | .hook request => steadyLoad.allowed request
    | .await reply => reply.IsSteady
    | .pause => True
  expected
    | .hook request, answer => steadyLoad.expected request answer
    | .await _, _ => True
    | .pause, _ => True

/-- What a load hook may end with. -/
def LoadAnswer.IsSteady : LoadAnswer σ H → Prop
  | .ready _ => True
  | .deferred rest => rest.Keeps steadyDeferred fun _ => True

/-- The contract of the bodies of modules. -/
def steadyBody : Contract (bodyInterface σ H) where
  allowed
    | .request request => request.isSteady = true
    | .dependency _ | .dependencies => True
  expected _ _ := True

/-- A host whose hooks go on or decide, looking at nothing but what they are told, and
whose programs leave hooks, built-in modules and known manifests as they are. -/
structure Host.IsSteady (host : Host σ H) : Prop where
  resolve : host.ResolvesAlike (.stateless σ H)
  load : ∀ hook url context, (host.load hook url context).Keeps steadyLoad LoadAnswer.IsSteady
  compile : ∀ source options, (host.compile source options).Keeps steadyProgram fun _ => True
  execute : ∀ bytecode id exports,
    (host.execute bytecode id exports).Keeps steadyBody fun _ => True

/-! ## What a loader puts together -/

theorem keeps_request {request : Request σ H} (h : request.isSteady = true) :
    (Work.request request).Keeps steadyWork fun _ => True :=
  ⟨h, fun _ _ => trivial⟩

theorem keeps_ofProgram {program : Program (loaderInterface σ H) α}
    (h : program.Keeps steadyProgram fun _ => True) :
    (Work.ofProgram program).Keeps steadyWork fun _ => True :=
  h.substitute fun _ hr => keeps_request hr

theorem keeps_ofBody (base : Path) {body : BodyProgram σ H}
    (h : body.Keeps steadyBody fun _ => True) :
    (Work.ofBody base body).Keeps steadyWork fun _ => True := by
  refine h.expand (fun request ids hr => ?_) []
  cases request with
  | request request => exact (keeps_request hr).bind fun _ _ => trivial
  | dependency specifier =>
      refine Program.Keeps.bind (keeps_request rfl) fun result _ => ?_
      cases result <;> trivial
  | dependencies => trivial

/-- Hooks that ask for nothing are steady. -/
theorem Likeness.Works.keeps {work twin : Work σ H α}
    (h : (Likeness.stateless σ H).Works work twin) : work.Keeps steadyWork fun _ => True := by
  induction h with
  | done result => trivial
  | operation ho _ _ => exact ho.elim
  | resolve _ _ ih => exact ⟨trivial, fun answer _ => ih answer⟩

theorem keeps_answerLoad {next : NextLoad σ H}
    (hn : ∀ url context, (next url context).Keeps steadyWork LoadReply.IsSteady)
    (request : LoadRequest σ H) (called : Bool) (hr : steadyLoad.allowed request) :
    (answerLoad next request called).Keeps steadyWork fun pair =>
      steadyLoad.expected request pair.1 := by
  cases request with
  | request request => exact (keeps_request hr).bind fun _ _ => trivial
  | next url context => exact (hn url context).bind fun _ hreply => hreply

theorem keeps_answerDeferred {next : NextLoad σ H}
    (hn : ∀ url context, (next url context).Keeps steadyWork LoadReply.IsSteady)
    (request : DeferredRequest σ H) (called : Bool) (hr : steadyDeferred.allowed request) :
    (answerDeferred next request called).Keeps steadyWork fun pair =>
      steadyDeferred.expected request pair.1 := by
  cases request with
  | hook request => exact keeps_answerLoad hn request called hr
  | await reply =>
      have hawait : reply.await.Keeps steadyWork fun _ => True := by
        cases reply with
        | ready result => trivial
        | pending rest => exact hr
      exact hawait.bind fun _ _ => trivial
  | pause => exact ⟨trivial, fun _ _ => trivial⟩

theorem keeps_loadThrough {hook : LoadProgram σ H} {next : NextLoad σ H}
    (h : hook.Keeps steadyLoad LoadAnswer.IsSteady)
    (hn : ∀ url context, (next url context).Keeps steadyWork LoadReply.IsSteady) (id : Nat) :
    (loadThrough id hook next).Keeps steadyWork LoadReply.IsSteady := by
  refine (h.expand (fun request called hr => keeps_answerLoad hn request called hr) false).bind ?_
  rintro ⟨answer, called⟩ hanswer
  cases answer with
  | ready result => trivial
  | deferred rest =>
      have hrest := Program.Keeps.expand hanswer
        (fun request called hr => keeps_answerDeferred hn request called hr) called
      exact hrest.bind fun _ _ => trivial

theorem keeps_dispatchLoad {host : Host σ H} (hh : host.IsSteady) (hooks : List (Nat × H))
    (url : String) (context : LoadContext) :
    (dispatchLoad host.load hooks loadDirectly url context).Keeps steadyWork
      LoadReply.IsSteady := by
  induction hooks generalizing url context with
  | nil => exact ⟨trivial, fun _ _ => trivial⟩
  | cons hook hooks ih => exact keeps_loadThrough (hh.load hook.2 url context) ih hook.1

/-! ## Frames -/

/-- A value that is handed on: a reply that is still to come comes of steady work. -/
def Value.IsSteady : {k : Kind} → Value σ H k → Prop
  | .reply, reply => LoadReply.IsSteady reply
  | .resolution, _ | .output, _ | .bytecode, _ | .execution, _ | .module, _ | .reload, _ => True

theorem Value.IsSteady.keeps_rest? {value : Value σ H k} (hv : value.IsSteady)
    {rest : Work σ H (Except ModuleError LoadOutput)} (hr : value.rest? = some rest) :
    rest.Keeps steadyWork fun _ => True := by
  cases k with
  | reply =>
      cases (value : LoadReply σ H) with
      | ready result => cases hr
      | pending work =>
          cases hr
          exact hv
  | _ => cases hr

/-- A frame goes on with steady work, and is not part of a reload. -/
def Frame.IsSteady : Frame σ H k m → Prop
  | .asking next => ∀ answer, Value.IsSteady answer → (next answer).Keeps steadyWork Value.IsSteady
  | .reloading _ | .renewing .. => False
  | _ => True

/-- All frames of a stack do. -/
def Stack.IsSteady : {k n : Kind} → Stack σ H k n → Prop
  | _, _, .nil => True
  | _, _, .cons frame rest => frame.IsSteady ∧ rest.IsSteady

/-- Steady work, and steady frames that wait for it. -/
structure Focus.IsSteady (focus : Focus σ H n) : Prop where
  work : focus.work.Keeps steadyWork Value.IsSteady
  stack : focus.stack.IsSteady

theorem Resolver.kindOf_extends (resolver : Resolver) (fs : FileSystem) (path : Path) :
    (resolver.kindOf fs path).2.builtins = resolver.builtins ∧
      (resolver.kindOf fs path).2.manifests.Extends resolver.manifests := by
  unfold kindOf
  split
  · exact ⟨rfl, .refl _⟩
  · split
    · exact ⟨rfl, .refl _⟩
    · exact ⟨rfl, Package.Finder.nearest_extends resolver.manifests fs path⟩

namespace Session

variable {host : Host σ H} {session middle last : Session σ H} {stack : Stack σ H .module n}
  {load : Load} {result : Focus σ H n × Session σ H}

/-- What a step comes to: specifiers mean what they meant, and what is left is steady. -/
structure Steadily (session : Session σ H) (result : Focus σ H n × Session σ H) : Prop where
  heeds : session.Heeds result.2
  focus : result.1.IsSteady

theorem Heeds.steadily (h₁ : session.Heeds middle) (h₂ : middle.Steadily result) :
    session.Steadily result :=
  ⟨h₁.trans h₂.heeds, h₂.focus⟩

/-! ## Loads -/

theorem steadily_failLoad (e : ModuleError) (hs : stack.IsSteady) :
    session.Steadily (failLoad load e stack session) :=
  ⟨heeds_of_eq rfl rfl, trivial, hs⟩

theorem steadily_startBody (hh : host.IsSteady) (bytecode : Bytes)
    (fingerprint : Option Fingerprint) (sourceLength : Nat) (hs : stack.IsSteady) :
    session.Steadily (startBody host load bytecode fingerprint sourceLength stack session) := by
  unfold startBody
  exact ⟨heeds_of_eq rfl rfl, keeps_ofBody _ (hh.execute ..), trivial, hs⟩

theorem Aside.heeds (h : session.Aside middle) : session.Heeds middle := by
  cases h with
  | examines path =>
      have hkeeps := session.loader.resolver.kindOf_keeps session.files path
      have hextends := session.loader.resolver.kindOf_extends session.files path
      exact ⟨rfl, hkeeps.1, hextends.1, hextends.2⟩
  | caches files cache => exact heeds_of_eq rfl rfl
  | leaves => exact heeds_of_eq rfl rfl

/-- However a load carries on, what is still to come of its contents has to be steady. -/
theorem Carries.steadily {rest? : Option (Work σ H (Except ModuleError LoadOutput))}
    {state : ModuleState} {exports : Option Handle}
    (hc : Carries host load rest? stack state exports session result) (hh : host.IsSteady)
    (hr : ∀ rest, rest? = some rest → rest.Keeps steadyWork fun _ => True)
    (hs : stack.IsSteady) : session.Steadily result := by
  induction hc with
  | fails e _ _ => exact steadily_failLoad e hs
  | awaits hrest => exact ⟨heeds_of_eq rfl rfl, hr _ hrest, trivial, hs⟩
  | receives format _ ih =>
      refine Heeds.steadily ?_ ih
      exact heeds_of_eq rfl rfl
  | compiles source options fingerprint =>
      exact ⟨heeds_of_eq rfl rfl, keeps_ofProgram (hh.compile ..), trivial, hs⟩
  | begins bytecode fingerprint sourceLength => exact steadily_startBody hh _ _ _ hs
  | adopts handle _ => exact ⟨heeds_of_eq rfl rfl, trivial, hs⟩
  | completes handle dependencies => exact ⟨heeds_of_eq rfl rfl, trivial, hs⟩
  | aside ha _ ih => exact ha.heeds.steadily ih

theorem Considers.heeds {key : String} {answer : Except ModuleError (Option Handle)}
    (h : Considers key session (answer, middle)) : session.Heeds middle := by
  cases h <;> exact heeds_of_eq rfl rfl

theorem Admits.steadily {order : LoadOrder} {answer : Except ModuleError Resolution}
    (h : Admits host order stack session answer result) (hh : host.IsSteady)
    (hs : stack.IsSteady) : session.Steadily result := by
  cases h with
  | unresolved => exact ⟨heeds_of_eq rfl rfl, trivial, hs⟩
  | refused _ => exact ⟨heeds_of_eq rfl rfl, trivial, hs⟩
  | served hserved => exact ⟨(considers_of_eq hserved).heeds, trivial, hs⟩
  | begins _ => exact ⟨⟨rfl, rfl, rfl, .refl _⟩, keeps_dispatchLoad hh _ _ _, trivial, hs⟩

/-! ## Steps -/

theorem keeps_resolveWork (hh : host.IsSteady) (session : Session σ H) (specifier : String)
    (context : ResolveContext) :
    (session.resolveWork host specifier context).1.Keeps steadyWork fun _ => True :=
  (hh.resolve.dispatch _ specifier context context rfl).keeps

theorem steadily_startResolve (hh : host.IsSteady) (specifier : String) (base : Path)
    {stack : Stack σ H .resolution n} (hs : stack.IsSteady) :
    session.Steadily (startResolve host specifier base stack session) :=
  ⟨⟨rfl, rfl, rfl, .refl _⟩, keeps_resolveWork hh session specifier _, hs⟩

theorem steadily_startLoad (hh : host.IsSteady) (mode : LoadMode) (specifier : String)
    (base : Path) (hs : stack.IsSteady) :
    session.Steadily (startLoad host mode specifier base stack session) :=
  ⟨⟨rfl, rfl, rfl, .refl _⟩, keeps_resolveWork hh _ specifier _, trivial, trivial, hs⟩

theorem heeds_perform (session : Session σ H) {operation : Operation σ H}
    (ho : (Request.operation operation).isSteady = true) :
    session.Heeds (session.perform operation).2 := by
  have hperforms := session.performs operation
  generalize (session.perform operation).2 = after at hperforms ⊢
  cases hperforms with
  | defines name handle => cases ho
  | registers registration => cases ho
  | finds path base => exact ⟨rfl, rfl, rfl, fun _ _ h => h⟩
  | _ => exact heeds_of_eq rfl rfl

theorem steadily_resume (hh : host.IsSteady) {frame : Frame σ H k m} {value : Value σ H k}
    {stack : Stack σ H m n} (hf : frame.IsSteady) (hv : value.IsSteady) (hs : stack.IsSteady) :
    session.Steadily (resume host frame value stack session) := by
  cases frame using Frame.cases_load with
  | asking next => exact ⟨heeds_of_eq rfl rfl, hf value hv, hs⟩
  | counting =>
      have hheeds : session.Heeds (session.countOutcome value) := heeds_of_eq rfl rfl
      exact ⟨hheeds, trivial, hs⟩
  | resolving order => exact (admits host order value stack session).steadily hh hs
  | loading frame load hload =>
      obtain ⟨state, exports, -, -, hcarries⟩ := resume_carries host value stack session hload
      exact hcarries.steadily hh (fun _ hrest => hv.keeps_rest? hrest) hs
  | reloading reload => exact hf.elim
  | renewing reload key wasCached => exact hf.elim

/-- A step of steady work changes no meaning, and leaves steady work. -/
theorem steadily_step (hh : host.IsSteady) {focus next : Focus σ H n} (hf : focus.IsSteady)
    (h : (session.step host focus).1.GoesOn next) :
    session.Steadily (next, (session.step host focus).2) := by
  obtain ⟨kind, work, stack⟩ := focus
  obtain ⟨hwork, hstack⟩ := hf
  cases work with
  | done value =>
      cases stack with
      | nil => exact absurd h not_goesOn_done
      | cons frame rest =>
          cases h
          exact steadily_resume hh hstack.1 hwork hstack.2
  | ask request ask =>
      cases request with
      | request request =>
          cases request with
          | operation operation =>
              cases h
              exact ⟨heeds_perform session hwork.1, hwork.2 _ trivial, hstack⟩
          | resolve specifier base =>
              cases h
              exact steadily_startResolve hh specifier base ⟨fun answer _ => hwork.2 answer trivial, hstack⟩
          | require specifier base =>
              cases h
              exact steadily_startLoad hh .immediate specifier base
                ⟨fun answer _ => hwork.2 answer trivial, hstack⟩
          | reload specifier base => cases hwork.1
      | resolveDefault specifier context =>
          cases h
          exact ⟨(session.grows_resolving specifier context).toHeeds, hwork.2 _ trivial, hstack⟩
      | loadDefault url context =>
          cases h
          exact ⟨heeds_of_eq rfl rfl, hwork.2 _ trivial, hstack⟩
      | pause =>
          rcases step_pause host ask stack session with heq | heq <;> rw [heq] at h ⊢ <;>
            cases h <;> exact ⟨heeds_of_eq rfl rfl, hwork.2 _ trivial, hstack⟩

/-- All through a run of steady work specifiers mean what they meant. -/
theorem steadily_leads (hh : host.IsSteady) {focus final : Focus σ H n} (hf : focus.IsSteady)
    (h : Leads host focus session final last) : session.Steadily (final, last) := by
  induction h with
  | refl => exact ⟨heeds_of_eq rfl rfl, hf⟩
  | step h _ ih =>
      have hstep := steadily_step hh hf h
      exact hstep.heeds.steadily (ih hstep.focus)

end Session

end ScriptModules
