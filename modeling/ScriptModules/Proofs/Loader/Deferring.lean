import ScriptModules.Proofs.Hooks.Patience
import ScriptModules.Proofs.Loader.Composition
import ScriptModules.Proofs.Loader.Steadiness

/-!
# Imports whose load hooks defer

A host with patient load hooks is put beside one whose hooks do the same and never defer.  Then
every reply is there (`endsReady_dispatchLoad`), where in the first host some are pending.

Step by step an import does the same in both hosts (`Session.advances`).  What is different is
how far work has come that may defer: in one host it is still the load hooks that are being asked
while in the other one their reply is awaited (`Focus.Alike`).  Of a synchronous load that meets
a pending reply this is not so: it is refused.  Unless that happens on the way, an import comes
to the same, and leaves the same behind (`Session.comes_promptly_iff`).
-/

namespace ScriptModules

variable {σ H α : Type} {k m n : Kind}

/-! ## Replies that are there -/

/-- The contract of work that may ask for anything. -/
def anyWork : Contract (workInterface σ H) where
  allowed _ := True
  expected _ _ := True

/-- Work that ends with a reply that is there. -/
def Work.EndsReady (work : Work σ H (LoadReply σ H)) : Prop :=
  work.Keeps anyWork fun reply => reply.isPending = false

/-- The contract of load hooks that get no reply that is pending. -/
def promptLoad : Contract (loadInterface σ H) where
  allowed _ := True
  expected
    | .request _, _ => True
    | .next .., reply => LoadReply.isPending reply = false

/-- A hook that defers only if it has to never does so. -/
theorem keeps_prompt (program : PatientProgram σ H) :
    program.prompt.Keeps promptLoad fun answer => ∃ result, answer = .ready result := by
  induction program with
  | done result => exact ⟨result, rfl⟩
  | ask request next ih =>
      cases request with
      | request request => exact ⟨trivial, fun answer _ => ih answer⟩
      | next url context =>
          refine ⟨trivial, fun reply hreply => ?_⟩
          cases reply with
          | ready result => exact ih result
          | pending rest => cases hreply

theorem endsReady_loadThrough (id : Nat) (program : PatientProgram σ H) {next : NextLoad σ H}
    (hnext : ∀ url context, Work.EndsReady (next url context)) :
    Work.EndsReady (loadThrough id program.prompt next) := by
  have hanswer : ∀ (request : LoadRequest σ H) (called : Bool), promptLoad.allowed request →
      (answerLoad next request called).Keeps anyWork
        fun pair => promptLoad.expected request pair.1 := by
    intro request called _
    cases request with
    | request request => exact ⟨trivial, fun _ _ => trivial⟩
    | next url context => exact (hnext url context).bind fun reply hreply => hreply
  refine ((keeps_prompt program).expand hanswer false).bind ?_
  rintro ⟨answer, called⟩ ⟨result, rfl⟩
  rfl

/-- In a chain of hooks that defer only if they have to no reply is pending. -/
theorem endsReady_dispatchLoad (program : H → String → LoadContext → PatientProgram σ H)
    (hooks : List (Nat × H)) {last : NextLoad σ H}
    (hlast : ∀ url context, Work.EndsReady (last url context)) (url : String)
    (context : LoadContext) :
    Work.EndsReady (dispatchLoad (prompts program) hooks last url context) := by
  induction hooks generalizing url context with
  | nil => exact hlast url context
  | cons hook hooks ih => exact endsReady_loadThrough hook.1 (program hook.2 url context) ih

theorem endsReady_loadDirectly (url : String) (context : LoadContext) :
    Work.EndsReady (loadDirectly (σ := σ) (H := H) url context) :=
  ⟨trivial, fun _ _ => rfl⟩

/-! ## Pauses -/

namespace Work

/-- Work that has gone on past the pauses it begins with. -/
def roused : Work σ H α → Work σ H α
  | .ask .pause next => roused (next ())
  | work => work

/-- Work that begins with no pause is over, or it asks for something. -/
theorem roused_cases (work : Work σ H α) :
    (∃ result, work.roused = .done result) ∨
      ∃ request next, request.pauseAnswer = none ∧ work.roused = .ask request next := by
  induction work with
  | done result => exact .inl ⟨result, rfl⟩
  | ask request next ih =>
      cases request with
      | pause => exact ih ()
      | request _ | resolveDefault _ _ | loadDefault _ _ => exact .inr ⟨_, next, rfl, rfl⟩

theorem unpaused_roused (work : Work σ H α) : unpaused work.roused = unpaused work := by
  induction work with
  | done result => rfl
  | ask request next ih =>
      cases request with
      | pause => exact ih ()
      | request _ | resolveDefault _ _ | loadDefault _ _ => rfl

theorem unpaused_ask {request : WorkRequest σ H} (h : request.pauseAnswer = none)
    (next : request.Answer → Work σ H α) :
    unpaused (.ask request next) = .ask request fun answer => unpaused (next answer) :=
  Program.skipping_none (I := workInterface σ H) h next

theorem roused_of_done {work : Work σ H α} {result : α} (h : unpaused work = .done result) :
    work.roused = .done result := by
  rw [← unpaused_roused] at h
  rcases work.roused_cases with ⟨found, hfound⟩ | ⟨request, next, hrequest, hnext⟩
  · rw [hfound] at h ⊢
    exact h
  · rw [hnext, unpaused_ask hrequest] at h
    cases h

theorem roused_of_ask {work : Work σ H α} {request : WorkRequest σ H}
    {after : request.Answer → Work σ H α} (h : unpaused work = .ask request after) :
    request.pauseAnswer = none ∧ ∃ next, work.roused = .ask request next ∧
      ∀ answer, unpaused (next answer) = after answer := by
  rw [← unpaused_roused] at h
  rcases work.roused_cases with ⟨found, hfound⟩ | ⟨request, next, hrequest, hnext⟩
  · rw [hfound] at h
    cases h
  · rw [hnext, unpaused_ask hrequest] at h
    cases h
    exact ⟨hrequest, next, hnext, fun _ => rfl⟩

theorem unpaused_roused_bind {β : Type} (work : Work σ H α) (next : α → Work σ H β) :
    unpaused (work.roused.bind next) = unpaused (work.bind next) := by
  have hbind : ∀ work : Work σ H α, unpaused (work.bind next) =
      (unpaused work).bind fun result => unpaused (next result) :=
    fun work => Program.skipping_bind work next
  rw [hbind, hbind, unpaused_roused]

/-- Past its pauses, work that ends with a reply that is there has this reply, or it asks for
something. -/
theorem EndsReady.roused_cases {work : Work σ H (LoadReply σ H)} (h : EndsReady work) :
    (∃ result, work.roused = .done (.ready result)) ∨
      ∃ request next, request.pauseAnswer = none ∧ work.roused = .ask request next ∧
        ∀ answer, EndsReady (next answer) := by
  induction work with
  | done reply =>
      cases reply with
      | ready result => exact .inl ⟨result, rfl⟩
      | pending rest => cases h
  | ask request next ih =>
      have hnext : ∀ answer, EndsReady (next answer) := fun answer => h.2 answer trivial
      cases request with
      | pause => exact ih () (hnext ())
      | request _ | resolveDefault _ _ | loadDefault _ _ => exact .inr ⟨_, next, rfl, rfl, hnext⟩

end Work

namespace Session

variable {host : Host σ H} {session : Session σ H}

/-- Work gets past its pauses, and nothing else happens. -/
theorem leads_of_roused {work left : Work σ H (Value σ H k)} (h : work.roused = left)
    (stack : Stack σ H k n) : Leads host ⟨k, work, stack⟩ session ⟨k, left, stack⟩ session := by
  subst h
  induction work with
  | done result => exact .refl
  | ask request next ih =>
      cases request with
      | pause =>
          have hgoes : (session.step host ⟨k, .ask .pause next, stack⟩).1.GoesOn
              ⟨k, next (), stack⟩ := by
            rcases step_pause host next stack session with heq | heq <;> rw [heq]
            · exact .running
            · exact .suspended
          have hsession : (session.step host ⟨k, .ask .pause next, stack⟩).2 = session := by
            rcases step_pause host next stack session with heq | heq <;> rw [heq]
          refine .step hgoes ?_
          rw [hsession]
          exact ih ()
      | request _ | resolveDefault _ _ | loadDefault _ _ => exact .refl

end Session

/-! ## Two hosts -/

/-- The load hooks of a host are patient in every chain, and do what programs say. -/
def Host.IsPatient (host : Host σ H) (program : H → String → LoadContext → PatientProgram σ H) :
    Prop :=
  ∀ hooks, PatientChain host.load program loadDirectly hooks

/-- The same host with load hooks that do what programs say, and defer only if they have to. -/
def Host.prompted (host : Host σ H) (program : H → String → LoadContext → PatientProgram σ H) :
    Host σ H :=
  { host with load := prompts program }

namespace Session

section
variable {host : Host σ H} {program : H → String → LoadContext → PatientProgram σ H}
  {session : Session σ H} {load : Load} {stack : Stack σ H .module n}

/-! What does not ask the load hooks is the same in both. -/

theorem engine_prompted : (host.prompted program).engine = host.engine := rfl

theorem compile_prompted : (host.prompted program).compile = host.compile := rfl

theorem startBody_prompted (bytecode : Bytes) (fingerprint : Option Fingerprint)
    (sourceLength : Nat) :
    startBody (host.prompted program) load bytecode fingerprint sourceLength stack session =
      startBody host load bytecode fingerprint sourceLength stack session := rfl

theorem startCompiler_prompted (source : Bytes) :
    startCompiler (host.prompted program) load source stack session =
      startCompiler host load source stack session := by
  unfold startCompiler
  simp only [startBody_prompted, engine_prompted, compile_prompted]

theorem receiveResult_prompted (result : Except ModuleError LoadOutput) :
    receiveResult (host.prompted program) load result stack session =
      receiveResult host load result stack session := by
  cases result with
  | error e => rfl
  | ok output =>
      unfold receiveResult receive
      simp only [startBody_prompted, startCompiler_prompted]

theorem receiveReply_prompted (mode : LoadMode) (reply : LoadReply σ H) :
    receiveReply (host.prompted program) load mode reply stack session =
      receiveReply host load mode reply stack session := by
  unfold receiveReply
  simp only [receiveResult_prompted]

theorem receiveBytecode_prompted (source : Bytes) (fingerprint : Option Fingerprint)
    (result : Except CompileError Bytes) :
    receiveBytecode (host.prompted program) load source fingerprint result stack session =
      receiveBytecode host load source fingerprint result stack session := by
  unfold receiveBytecode
  simp only [startBody_prompted, engine_prompted]

theorem startLoad_prompted (mode : LoadMode) (specifier : String) (base : Path) :
    startLoad (host.prompted program) mode specifier base stack session =
      startLoad host mode specifier base stack session := rfl

theorem receiveReload_prompted (reload : Reload) (result : Except ModuleError Resolution)
    (stack : Stack σ H .reload n) :
    receiveReload (host.prompted program) reload result stack session =
      receiveReload host reload result stack session := by
  unfold receiveReload
  simp only [startLoad_prompted]

end

end Session

/-! ## Foci that do the same -/

mutual

/-- Two foci do the same, where the second is one of a host whose hooks never defer. -/
inductive Focus.Alike : {n : Kind} → Focus σ H n → Focus σ H n → Prop where
  /-- The same is to be done, up to pauses. -/
  | work {k n : Kind} {work prompt : Work σ H (Value σ H k)} {stack below : Stack σ H k n}
      (h : work.unpaused = prompt.unpaused) (hs : Stack.Alike stack below) :
      Focus.Alike ⟨k, work, stack⟩ ⟨k, prompt, below⟩
  /-- The load hooks are being asked in both hosts. -/
  | fetching {n : Kind} {load : Load} {mode : LoadMode} {work prompt : Work σ H (LoadReply σ H)}
      {stack below : Stack σ H .module n}
      (h : Work.unpaused (work.bind LoadReply.await) = Work.unpaused (prompt.bind LoadReply.await))
      (hr : Work.EndsReady prompt) (hs : Stack.Alike stack below) :
      Focus.Alike ⟨.reply, work, .cons (.fetching load mode) stack⟩
        ⟨.reply, prompt, .cons (.fetching load mode) below⟩
  /-- In one host the load hooks have deferred, and in the other one they are still being asked. -/
  | awaiting {n : Kind} {load : Load} {work : Work σ H (Except ModuleError LoadOutput)}
      {prompt : Work σ H (LoadReply σ H)} {stack below : Stack σ H .module n}
      (h : Work.unpaused work = Work.unpaused (prompt.bind LoadReply.await))
      (hr : Work.EndsReady prompt) (hs : Stack.Alike stack below) :
      Focus.Alike ⟨.output, work, .cons (.awaiting load) stack⟩
        ⟨.reply, prompt, .cons (.fetching load .suspendable) below⟩

/-- Two stacks go on alike with every value. -/
inductive Stack.Alike : {k n : Kind} → Stack σ H k n → Stack σ H k n → Prop where
  | nil {k : Kind} : Stack.Alike (.nil : Stack σ H k k) .nil
  | frame {k m n : Kind} {frame : Frame σ H k m} {stack below : Stack σ H m n}
      (hs : Stack.Alike stack below) : Stack.Alike (.cons frame stack) (.cons frame below)
  | asking {k m m' n : Kind} {next : Value σ H k → Work σ H (Value σ H m)}
      {after : Value σ H k → Work σ H (Value σ H m')} {stack : Stack σ H m n}
      {below : Stack σ H m' n}
      (h : ∀ value, Focus.Alike ⟨m, next value, stack⟩ ⟨m', after value, below⟩) :
      Stack.Alike (.cons (.asking next) stack) (.cons (.asking after) below)

end

/-- One stack on top of stacks that go on alike. -/
theorem Stack.Alike.append {stack below : Stack σ H m n} (hs : Stack.Alike stack below)
    (top : Stack σ H k m) : Stack.Alike (top.append stack) (top.append below) := by
  induction top with
  | nil => exact hs
  | cons frame rest ih => exact .frame (ih hs)

/-- Whether a load that cannot wait has got a reply that is pending. -/
def Focus.isRefused : Focus σ H n → Bool
  | ⟨_, .done reply, .cons (.fetching _ .immediate) _⟩ => LoadReply.isPending reply
  | _ => false

/-! ## Steps -/

namespace Session

variable {host other : Host σ H} {session middle later last : Session σ H}
  {focus next twin after : Focus σ H n}

/-- A focus comes to another one in a step or more. -/
def LeadsOn (host : Host σ H) (focus : Focus σ H n) (session : Session σ H) (final : Focus σ H n)
    (last : Session σ H) : Prop :=
  ∃ next, (session.step host focus).1.GoesOn next ∧
    Leads host next (session.step host focus).2 final last

theorem LeadsOn.leads (h : LeadsOn host focus session next last) :
    Leads host focus session next last :=
  have ⟨_, hgoes, hleads⟩ := h
  .step hgoes hleads

theorem LeadsOn.since (h : LeadsOn host next middle after last)
    (hl : Leads host focus session next middle) : LeadsOn host focus session after last := by
  cases hl with
  | refl => exact h
  | step hgoes rest => exact ⟨_, hgoes, rest.trans h.leads⟩

theorem finish_of_goesOn {value : Value σ H n} {steps : Nat}
    (h : (session.step host focus).1.GoesOn next)
    (hf : session.finish host steps focus = (some value, last)) :
    ∃ left < steps, (session.step host focus).2.finish host left next = (some value, last) := by
  cases steps with
  | zero => cases hf
  | succ steps =>
      refine ⟨steps, Nat.lt_succ_self steps, ?_⟩
      unfold finish at hf
      generalize session.step host focus = result at h hf ⊢
      obtain ⟨progress, after⟩ := result
      cases h <;> exact hf

theorem Leads.finish {value : Value σ H n} {steps : Nat}
    (h : Leads host focus session next middle)
    (hf : session.finish host steps focus = (some value, last)) :
    ∃ left ≤ steps, middle.finish host left next = (some value, last) := by
  induction h generalizing steps with
  | refl => exact ⟨steps, Nat.le_refl steps, hf⟩
  | step hgoes _ ih =>
      obtain ⟨left, hleft, hfinish⟩ := finish_of_goesOn hgoes hf
      obtain ⟨rest, hrest, hlast⟩ := ih hfinish
      exact ⟨rest, Nat.le_trans hrest (Nat.le_of_lt hleft), hlast⟩

/-- What comes after a step or more takes fewer steps. -/
theorem LeadsOn.finish {value : Value σ H n} {steps : Nat}
    (h : LeadsOn host focus session next middle)
    (hf : session.finish host steps focus = (some value, last)) :
    ∃ left < steps, middle.finish host left next = (some value, last) := by
  obtain ⟨between, hgoes, hleads⟩ := h
  obtain ⟨left, hleft, hfinish⟩ := finish_of_goesOn hgoes hf
  obtain ⟨rest, hrest, hlast⟩ := hleads.finish hfinish
  exact ⟨rest, Nat.lt_of_le_of_lt hrest hleft, hlast⟩

/-- How two foci go on in two hosts. -/
inductive Advances (host other : Host σ H) (focus twin : Focus σ H n) (session : Session σ H) :
    Prop where
  | ended {value : Value σ H n} {last : Session σ H} (h : Comes host focus session value last)
      (ht : Comes other twin session value last) : Advances host other focus twin session
  | on {next after : Focus σ H n} {later : Session σ H}
      (h : LeadsOn host focus session next later) (ht : LeadsOn other twin session after later)
      (ha : Focus.Alike next after) : Advances host other focus twin session
  /-- A synchronous load is refused. -/
  | refused {next : Focus σ H n} {later : Session σ H} (h : Leads host focus session next later)
      (hr : next.isRefused = true) : Advances host other focus twin session

theorem Advances.since (ha : Advances host other next after middle)
    (h : Leads host focus session next middle) (ht : Leads other twin session after middle) :
    Advances host other focus twin session := by
  cases ha with
  | ended h' ht' => exact .ended (h.trans h') (ht.trans ht')
  | on h' ht' ha => exact .on (h'.since h) (ht'.since ht) ha
  | refused h' hr => exact .refused (h.trans h') hr

theorem leadsOn_of_running (h : session.step host focus = (.running next, later)) :
    LeadsOn host focus session next later := by
  refine ⟨next, ?_, ?_⟩
  · rw [h]
    exact .running
  · rw [h]
    exact .refl

/-- Two foci go on with a step each. -/
theorem advances_of_running {result second : Focus σ H n × Session σ H}
    (h : session.step host focus = (.running result.1, result.2))
    (ht : session.step other twin = (.running second.1, second.2))
    (ha : Focus.Alike result.1 second.1) (hsession : result.2 = second.2) :
    Advances host other focus twin session := by
  have hsecond := leadsOn_of_running ht
  rw [← hsession] at hsecond
  exact .on (leadsOn_of_running h) hsecond ha

section
variable {program : H → String → LoadContext → PatientProgram σ H} {stack below : Stack σ H m n}

theorem alike_onto (hs : Stack.Alike stack below) (result : Focus σ H m × Session σ H) :
    Focus.Alike (onto stack result).1 (onto below result).1 :=
  .work rfl (hs.append _)

/-- A load that gets a record asks the load hooks, which do the same in both hosts. -/
theorem resolution_alike {stack below : Stack σ H .module n} (hp : host.IsPatient program)
    (hs : Stack.Alike stack below) (order : LoadOrder) (result : Except ModuleError Resolution)
    (session : Session σ H) :
    Focus.Alike (receiveResolution host order result stack session).1
        (receiveResolution (host.prompted program) order result below session).1 ∧
      (receiveResolution host order result stack session).2 =
        (receiveResolution (host.prompted program) order result below session).2 := by
  cases result with
  | error e => exact ⟨.work rfl hs, rfl⟩
  | ok resolution =>
      unfold receiveResolution
      simp only
      split
      · exact ⟨.work rfl hs, rfl⟩
      · exact ⟨.work rfl hs, rfl⟩
      · refine ⟨.fetching ?_ ?_ hs, rfl⟩
        · exact (hp _).unpaused_await_dispatchLoad (patientChain_prompts program _ _) _ _
        · exact endsReady_dispatchLoad program _ endsReady_loadDirectly _ _

/-- A value that is handed to a frame is handed on alike. -/
theorem resume_alike (hp : host.IsPatient program) (hs : Stack.Alike stack below)
    (frame : Frame σ H k m) (value : Value σ H k) (session : Session σ H) :
    Focus.Alike (resume host frame value stack session).1
        (resume (host.prompted program) frame value below session).1 ∧
      (resume host frame value stack session).2 =
        (resume (host.prompted program) frame value below session).2 := by
  have hplain : resume (host.prompted program) frame value .nil session =
        resume host frame value .nil session →
      Focus.Alike (resume host frame value stack session).1
          (resume (host.prompted program) frame value below session).1 ∧
        (resume host frame value stack session).2 =
          (resume (host.prompted program) frame value below session).2 := by
    intro heq
    have hfirst : resume host frame value stack session =
        onto stack (resume host frame value .nil session) := resume_onto stack frame value .nil
    have hsecond : resume (host.prompted program) frame value below session =
        onto below (resume (host.prompted program) frame value .nil session) :=
      resume_onto below frame value .nil
    rw [hfirst, hsecond, heq]
    exact ⟨alike_onto hs _, rfl⟩
  cases frame with
  | asking next => exact hplain rfl
  | counting => exact hplain rfl
  | resolving order => exact resolution_alike hp hs order value session
  | fetching load mode => exact hplain (receiveReply_prompted mode value)
  | awaiting load => exact hplain (receiveResult_prompted value)
  | compiling load source fingerprint => exact hplain (receiveBytecode_prompted source _ value)
  | executing load handle => exact hplain rfl
  | reloading reload => exact hplain (receiveReload_prompted reload value .nil)
  | renewing reload key wasCached => exact hplain rfl

/-- The same request is answered alike. -/
theorem advances_request {kind kind' : Kind} {request : WorkRequest σ H}
    {next : request.Answer → Work σ H (Value σ H kind)}
    {after : request.Answer → Work σ H (Value σ H kind')} {stack : Stack σ H kind n}
    {below : Stack σ H kind' n} (hr : request.pauseAnswer = none)
    (h : ∀ answer, Focus.Alike ⟨kind, next answer, stack⟩ ⟨kind', after answer, below⟩) :
    Advances host (host.prompted program) ⟨kind, .ask request next, stack⟩
      ⟨kind', .ask request after, below⟩ session := by
  cases request with
  | pause => cases hr
  | resolveDefault specifier context =>
      exact .on (leadsOn_of_running rfl) (leadsOn_of_running rfl) (h _)
  | loadDefault url context =>
      exact .on (leadsOn_of_running rfl) (leadsOn_of_running rfl) (h _)
  | request request =>
      cases request with
      | operation operation => exact .on (leadsOn_of_running rfl) (leadsOn_of_running rfl) (h _)
      | resolve specifier base =>
          exact .on (leadsOn_of_running rfl) (leadsOn_of_running rfl) (.work rfl (.asking h))
      | require specifier base =>
          exact .on (leadsOn_of_running rfl) (leadsOn_of_running rfl)
            (.work rfl (.frame (.frame (.asking h))))
      | reload specifier base =>
          exact .on (leadsOn_of_running rfl) (leadsOn_of_running rfl)
            (.work rfl (.frame (.asking h)))

section
variable {stack below : Stack σ H .module n} {load : Load} {mode : LoadMode}
  {prompt : Work σ H (LoadReply σ H)} (hp : host.IsPatient program)
include hp

/-- A value that both have come to is handed on. -/
theorem advances_done {stack below : Stack σ H k n} (hs : Stack.Alike stack below)
    (value : Value σ H k) : Advances host (host.prompted program) ⟨k, .done value, stack⟩
      ⟨k, .done value, below⟩ session := by
  cases hs with
  | nil => exact .ended .refl .refl
  | @frame k m n frame stack below hs =>
      obtain ⟨halike, hsession⟩ := resume_alike hp hs frame value session
      exact advances_of_running rfl rfl halike hsession
  | asking h => exact .on (leadsOn_of_running rfl) (leadsOn_of_running rfl) (h value)

theorem advances_work {stack below : Stack σ H k n} {work prompt : Work σ H (Value σ H k)}
    (h : work.unpaused = prompt.unpaused) (hs : Stack.Alike stack below) :
    Advances host (host.prompted program) ⟨k, work, stack⟩ ⟨k, prompt, below⟩ session := by
  rw [← Work.unpaused_roused work] at h
  rcases work.roused_cases with ⟨value, hwork⟩ | ⟨request, next, hrequest, hwork⟩
  · rw [hwork] at h
    have hprompt := Work.roused_of_done h.symm
    exact (advances_done hp hs value).since (leads_of_roused hwork stack)
      (leads_of_roused hprompt below)
  · rw [hwork, Work.unpaused_ask hrequest] at h
    obtain ⟨-, after, hprompt, hafter⟩ := Work.roused_of_ask h.symm
    refine Advances.since ?_ (leads_of_roused hwork stack) (leads_of_roused hprompt below)
    exact advances_request hrequest fun answer => .work (hafter answer).symm hs

/-- The reply of the hooks is awaited in one host only. -/
theorem advances_awaiting {work : Work σ H (Except ModuleError LoadOutput)}
    (h : Work.unpaused work = Work.unpaused (prompt.bind LoadReply.await))
    (hr : Work.EndsReady prompt) (hs : Stack.Alike stack below) :
    Advances host (host.prompted program) ⟨.output, work, .cons (.awaiting load) stack⟩
      ⟨.reply, prompt, .cons (.fetching load .suspendable) below⟩ session := by
  rw [← Work.unpaused_roused_bind prompt] at h
  rcases hr.roused_cases with ⟨result, hprompt⟩ | ⟨request, after, hrequest, hprompt, hready⟩
  · rw [hprompt] at h
    have hwork := Work.roused_of_done h
    refine Advances.since ?_ (leads_of_roused hwork _) (leads_of_roused hprompt _)
    obtain ⟨halike, hsession⟩ := resume_alike hp hs (.awaiting load) result session
    exact advances_of_running rfl rfl halike hsession
  · rw [hprompt] at h
    have hask := h.trans
      (Work.unpaused_ask hrequest fun answer => (after answer).bind LoadReply.await)
    obtain ⟨-, next, hwork, hnext⟩ := Work.roused_of_ask hask
    refine Advances.since ?_ (leads_of_roused hwork _) (leads_of_roused hprompt _)
    exact advances_request hrequest fun answer => .awaiting (hnext answer) (hready answer) hs

/-- The hooks are being asked in both hosts.  When their reply is pending in the one, it is
awaited there before the other gets its own. -/
theorem advances_fetching {work : Work σ H (LoadReply σ H)}
    (h : Work.unpaused (work.bind LoadReply.await) = Work.unpaused (prompt.bind LoadReply.await))
    (hr : Work.EndsReady prompt) (hs : Stack.Alike stack below) :
    Advances host (host.prompted program) ⟨.reply, work, .cons (.fetching load mode) stack⟩
      ⟨.reply, prompt, .cons (.fetching load mode) below⟩ session := by
  have hroused := (Work.unpaused_roused_bind work LoadReply.await).trans
    (h.trans (Work.unpaused_roused_bind prompt LoadReply.await).symm)
  rcases work.roused_cases with ⟨reply, hwork⟩ | ⟨request, next, hrequest, hwork⟩
  · rw [hwork] at hroused
    cases reply with
    | ready result =>
        rcases hr.roused_cases with ⟨found, hprompt⟩ | ⟨request, after, hrequest, hprompt, -⟩
        · rw [hprompt] at hroused
          cases hroused
          exact (advances_done hp (.frame hs) _).since (leads_of_roused hwork _)
            (leads_of_roused hprompt _)
        · rw [hprompt] at hroused
          cases hroused.trans
            (Work.unpaused_ask hrequest fun answer => (after answer).bind LoadReply.await)
    | pending rest =>
        cases mode with
        | immediate => exact .refused (leads_of_roused hwork _) rfl
        | suspendable =>
            have hrest := hroused.trans (Work.unpaused_roused_bind prompt LoadReply.await)
            refine (advances_awaiting hp hrest hr hs).since ?_ .refl
            exact (leads_of_roused hwork _).trans (.step .running .refl)
  · rw [hwork] at hroused
    have hask := (Work.unpaused_ask hrequest fun answer =>
      (next answer).bind LoadReply.await).symm.trans hroused
    rcases hr.roused_cases with ⟨found, hprompt⟩ | ⟨request', after, hrequest', hprompt, hready⟩
    · rw [hprompt] at hask
      cases hask
    · rw [hprompt] at hask
      have hboth := hask.trans
        (Work.unpaused_ask hrequest' fun answer => (after answer).bind LoadReply.await)
      injection hboth with hsame hnext
      subst hsame
      refine Advances.since ?_ (leads_of_roused hwork _) (leads_of_roused hprompt _)
      exact advances_request hrequest fun answer =>
        .fetching (congrFun (eq_of_heq hnext) answer) (hready answer) hs

/-- What is alike goes on alike, unless a synchronous load is refused. -/
theorem advances {focus twin : Focus σ H n} (h : Focus.Alike focus twin) :
    Advances host (host.prompted program) focus twin session := by
  cases h with
  | work h hs => exact advances_work hp h hs
  | fetching h hr hs => exact advances_fetching hp h hr hs
  | awaiting h hr hs => exact advances_awaiting hp h hr hs

end

end

/-! ## What it comes to -/

/-- Foci that stay related as they go on come to the same. -/
theorem comes_of_related {R : Focus σ H n → Focus σ H n → Session σ H → Prop}
    (hstep : ∀ {focus twin session}, R focus twin session →
      (∃ value last, Comes host focus session value last ∧ Comes other twin session value last) ∨
        ∃ next after later, LeadsOn host focus session next later ∧
          LeadsOn other twin session after later ∧ R next after later)
    (h : R focus twin session) {value : Value σ H n}
    (hc : Comes host focus session value last) : Comes other twin session value last := by
  -- The induction is on the steps that the first focus has left, since it may do several at a time.
  obtain ⟨steps, hsteps⟩ := comes_iff_finish.mp hc
  induction steps using Nat.strongRecOn generalizing focus twin session with
  | ind steps ih =>
      rcases hstep h with
        ⟨found, final, hfirst, hsecond⟩ | ⟨next, after, later, hon, hontwin, hnext⟩
      · obtain ⟨rfl, rfl⟩ := hfirst.unique hc
        exact hsecond
      · obtain ⟨left, hleft, hfinish⟩ := hon.finish hsteps
        have hlast := ih left hleft hnext (comes_iff_finish.mpr ⟨left, hfinish⟩) hfinish
        exact hontwin.leads.trans hlast

/-- No synchronous load is refused from here on. -/
def NeverRefuses (host : Host σ H) (focus : Focus σ H n) (session : Session σ H) : Prop :=
  ∀ next later, Leads host focus session next later → next.isRefused = false

/-- Whether a synchronous load is refused within a number of steps. -/
def refuses (host : Host σ H) : (steps : Nat) → Focus σ H n → Session σ H → Bool
  | 0, _, _ => false
  | steps + 1, focus, session =>
    focus.isRefused ||
      match session.step host focus with
      | (.running next, later) => refuses host steps next later
      | (.suspended next, later) => refuses host steps next later
      | (.finished _, _) => false

/-- If no load was refused when things are finished, none ever is. -/
theorem neverRefuses_of_finish {steps : Nat} {value : Value σ H n}
    (hf : session.finish host steps focus = (some value, last))
    (h : session.refuses host steps focus = false) : NeverRefuses host focus session := by
  induction steps generalizing focus session with
  | zero => cases hf
  | succ steps ih =>
      unfold refuses at h
      obtain ⟨hfocus, hrest⟩ := Bool.or_eq_false_iff.mp h
      intro next later hleads
      cases hleads with
      | refl => exact hfocus
      | step hgoes hleads =>
          unfold finish at hf
          generalize session.step host focus = result at hgoes hleads hf hrest
          obtain ⟨progress, after⟩ := result
          cases hgoes with
          | running => exact ih hf hrest next later hleads
          | suspended => exact ih hf hrest next later hleads

/-- What is alike comes to the same. -/
theorem comes_prompted_iff {program : H → String → LoadContext → PatientProgram σ H}
    (hp : host.IsPatient program) (ha : Focus.Alike focus twin)
    (hn : NeverRefuses host focus session) {value : Value σ H n} :
    Comes host focus session value last ↔
      Comes (host.prompted program) twin session value last := by
  -- What never refuses a load does not do so later either.
  have hadvances : ∀ {focus twin : Focus σ H n} {session : Session σ H},
      Focus.Alike focus twin ∧ NeverRefuses host focus session →
        (∃ value last, Comes host focus session value last ∧
          Comes (host.prompted program) twin session value last) ∨
        ∃ next after later, LeadsOn host focus session next later ∧
          LeadsOn (host.prompted program) twin session after later ∧
            Focus.Alike next after ∧ NeverRefuses host next later := by
    rintro focus twin session ⟨halike, hnever⟩
    have hnext : Advances host (host.prompted program) focus twin session := advances hp halike
    cases hnext with
    | ended h ht => exact .inl ⟨_, _, h, ht⟩
    | on h ht hnext =>
        exact .inr ⟨_, _, _, h, ht, hnext, fun _ _ hleads => hnever _ _ (h.leads.trans hleads)⟩
    | refused h hr => cases hr.symm.trans (hnever _ _ h)
  constructor
  · exact comes_of_related (R := fun focus twin session =>
      Focus.Alike focus twin ∧ NeverRefuses host focus session) hadvances ⟨ha, hn⟩
  · refine comes_of_related (R := fun twin focus session =>
      Focus.Alike focus twin ∧ NeverRefuses host focus session) (fun hrelated => ?_) ⟨ha, hn⟩
    rcases hadvances hrelated with ⟨value, last, h, ht⟩ | ⟨next, after, later, h, ht, hnext⟩
    · exact .inl ⟨value, last, ht, h⟩
    · exact .inr ⟨after, next, later, ht, h, hnext⟩

/-- An import comes to the same whether load hooks defer or not, unless a synchronous load that
is made meanwhile is refused. -/
theorem comes_startImport_prompted_iff {program : H → String → LoadContext → PatientProgram σ H}
    (hp : host.IsPatient program) {specifier : String} {base : Path}
    (hn : NeverRefuses host (session.startImport host specifier base).1
      (session.startImport host specifier base).2) {result : Value σ H .module} :
    Comes host (session.startImport host specifier base).1
        (session.startImport host specifier base).2 result last ↔
      Comes (host.prompted program) (session.startImport (host.prompted program) specifier base).1
        (session.startImport (host.prompted program) specifier base).2 result last :=
  comes_prompted_iff hp (.work rfl (.frame (.frame .nil))) hn

end Session

end ScriptModules
