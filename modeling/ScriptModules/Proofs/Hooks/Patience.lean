import ScriptModules.Proofs.Hooks.Passing

/-!
# Hooks that wait for replies

A load hook is *patient* if it makes no difference to it when a reply is there.  What it does can
then be said without any reply being deferred (`PatientProgram`).  It may defer its own reply when
it likes, before it goes on, afterwards or between.  Only when it has got a reply that is pending,
there is nothing else that it can do: it defers its own and awaits the other one before it does
anything (`Patient`, `Defers`).

A hook has to be patient with the replies that the rest of its chain can come to, and with no
others (`PatientChain`).  Then the chain does the same whichever of its hooks defer: it asks for
the same things in the same order, and writes the same log, up to pauses
(`PatientChain.unpaused_loadAwaitLogged`).

A hook that drops a pending reply is not patient, and then the rest of the chain is not run.
-/

namespace ScriptModules

variable {σ H α β : Type}

/-! ## Leaving requests out -/

namespace Program

variable {I : Interface} {N : Type}

/-- A program without the requests whose answers are known. -/
def skipping (known : (request : I.Request) → Option (I.Answer request)) :
    Program I α → Program I α
  | .done result => .done result
  | .ask request next =>
    match known request with
    | some answer => (next answer).skipping known
    | none => .ask request fun answer => (next answer).skipping known

/-- The answers to requests where notes are written, too. -/
def notedAnswer (known : (request : I.Request) → Option (I.Answer request)) :
    (request : (I.noted N).Request) → Option ((I.noted N).Answer request)
  | .inl request => known request
  | .inr _ => none

variable {known : (request : I.Request) → Option (I.Answer request)}

theorem skipping_some {request : I.Request} {answer : I.Answer request}
    (h : known request = some answer) (next : I.Answer request → Program I α) :
    (ask request next).skipping known = (next answer).skipping known := by
  simp only [skipping, h]

theorem skipping_none {request : I.Request} (h : known request = none)
    (next : I.Answer request → Program I α) :
    (ask request next).skipping known = ask request fun answer => (next answer).skipping known := by
  simp only [skipping, h]

theorem skipping_bind (program : Program I α) (next : α → Program I β) :
    (program.bind next).skipping known =
      (program.skipping known).bind fun result => (next result).skipping known := by
  induction program with
  | done result => rfl
  | ask request rest ih =>
      rw [bind]
      cases hknown : known request with
      | some answer => rw [skipping_some hknown, skipping_some hknown, ih]
      | none => rw [skipping_none hknown, skipping_none hknown, bind, funext ih]

/-- It is the same to leave out notes before or after. -/
theorem erase_skipping (program : Program (I.noted N) α) :
    (program.skipping (notedAnswer known)).erase = program.erase.skipping known := by
  induction program with
  | done result => rfl
  | ask request next ih =>
      cases request with
      | inl request =>
          cases hknown : known request with
          | some answer =>
              have hnoted : notedAnswer (N := N) known (.inl request) = some answer := hknown
              exact (congrArg erase (skipping_some (I := I.noted N) hnoted next)).trans
                ((ih answer).trans (skipping_some hknown fun answer => (next answer).erase).symm)
          | none =>
              have hnoted : notedAnswer (N := N) known (.inl request) = none := hknown
              exact (congrArg erase (skipping_none (I := I.noted N) hnoted next)).trans
                ((congrArg (ask request) (funext ih)).trans
                  (skipping_none hknown fun answer => (next answer).erase).symm)
      | inr note => exact ih ()

/-- A program can end with a result. -/
def CanEnd (program : Program I α) (result : α) : Prop :=
  ∃ exchanges, program.Leads exchanges (.done result)

theorem CanEnd.ask {request : I.Request} {next : I.Answer request → Program I α}
    {answer : I.Answer request} {result : α} (h : (next answer).CanEnd result) :
    (Program.ask request next).CanEnd result :=
  have ⟨_, hleads⟩ := h
  ⟨_, .ask hleads⟩

theorem CanEnd.erase {program : Program (I.noted N) α} {result : α} (h : program.CanEnd result) :
    program.erase.CanEnd result := by
  obtain ⟨exchanges, hleads⟩ := h
  generalize hleft : Program.done result = left at hleads
  induction hleads with
  | here program =>
      subst hleft
      exact ⟨[], .here _⟩
  | @ask request next answer _ _ _ ih =>
      cases request with
      | inl request => exact (ih hleft).ask
      | inr note => exact ih hleft

theorem CanEnd.bind_done {program : Program I α} {result : α} (h : program.CanEnd result)
    (f : α → β) : (program.bind fun result => .done (f result)).CanEnd (f result) := by
  obtain ⟨exchanges, hleads⟩ := h
  generalize hleft : Program.done result = left at hleads
  induction hleads with
  | here program =>
      subst hleft
      exact ⟨[], .here _⟩
  | ask _ ih => exact (ih hleft).ask

/-- What follows on a program matters for the results only that it can end with. -/
theorem skipping_bind_congr {program : Program I α} {next other : α → Program I β}
    (h : ∀ result, program.CanEnd result →
      (next result).skipping known = (other result).skipping known) :
    (program.bind next).skipping known = (program.bind other).skipping known := by
  induction program with
  | done result => exact h result ⟨[], .here _⟩
  | ask request rest ih =>
      have hrest : ∀ answer, ((rest answer).bind next).skipping known =
          ((rest answer).bind other).skipping known :=
        fun answer => ih answer fun result hresult => h result hresult.ask
      rw [bind, bind]
      cases hknown : known request with
      | some answer => rw [skipping_some hknown, skipping_some hknown, hrest]
      | none => rw [skipping_none hknown, skipping_none hknown, funext hrest]

theorem lift_bind (program : Program I α) (next : α → Program I β) :
    ((program.bind next).lift : Program (I.noted N) β) =
      program.lift.bind fun result => (next result).lift := by
  induction program with
  | done result => rfl
  | ask request rest ih => exact congrArg _ (funext ih)

end Program

/-- Pauses are answered by nothing. -/
def WorkRequest.pauseAnswer : (request : WorkRequest σ H) → Option request.Answer
  | .pause => some ()
  | _ => none

/-- Work without its pauses. -/
def Work.unpaused (work : Work σ H α) : Work σ H α :=
  work.skipping WorkRequest.pauseAnswer

/-- Work with its log, but without its pauses. -/
def LoadLogger.unpaused (work : LoadLogger σ H α) : LoadLogger σ H α :=
  work.skipping (Program.notedAnswer WorkRequest.pauseAnswer)

theorem LoadLogger.unpaused_bind (work : LoadLogger σ H α) (next : α → LoadLogger σ H β) :
    unpaused (work.bind next) = (unpaused work).bind fun result => unpaused (next result) :=
  Program.skipping_bind work next

/-- A reply that is there is taken for what it is. -/
theorem LoggedReply.await_take_ready (result : Except ModuleError LoadOutput)
    (replies : List (Nat × LoggedReply σ H)) :
    (take (.ready result) replies).1.await = .done result := by
  have herase := erase_take (.ready result) replies
  cases htake : (take (.ready result) replies).1 with
  | ready found =>
      rw [htake] at herase
      cases herase
      rfl
  | pending rest =>
      rw [htake] at herase
      cases herase

/-! ## Patient hooks -/

/-- A request of a hook that takes replies as results. -/
inductive PatientRequest (σ H : Type) where
  | request (request : Request σ H)
  /-- Go on. -/
  | next (url : String) (context : LoadContext)

/-- The kind of answer to a request of a patient hook. -/
def PatientRequest.Answer : PatientRequest σ H → Type
  | .request r => r.Answer
  | .next .. => Except ModuleError LoadOutput

/-- What a patient hook may ask for. -/
abbrev patientInterface (σ H : Type) : Interface :=
  ⟨PatientRequest σ H, PatientRequest.Answer⟩

/-- What a patient hook does, said without any reply being deferred. -/
abbrev PatientProgram (σ H : Type) :=
  Program (patientInterface σ H) (Except ModuleError LoadOutput)

/-- Where a patient hook is. -/
inductive PatientStage (σ H : Type) where
  /-- All of this is to be done. -/
  | doing (program : PatientProgram σ H)
  /-- It has got a reply, and goes on with its result. -/
  | holding (reply : LoadReply σ H) (next : Except ModuleError LoadOutput → PatientProgram σ H)

section
variable (gets : LoadReply σ H → Prop)

/-- A hook that has deferred its reply does what a patient one does, with every reply that it may
get. -/
inductive Defers : PatientStage σ H → DeferredProgram σ H → Prop where
  | done (result : Except ModuleError LoadOutput) : Defers (.doing (.done result)) (.done result)
  | request {request : Request σ H} {next : request.Answer → PatientProgram σ H}
      {rest : request.Answer → DeferredProgram σ H}
      (h : ∀ answer, Defers (.doing (next answer)) (rest answer)) :
      Defers (.doing (.ask (.request request) next)) (.ask (.hook (.request request)) rest)
  | next {url : String} {context : LoadContext}
      {next : Except ModuleError LoadOutput → PatientProgram σ H}
      {rest : LoadReply σ H → DeferredProgram σ H}
      (h : ∀ reply, gets reply → Defers (.holding reply next) (rest reply)) :
      Defers (.doing (.ask (.next url context) next)) (.ask (.hook (.next url context)) rest)
  /-- A result that is there need not be awaited. -/
  | ready {result : Except ModuleError LoadOutput}
      {next : Except ModuleError LoadOutput → PatientProgram σ H} {rest : DeferredProgram σ H}
      (h : Defers (.doing (next result)) rest) : Defers (.holding (.ready result) next) rest
  | await {reply : LoadReply σ H} {next : Except ModuleError LoadOutput → PatientProgram σ H}
      {rest : Except ModuleError LoadOutput → DeferredProgram σ H}
      (h : ∀ result, Defers (.doing (next result)) (rest result)) :
      Defers (.holding reply next) (.ask (.await reply) rest)
  | pause {stage : PatientStage σ H} {rest : Unit → DeferredProgram σ H}
      (h : Defers stage (rest ())) : Defers stage (.ask .pause rest)

/-- A load hook does what a patient one does.  It may defer its reply at every stage. -/
inductive Patient : PatientStage σ H → LoadProgram σ H → Prop where
  | done (result : Except ModuleError LoadOutput) :
      Patient (.doing (.done result)) (.done (.ready result))
  | request {request : Request σ H} {next : request.Answer → PatientProgram σ H}
      {rest : request.Answer → LoadProgram σ H}
      (h : ∀ answer, Patient (.doing (next answer)) (rest answer)) :
      Patient (.doing (.ask (.request request) next)) (.ask (.request request) rest)
  | next {url : String} {context : LoadContext}
      {next : Except ModuleError LoadOutput → PatientProgram σ H}
      {rest : LoadReply σ H → LoadProgram σ H}
      (h : ∀ reply, gets reply → Patient (.holding reply next) (rest reply)) :
      Patient (.doing (.ask (.next url context) next)) (.ask (.next url context) rest)
  | ready {result : Except ModuleError LoadOutput}
      {next : Except ModuleError LoadOutput → PatientProgram σ H} {rest : LoadProgram σ H}
      (h : Patient (.doing (next result)) rest) : Patient (.holding (.ready result) next) rest
  | defers {stage : PatientStage σ H} {rest : DeferredProgram σ H} (h : Defers gets stage rest) :
      Patient stage (.done (.deferred rest))

end

variable {gets : LoadReply σ H → Prop}

namespace PatientProgram

/-- Does all that is to be done after the reply is deferred. -/
def late : PatientProgram σ H → DeferredProgram σ H
  | .done result => .done result
  | .ask (.request request) next => .ask (.hook (.request request)) fun answer => late (next answer)
  | .ask (.next url context) next =>
    .ask (.hook (.next url context)) fun reply =>
      .ask (.await reply) fun result => late (next result)

/-- Goes on with a reply: at once if it is there. -/
def withReply (prompt : Except ModuleError LoadOutput → LoadProgram σ H)
    (late : Except ModuleError LoadOutput → DeferredProgram σ H) : LoadReply σ H → LoadProgram σ H
  | .ready result => prompt result
  | .pending rest => .done (.deferred (.ask (.await (.pending rest)) late))

/-- Never defers a reply, unless one that it has got is deferred. -/
def prompt : PatientProgram σ H → LoadProgram σ H
  | .done result => .done (.ready result)
  | .ask (.request request) next => .ask (.request request) fun answer => prompt (next answer)
  | .ask (.next url context) next =>
    .ask (.next url context)
      (withReply (fun result => prompt (next result)) fun result => late (next result))

theorem defers_late (program : PatientProgram σ H) :
    Defers gets (.doing program) (late program) := by
  induction program with
  | done result => exact .done result
  | ask request next ih =>
      cases request with
      | request request => exact .request ih
      | next url context => exact .next fun _ _ => .await ih

theorem patient_prompt (program : PatientProgram σ H) :
    Patient gets (.doing program) (prompt program) := by
  induction program with
  | done result => exact .done result
  | ask request next ih =>
      cases request with
      | request request => exact .request ih
      | next url context =>
          have hrest : ∀ reply : LoadReply σ H, Patient gets (.holding reply next)
              (withReply (fun result => prompt (next result)) (fun result => late (next result))
                reply) := by
            intro reply
            cases reply with
            | ready result => exact .ready (ih result)
            | pending rest => exact .defers (.await fun result => defers_late (next result))
          exact .next fun reply _ => hrest reply

end PatientProgram

/-- A hook that passes on is patient, also if it defers. -/
theorem patient_passLoad (deferred : Bool) (url : String) (context : LoadContext) :
    Patient gets (.doing (.ask (.next url context) .done))
      (passLoad deferred url context : LoadProgram σ H) := by
  cases deferred with
  | true => exact .defers (.next fun _ _ => .await fun result => .done result)
  | false =>
      refine .next fun reply _ => ?_
      cases reply with
      | ready result => exact .ready (.done result)
      | pending rest => exact .defers (.await fun result => .done result)

/-! ## What a patient chain does -/

/-- The rest of a patient chain, for an invocation with a path. -/
abbrev NextPatient (σ H : Type) :=
  List Nat → String → LoadContext → LoadLogger σ H (Except ModuleError LoadOutput)

/-- Answers a request of a patient hook, and counts how often it has gone on. -/
def answerPatient (path : List Nat) (next : NextPatient σ H) :
    (request : PatientRequest σ H) → Nat → LoadLogger σ H (request.Answer × Nat)
  | .request request, count =>
    (Work.request request).lift.bind fun answer => .done (answer, count)
  | .next url context, count =>
    (Program.write (.wentOn path count (url, context))).bind fun _ =>
      (next (count :: path) url context).bind fun result => .done (result, count + 1)

/-- What is left of an invocation of a patient hook that has gone on so often. -/
def patientRest (path : List Nat) (id : Nat) (next : NextPatient σ H) (program : PatientProgram σ H)
    (count : Nat) : LoadLogger σ H (Except ModuleError LoadOutput) :=
  (program.expand (answerPatient path next) count).bind fun outcome =>
    endLogged path id outcome.1 { count := outcome.2 }

/-- A chain of patient load hooks. -/
def patientLogged (program : H → String → LoadContext → PatientProgram σ H) :
    (hooks : List (Nat × H)) → (last : NextLoad σ H) → NextPatient σ H
  | [], last => fun path url context =>
    (Program.write (.entered path none (url, context))).bind fun _ =>
      ((last url context).bind LoadReply.await).lift
  | (id, hook) :: hooks, last => fun path url context =>
    (Program.write (.entered path (some id) (url, context))).bind fun _ =>
      patientRest path id (patientLogged program hooks last) (program hook url context) 0

section
variable {next : NextPatient σ H} {logged : NextLoadLogged σ H} {path : List Nat} {id : Nat}
  {stage : PatientStage σ H}

/-- What is left of an invocation at a stage, where replies may be held. -/
noncomputable def PatientStage.left (path : List Nat) (id : Nat) (next : NextPatient σ H)
    (calls : LoadCalls σ H) : PatientStage σ H → LoadLogger σ H (Except ModuleError LoadOutput)
  | .doing program => patientRest path id next program calls.count
  | .holding reply rest =>
    (LoggedReply.take reply calls.replies).1.await.bind fun result =>
      patientRest path id next (rest result) calls.count

/-- The rest of a chain does what that of a patient chain does, and gives certain replies only. -/
structure IsPatient (gets : LoadReply σ H → Prop) (logged : NextLoadLogged σ H)
    (next : NextPatient σ H) : Prop where
  unpaused_eq : ∀ path url context,
    LoadLogger.unpaused ((logged path url context).bind LoggedReply.await) =
      LoadLogger.unpaused (next path url context)
  gets : ∀ {path url context reply}, (logged path url context).CanEnd reply → gets reply.erase

/-- A hook that goes on does what it does at the next stage. -/
theorem IsPatient.wentOn (h : IsPatient gets logged next) {url : String} {context : LoadContext}
    {rest : Except ModuleError LoadOutput → PatientProgram σ H} {calls : LoadCalls σ H}
    {work : LoggedReply σ H → LoadLogger σ H (Except ModuleError LoadOutput)}
    (hrest : ∀ reply, gets reply.erase → LoadLogger.unpaused (work reply) =
      LoadLogger.unpaused ((PatientStage.holding reply.erase rest).left path id next
        ⟨calls.count + 1, (calls.count, reply) :: calls.replies⟩)) :
    LoadLogger.unpaused ((Program.write (.wentOn path calls.count (url, context))).bind fun _ =>
        (logged (calls.count :: path) url context).bind work) =
      LoadLogger.unpaused
        (patientRest path id next (.ask (.next url context) rest) calls.count) := by
  have hleft : ∀ reply, (logged (calls.count :: path) url context).CanEnd reply →
      LoadLogger.unpaused (work reply) = LoadLogger.unpaused (reply.await.bind fun result =>
        patientRest path id next (rest result) (calls.count + 1)) := by
    intro reply hreply
    rw [hrest reply (h.gets hreply), PatientStage.left, LoggedReply.take_self]
  have hwork : LoadLogger.unpaused ((logged (calls.count :: path) url context).bind work) =
      LoadLogger.unpaused ((next (calls.count :: path) url context).bind fun result =>
        patientRest path id next (rest result) (calls.count + 1)) := by
    refine (Program.skipping_bind_congr hleft).trans ?_
    show LoadLogger.unpaused _ = _
    rw [← Program.bind_assoc, LoadLogger.unpaused_bind, h.unpaused_eq, ← LoadLogger.unpaused_bind]
  have hpatient : patientRest path id next (.ask (.next url context) rest) calls.count =
      (Program.write (.wentOn path calls.count (url, context))).bind fun _ =>
        (next (calls.count :: path) url context).bind fun result =>
          patientRest path id next (rest result) (calls.count + 1) := by
    simp only [patientRest, Program.expand, answerPatient, Program.bind_assoc, Program.done_bind]
  rw [hpatient]
  exact congrArg (Program.ask _) (funext fun _ => hwork)

/-- What follows when a load hook has gone on. -/
theorem answerLoadLogged_bind (url : String) (context : LoadContext) (calls : LoadCalls σ H)
    (rest : LoadReply σ H × LoadCalls σ H → LoadLogger σ H α) :
    (answerLoadLogged path logged (.next url context) calls).bind rest =
      (Program.write (.wentOn path calls.count (url, context))).bind fun _ =>
        (logged (calls.count :: path) url context).bind fun reply =>
          rest (reply.erase, ⟨calls.count + 1, (calls.count, reply) :: calls.replies⟩) := by
  refine (Program.bind_assoc (Program.write (.wentOn path calls.count (url, context)))
    (fun _ => (logged (calls.count :: path) url context).bind fun reply =>
      .done (reply.erase, ⟨calls.count + 1, (calls.count, reply) :: calls.replies⟩)) rest).trans ?_
  exact congrArg _ (funext fun _ => Program.bind_assoc _ _ rest)

/-- After its reply is deferred, a patient hook does what is left. -/
theorem Defers.unpaused_eq {rest : DeferredProgram σ H} (hd : Defers gets stage rest)
    (h : IsPatient gets logged next) (calls : LoadCalls σ H) :
    LoadLogger.unpaused ((rest.expand (answerDeferredLogged path logged) calls).bind fun outcome =>
        endLogged path id outcome.1 outcome.2) =
      LoadLogger.unpaused (stage.left path id next calls) := by
  induction hd generalizing calls with
  | done result => rfl
  | @request request next rest _ ih =>
      exact congrArg (Program.ask (Sum.inl (WorkRequest.request request)))
        (funext fun answer => ih answer calls)
  | @next url context next rest _ ih =>
      have hexpand := Program.bind_assoc (answerLoadLogged path logged (.next url context) calls)
        (fun answer : LoadReply σ H × LoadCalls σ H =>
          (rest answer.1).expand (answerDeferredLogged path logged) answer.2)
        fun outcome => endLogged path id outcome.1 outcome.2
      refine (congrArg LoadLogger.unpaused (hexpand.trans (answerLoadLogged_bind ..))).trans ?_
      exact h.wentOn fun reply hreply => ih reply.erase hreply _
  | @ready result rest _ _ ih =>
      rw [ih, PatientStage.left, PatientStage.left, LoggedReply.await_take_ready]
      rfl
  | @await reply next rest _ ih =>
      have hassoc := Program.bind_assoc (LoggedReply.take reply calls.replies).1.await
        (fun result => .done
          (result, { calls with replies := (LoggedReply.take reply calls.replies).2 }))
        fun answer : Except ModuleError LoadOutput × LoadCalls σ H =>
          ((rest answer.1).expand (answerDeferredLogged path logged) answer.2).bind
            fun outcome => endLogged path id outcome.1 outcome.2
      refine (congrArg LoadLogger.unpaused ((Program.bind_assoc _ _ _).trans hassoc)).trans ?_
      rw [PatientStage.left, LoadLogger.unpaused_bind, LoadLogger.unpaused_bind]
      exact congrArg _ (funext fun result => ih result _)
  | pause _ ih => exact ih calls

/-- Ends an invocation of a load hook, or leaves the rest of it for when the reply is awaited. -/
noncomputable def endLoad (path : List Nat) (id : Nat) (logged : NextLoadLogged σ H) :
    LoadAnswer σ H × LoadCalls σ H → LoadLogger σ H (LoggedReply σ H)
  | (.ready given, calls) =>
    (endLogged path id given calls).bind fun result => .done (.ready result)
  | (.deferred rest, calls) =>
    .done (.pending ((rest.expand (answerDeferredLogged path logged) calls).bind
      fun outcome => endLogged path id outcome.1 outcome.2))

theorem loadThroughLogged_eq (hook : LoadProgram σ H) (arguments : String × LoadContext) :
    loadThroughLogged path id hook arguments logged =
      (Program.write (.entered path (some id) arguments)).bind fun _ =>
        (hook.expand (answerLoadLogged path logged) {}).bind (endLoad path id logged) := by
  refine congrArg (Program.bind _) (funext fun _ => congrArg (Program.bind _) (funext ?_))
  rintro ⟨answer, calls⟩
  cases answer <;> rfl

/-- As long as its reply is not deferred, a patient hook does what is left. -/
theorem Patient.unpaused_eq {hook : LoadProgram σ H} (hp : Patient gets stage hook)
    (h : IsPatient gets logged next) (calls : LoadCalls σ H) :
    LoadLogger.unpaused (((hook.expand (answerLoadLogged path logged) calls).bind
        (endLoad path id logged)).bind LoggedReply.await) =
      LoadLogger.unpaused (stage.left path id next calls) := by
  induction hp generalizing calls with
  | done result => rfl
  | @request request next rest _ ih =>
      exact congrArg (Program.ask (Sum.inl (WorkRequest.request request)))
        (funext fun answer => ih answer calls)
  | @next url context next rest _ ih =>
      rw [Program.bind_assoc]
      have hexpand := Program.bind_assoc (answerLoadLogged path logged (.next url context) calls)
        (fun answer : LoadReply σ H × LoadCalls σ H =>
          (rest answer.1).expand (answerLoadLogged path logged) answer.2)
        fun outcome => (endLoad path id logged outcome).bind LoggedReply.await
      refine (congrArg LoadLogger.unpaused (hexpand.trans (answerLoadLogged_bind ..))).trans ?_
      refine h.wentOn fun reply hreply => ?_
      rw [← Program.bind_assoc]
      exact ih reply.erase hreply _
  | @ready result rest _ _ ih =>
      rw [ih, PatientStage.left, PatientStage.left, LoggedReply.await_take_ready]
      rfl
  | defers hd => exact hd.unpaused_eq h calls

end

/-! ## Chains of patient hooks -/

/-- A reply that the rest of a chain can come to. -/
def NextLoad.CanGive (next : NextLoad σ H) (reply : LoadReply σ H) : Prop :=
  ∃ url context, (next url context).CanEnd reply

/-- The hooks of a chain are patient with the replies that they may get, and do what programs
say. -/
inductive PatientChain (load : H → String → LoadContext → LoadProgram σ H)
    (program : H → String → LoadContext → PatientProgram σ H) (last : NextLoad σ H) :
    List (Nat × H) → Prop where
  | nil : PatientChain load program last []
  | cons {hook : Nat × H} {hooks : List (Nat × H)}
      (h : ∀ url context, Patient (NextLoad.CanGive (dispatchLoad load hooks last))
        (.doing (program hook.2 url context)) (load hook.2 url context))
      (rest : PatientChain load program last hooks) : PatientChain load program last (hook :: hooks)

section
variable {load : H → String → LoadContext → LoadProgram σ H}
  {program : H → String → LoadContext → PatientProgram σ H} {last : NextLoad σ H}
  {hooks : List (Nat × H)}

/-- Hooks that are patient with every reply may stand in every chain. -/
theorem patientChain_of_patient
    (h : ∀ (gets : LoadReply σ H → Prop) (hook : H) (url : String) (context : LoadContext),
      Patient gets (.doing (program hook url context)) (load hook url context))
    (hooks : List (Nat × H)) : PatientChain load program last hooks := by
  induction hooks with
  | nil => exact .nil
  | cons hook hooks ih => exact .cons (h _ hook.2) ih

/-- Load hooks that do what programs say, and defer only if they have to. -/
def prompts (program : H → String → LoadContext → PatientProgram σ H) :
    H → String → LoadContext → LoadProgram σ H :=
  fun hook url context => (program hook url context).prompt

theorem patientChain_prompts (program : H → String → LoadContext → PatientProgram σ H)
    (last : NextLoad σ H) (hooks : List (Nat × H)) :
    PatientChain (prompts program) program last hooks :=
  patientChain_of_patient (fun _ _ _ _ => PatientProgram.patient_prompt _) hooks

/-- What a chain that writes a log can come to, it can come to without its notes. -/
theorem canGive_of_logged {path : List Nat} {url : String} {context : LoadContext}
    {reply : LoggedReply σ H} (h : (loadLogged load hooks last path url context).CanEnd reply) :
    NextLoad.CanGive (dispatchLoad load hooks last) reply.erase := by
  refine ⟨url, context, ?_⟩
  rw [← erase_loadLogged load hooks last path]
  exact h.erase.bind_done LoggedReply.erase

/-- A chain does what the programs of its hooks say, whichever of them defer. -/
theorem PatientChain.isPatient (h : PatientChain load program last hooks) :
    IsPatient (NextLoad.CanGive (dispatchLoad load hooks last)) (loadLogged load hooks last)
      (patientLogged program hooks last) := by
  refine ⟨?_, canGive_of_logged⟩
  induction h with
  | nil =>
      intro path url context
      have hlast : ((last url context).lift.bind fun reply =>
          .done (LoggedReply.ofReply reply)).bind LoggedReply.await =
            ((last url context).bind LoadReply.await).lift := by
        rw [Program.bind_assoc, Program.lift_bind]
        exact congrArg _ (funext LoggedReply.await_ofReply)
      exact congrArg (fun work => LoadLogger.unpaused (Program.ask (Sum.inr _) fun _ => work)) hlast
  | @cons hook hooks h _ ih =>
      intro path url context
      show LoadLogger.unpaused ((loadThroughLogged path hook.1 (load hook.2 url context)
        (url, context) (loadLogged load hooks last)).bind LoggedReply.await) = _
      rw [loadThroughLogged_eq]
      exact congrArg (Program.ask _)
        (funext fun _ => (h url context).unpaused_eq ⟨ih, canGive_of_logged⟩ {})

variable {other : H → String → LoadContext → LoadProgram σ H}
  (h : PatientChain load program last hooks) (ho : PatientChain other program last hooks)
  (url : String) (context : LoadContext)
include h ho

/-- Whichever hooks of a patient chain defer, the chain does the same and writes the same log. -/
theorem PatientChain.unpaused_loadAwaitLogged :
    LoadLogger.unpaused (loadAwaitLogged load hooks last url context) =
      LoadLogger.unpaused (loadAwaitLogged other hooks last url context) :=
  (h.isPatient.unpaused_eq [] url context).trans (ho.isPatient.unpaused_eq [] url context).symm

theorem PatientChain.unpaused_await_dispatchLoad :
    Work.unpaused ((dispatchLoad load hooks last url context).bind LoadReply.await) =
      Work.unpaused ((dispatchLoad other hooks last url context).bind LoadReply.await) := by
  have hlogs := congrArg Program.erase (h.unpaused_loadAwaitLogged ho url context)
  unfold LoadLogger.unpaused at hlogs
  rw [Program.erase_skipping, Program.erase_skipping, erase_loadAwaitLogged,
    erase_loadAwaitLogged] at hlogs
  exact hlogs

end

end ScriptModules
