import ScriptModules.Proofs.Loader.Requiring

/-!
# What it comes to that load hooks defer

In a patient chain, hooks may defer their replies as they like.  What the chain does, the log it
writes and the result it is awaited for are those of a chain in which every reply is there, and
an import comes to the same.  Only a require does not: it fails where the reply of its load hooks
is pending (`DefersFreely`).

None of the conditions can be left out (`not_defers_unnoticed`).  A hook that drops a pending
reply keeps the rest of the chain from being run.  A module that is imported may require another
one, and this fails if it would have to wait.  And a hook may hand the error on that says so.
-/

namespace ScriptModules

open Session (Comes Answers NeverRefuses Replies contextOf)

variable {σ H : Type}

/-- What it comes to that load hooks defer. -/
structure DefersFreely (σ H : Type) : Prop where
  /-- A log tells of a chain, and of what its reply is awaited for. -/
  told (load : H → String → LoadContext → LoadProgram σ H) (hooks : List (Nat × H))
    (last : NextLoad σ H) (url : String) (context : LoadContext) :
    (loadAwaitLogged load hooks last url context).erase =
      (dispatchLoad load hooks last url context).bind LoadReply.await
  /-- A patient chain asks for the same and notes the same as one whose hooks defer only if they
  have to: what is entered and gone on with, and what becomes of each result. -/
  logged {load : H → String → LoadContext → LoadProgram σ H}
    {program : H → String → LoadContext → PatientProgram σ H} {last : NextLoad σ H}
    {hooks : List (Nat × H)} (h : PatientChain load program last hooks) (url : String)
    (context : LoadContext) :
    LoadLogger.unpaused (loadAwaitLogged load hooks last url context) =
      LoadLogger.unpaused (loadAwaitLogged (prompts program) hooks last url context)
  /-- So the result is the same. -/
  awaited {load : H → String → LoadContext → LoadProgram σ H}
    {program : H → String → LoadContext → PatientProgram σ H} {last : NextLoad σ H}
    {hooks : List (Nat × H)} (h : PatientChain load program last hooks) (url : String)
    (context : LoadContext) :
    Work.unpaused ((dispatchLoad load hooks last url context).bind LoadReply.await) =
      Work.unpaused ((dispatchLoad (prompts program) hooks last url context).bind LoadReply.await)
  /-- In the other chain every reply is there, if it is at the end. -/
  prompt (program : H → String → LoadContext → PatientProgram σ H) (hooks : List (Nat × H))
    {last : NextLoad σ H} (hlast : ∀ url context, Work.EndsReady (last url context)) (url : String)
    (context : LoadContext) :
    Work.EndsReady (dispatchLoad (prompts program) hooks last url context)
  /-- An import comes to the same in both and leaves the same behind, if no synchronous load is
  refused meanwhile. -/
  imported {host : Host σ H} {program : H → String → LoadContext → PatientProgram σ H}
    (hp : host.IsPatient program) {session last : Session σ H} {specifier : String} {base : Path}
    (hn : NeverRefuses host (session.startImport host specifier base).1
      (session.startImport host specifier base).2) {result : Except ModuleError LoadedModule} :
    Comes host (session.startImport host specifier base).1
        (session.startImport host specifier base).2 (result : Value σ H .module) last ↔
      Comes (host.prompted program) (session.startImport (host.prompted program) specifier base).1
        (session.startImport (host.prompted program) specifier base).2 (result : Value σ H .module)
        last
  /-- A require fails because it cannot wait exactly if the reply of its load hooks is pending, or
  if its specifier resolves to that error, or the load hooks reply with it. -/
  required {host : Host σ H} {session : Session σ H} {specifier key : String} {base : Path} :
    (∃ last, Answers host session (.require specifier base)
        (.error (.deferred key) : Except ModuleError LoadedModule) last) ↔
      (∃ last, Comes host
        (session.entered.asking host specifier (contextOf (session.orderOf specifier base))).1
        (session.entered.asking host specifier (contextOf (session.orderOf specifier base))).2
        ((.error (.deferred key) : Except ModuleError Resolution) : Value σ H .resolution) last) ∨
      ∃ url reply, Replies host (session.orderOf specifier base) session.entered url reply ∧
        ((reply.isPending = true ∧ url = key) ∨ reply = .ready (.error (.deferred key)))

/-- Patient load hooks may defer as they like. -/
theorem defersFreely (σ H : Type) : DefersFreely σ H where
  told := erase_loadAwaitLogged
  logged h := h.unpaused_loadAwaitLogged (patientChain_prompts _ _ _)
  awaited h := h.unpaused_await_dispatchLoad (patientChain_prompts _ _ _)
  prompt program hooks _ hlast := endsReady_dispatchLoad program hooks hlast
  imported hp _ _ _ _ hn := Session.comes_startImport_prompted_iff hp hn
  required := Session.answers_deferred_iff

/-! ## Some hooks that defer -/

/-- A host with a hook that resolves and gives an empty script, and with hooks that pass on, at
once or after they have deferred their reply.  The module `a` requires the module `b`. -/
def waitingHost : Host Unit (Option Bool) where
  engine := "1"
  resolve _ specifier _ := .done (.ok ⟨specifier, some .script, true⟩)
  load
    | none, _, _ => .done (.ready (.ok ⟨.script, some [], true⟩))
    | some deferred, url, context => passLoad deferred url context
  compile source _ := .done (.ok source)
  execute _ id _ :=
    if id = "a" then
      .ask (.dependency "b") fun answer : Except ModuleError Handle =>
        .done ((answer.map fun _ => ()).mapError .loader)
    else .done (.ok ())

/-- What its load hooks do. -/
def waitingProgram : Option Bool → String → LoadContext → PatientProgram Unit (Option Bool)
  | none, _, _ => .done (.ok ⟨.script, some [], true⟩)
  | some _, url, context => .ask (.next url context) .done

theorem isPatient_waitingHost : waitingHost.IsPatient waitingProgram := by
  refine patientChain_of_patient fun gets hook url context => ?_
  cases hook with
  | none => exact .done _
  | some deferred => exact patient_passLoad deferred url context

/-- A loader with three load hooks, the second of which defers. -/
def waitingSession : Session Unit (Option Bool) where
  files := .empty
  exports := {}
  state := ()
  loader :=
    { config := {}
      resolver := .ofConfig {}
      hooks := { registrations :=
        [⟨3, { load := some (some false) }⟩, ⟨2, { load := some (some true) }⟩,
          ⟨1, { resolve := some none, load := some none }⟩] }
      registry := { maxSize := 1000 }
      cache := none }

/-- A module is imported. -/
def waitingImport (host : Host Unit (Option Bool)) (specifier : String) :
    Focus Unit (Option Bool) .module × Session Unit (Option Bool) :=
  waitingSession.startImport host specifier (.ofString "/")

/-- A module is imported where no reply is pending as it is where the second hook defers; there
it cannot be required. -/
theorem defersFreely_waitingHost :
    (∃ last, Answers waitingHost waitingSession (.require "m" (.ofString "/"))
        (.error (.deferred "m") : Except ModuleError LoadedModule) last) ∧
      (∃ last, Comes (waitingHost.prompted waitingProgram)
        (waitingImport (waitingHost.prompted waitingProgram) "m").1
        (waitingImport (waitingHost.prompted waitingProgram) "m").2
        ((.ok ("m", ⟨0⟩) : Except ModuleError LoadedModule) : Value Unit (Option Bool) .module)
        last) := by
  have hfreely := defersFreely Unit (Option Bool)
  have himported : ((waitingImport waitingHost "m").2.finish waitingHost 20
      (waitingImport waitingHost "m").1).1 =
        some (.ok ("m", ⟨0⟩) : Except ModuleError LoadedModule) := by rfl
  have hnever : NeverRefuses waitingHost (waitingImport waitingHost "m").1
      (waitingImport waitingHost "m").2 :=
    Session.neverRefuses_of_finish (Prod.ext himported rfl) (by decide +kernel)
  have hreply : Replies waitingHost (waitingSession.orderOf "m" (.ofString "/"))
      waitingSession.entered "m" _ :=
    .intro (Session.comes_done_iff.mpr ⟨rfl, rfl⟩) rfl rfl (Session.comes_done_iff.mpr ⟨rfl, rfl⟩)
  exact ⟨hfreely.required.mpr (.inr ⟨"m", _, hreply, .inl ⟨rfl, rfl⟩⟩),
    ⟨_, (hfreely.imported isPatient_waitingHost hnever).mp (Session.comes_of_finish himported)⟩⟩

/-! ## What may not be left out -/

/-- Chains do the same if each hook of one gives what its fellow of the other gives when it is
awaited. -/
def LogsTheSame (σ H : Type) : Prop :=
  ∀ load other : H → String → LoadContext → LoadProgram σ H,
    (∀ hook id url context next,
      (loadThrough id (load hook url context) next).bind LoadReply.await =
        (loadThrough id (other hook url context) next).bind LoadReply.await) →
    ∀ hooks last url context,
      LoadLogger.unpaused (loadAwaitLogged load hooks last url context) =
        LoadLogger.unpaused (loadAwaitLogged other hooks last url context)

/-- Imports come to the same if load hooks are patient, whatever they do meanwhile. -/
def ImportsTheSame (σ H : Type) : Prop :=
  ∀ (host : Host σ H) (program : H → String → LoadContext → PatientProgram σ H),
    host.IsPatient program → ∀ (session last : Session σ H) (specifier : String) (base : Path)
      (result : Except ModuleError LoadedModule),
      Comes host (session.startImport host specifier base).1
          (session.startImport host specifier base).2 (result : Value σ H .module) last ↔
        Comes (host.prompted program)
          (session.startImport (host.prompted program) specifier base).1
          (session.startImport (host.prompted program) specifier base).2
          (result : Value σ H .module) last

/-- Only a require whose reply is pending fails because it cannot wait. -/
def FailsOnlyIfPending (σ H : Type) : Prop :=
  ∀ (host : Host σ H) (session : Session σ H) (specifier key : String) (base : Path),
    (∃ last, Answers host session (.require specifier base)
      (.error (.deferred key) : Except ModuleError LoadedModule) last) →
    ∃ url reply, Replies host (session.orderOf specifier base) session.entered url reply ∧
      reply.isPending = true

/-- A hook that goes on and drops the reply. -/
def dropLoad (url : String) (context : LoadContext) : LoadProgram σ H :=
  .ask (.next url context) fun _ => .done (.ready (.ok ⟨.script, some [], false⟩))

/-- If a reply is dropped that the hook below has deferred, the default is never entered. -/
theorem not_logsTheSame : ¬ LogsTheSame Unit Bool := by
  intro hclaim
  have hawaited : ∀ (drops : Bool) (id : Nat) (url : String) (context : LoadContext)
      (next : NextLoad Unit Bool),
      (loadThrough id ((if drops then dropLoad else passLoad true) url context) next).bind
          LoadReply.await =
        (loadThrough id ((if drops then dropLoad else passLoad false) url context) next).bind
          LoadReply.await := by
    intro drops id url context next
    cases drops with
    | true => rfl
    | false =>
        exact (await_loadThrough_passLoad id true next url context).trans
          (await_loadThrough_passLoad id false next url context).symm
  have hlogs := hclaim (fun drops => if drops then dropLoad else passLoad true)
    (fun drops => if drops then dropLoad else passLoad false) hawaited [(2, true), (1, false)]
    loadDirectly "m" ⟨none, [], false⟩
  have herased := congrArg Program.erase hlogs
  unfold LoadLogger.unpaused at herased
  rw [Program.erase_skipping, Program.erase_skipping, erase_loadAwaitLogged,
    erase_loadAwaitLogged] at herased
  cases herased

/-- A module that is imported requires another one, which would have to wait. -/
theorem not_importsTheSame : ¬ ImportsTheSame Unit (Option Bool) := by
  intro hclaim
  have hprompt : ((waitingImport (waitingHost.prompted waitingProgram) "a").2.finish
      (waitingHost.prompted waitingProgram) 40
      (waitingImport (waitingHost.prompted waitingProgram) "a").1).1.map
      (fun result : Except ModuleError LoadedModule => result.toOption) =
        some (some ("a", ⟨0⟩)) := by
    decide +kernel
  have hfails : ((waitingImport waitingHost "a").2.finish waitingHost 40
      (waitingImport waitingHost "a").1).1.map
      (fun result : Except ModuleError LoadedModule => result.toOption) = some none := by
    decide +kernel
  obtain ⟨result, hresult, hnone⟩ := Option.map_eq_some_iff.mp hfails
  have hloaded := (hclaim waitingHost waitingProgram isPatient_waitingHost waitingSession _ "a"
    (.ofString "/") _).mpr (Session.comes_of_toOption hprompt)
  obtain ⟨rfl, -⟩ := (Session.comes_of_finish hresult).unique hloaded
  cases hnone

/-- A host whose load hooks say that another module could not be waited for. -/
def tellingHost : Host Unit (Option Bool) where
  engine := "1"
  resolve _ specifier _ := .done (.ok ⟨specifier, some .script, true⟩)
  load _ _ _ := .done (.ready (.error (.deferred "b")))
  compile source _ := .done (.ok source)
  execute _ _ _ := .done (.ok ())

theorem not_failsOnlyIfPending : ¬ FailsOnlyIfPending Unit (Option Bool) := by
  intro hclaim
  have hrequired : (waitingSession.answer tellingHost 20 (.require "m" (.ofString "/"))).1 =
      some (.error (.deferred "b") : Except ModuleError LoadedModule) := by rfl
  obtain ⟨url, reply, ⟨hresolved, hkey, hfree, hreply⟩, hpending⟩ :=
    hclaim tellingHost waitingSession "m" "b" (.ofString "/")
      ⟨_, Session.answers_of_eq hrequired⟩
  obtain ⟨hresolution, rfl⟩ := Session.comes_done_iff.mp hresolved
  cases hresolution
  cases hkey
  have hlater := congrArg Prod.snd hfree
  subst hlater
  obtain ⟨rfl, -⟩ := Session.comes_done_iff.mp hreply
  cases hpending

/-- That load hooks defer is noticed where one of them drops a reply, where a module that is
imported requires another one, and where one of them hands on that it could not wait. -/
theorem not_defers_unnoticed :
    ¬ LogsTheSame Unit Bool ∧ ¬ ImportsTheSame Unit (Option Bool) ∧
      ¬ FailsOnlyIfPending Unit (Option Bool) :=
  ⟨not_logsTheSame, not_importsTheSame, not_failsOnlyIfPending⟩

end ScriptModules
