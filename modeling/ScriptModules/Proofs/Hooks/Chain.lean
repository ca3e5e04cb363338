import ScriptModules.Hooks.Dispatch
import ScriptModules.Proofs.Hooks.Noted

/-!
# Chains of hooks that write a log

A chain of hooks is put together to one program, in which no hook is left.  Here it is put
together once more in the same way, and notes are written where a hook or the default is
entered, where a hook goes on, and where its result is checked.  Without its notes it is the
chain itself (`erase_resolveLogged`, `erase_loadLogged`).

An invocation is known by its path: at which of its requests to go on each hook above has led
there, the last one first.  The invocation of the newest hook has the empty path.
-/

namespace ScriptModules

variable {σ H α : Type}

/-- What is noted of a chain that is asked with arguments of one type and gives results of
another. -/
inductive ChainNote (A R : Type) where
  /-- A hook is entered, or the default if no hook is left. -/
  | entered (path : List Nat) (hook : Option Nat) (arguments : A)
  /-- A hook goes on; it has done so before as often as is said. -/
  | wentOn (path : List Nat) (index : Nat) (arguments : A)
  /-- What a hook has given, and what becomes of it. -/
  | ended (path : List Nat) (hook : Nat) (given result : Except ModuleError R)

/-- The invocation a note is about. -/
def ChainNote.path {A R : Type} : ChainNote A R → List Nat
  | .entered path .. | .wentOn path .. | .ended path .. => path

/-- What becomes of a result of a hook: it is accepted if the hook has gone on or says that it
need not. -/
def acceptResult {R : Type} (phase : Phase) (isShort : R → Bool) (hook : Nat) (called : Bool)
    (given : Except ModuleError R) : Except ModuleError R :=
  given.bind fun result =>
    if called || isShort result then .ok result else .error (.missingShortCircuit phase hook)

namespace Program

variable {I J : Interface} {N S T : Type}

/-- Programs that are replaced alike, with states that belong together. -/
theorem erase_expand (relate : S → T)
    {replace : (request : J.Request) → S → Program (I.noted N) (J.Answer request × S)}
    {plain : (request : J.Request) → T → Program I (J.Answer request × T)}
    (h : ∀ request state, ((replace request state).erase.bind fun answer =>
      .done (answer.1, relate answer.2)) = plain request (relate state))
    (program : Program J α) (state : S) :
    ((program.expand replace state).erase.bind fun result =>
      .done (result.1, relate result.2)) = program.expand plain (relate state) := by
  induction program generalizing state with
  | done result => rfl
  | ask request rest ih =>
      simp only [expand, erase_bind, bind_assoc, ih, ← h request state, done_bind]

end Program

open Program (write)

/-! ## Resolve hooks -/

abbrev ResolveNote := ChainNote (String × ResolveContext) Resolution

/-- Work that writes what is noted of a chain of resolve hooks. -/
abbrev ResolveLogger (σ H α : Type) :=
  Program ((workInterface σ H).noted ResolveNote) α

/-- The rest of a chain, for an invocation with a path. -/
abbrev NextResolveLogged (σ H : Type) :=
  List Nat → String → ResolveContext → ResolveLogger σ H (Except ModuleError Resolution)

/-- Answers a request of a resolve hook; notes whether it has gone on. -/
def answerResolve (next : NextResolve σ H) :
    (request : ResolveRequest σ H) → Bool → Work σ H (request.Answer × Bool)
  | .request request, called => (Work.request request).bind fun answer => .done (answer, called)
  | .next specifier context, _ =>
    (next specifier context).bind fun answer => .done (answer, true)

/-- Answers a request of a resolve hook, and counts how often it has gone on. -/
def answerResolveLogged (path : List Nat) (next : NextResolveLogged σ H) :
    (request : ResolveRequest σ H) → Nat → ResolveLogger σ H (request.Answer × Nat)
  | .request request, count =>
    (Work.request request).lift.bind fun answer => .done (answer, count)
  | .next specifier context, count =>
    (write (.wentOn path count (specifier, context))).bind fun _ =>
      (next (count :: path) specifier context).bind fun answer => .done (answer, count + 1)

/-- What becomes of what a resolve hook has given. -/
def acceptResolution (hook count : Nat) (given : Except ModuleError Resolution) :
    Except ModuleError Resolution :=
  acceptResult .resolve Resolution.shortCircuit hook (decide (0 < count)) given

/-- An invocation of a resolve hook. -/
def resolveThroughLogged (path : List Nat) (id : Nat) (hook : ResolveProgram σ H)
    (arguments : String × ResolveContext) (next : NextResolveLogged σ H) :
    ResolveLogger σ H (Except ModuleError Resolution) :=
  (write (.entered path (some id) arguments)).bind fun _ =>
    (hook.expand (answerResolveLogged path next) 0).bind fun (outcome, count) =>
      let given := outcome.mapError .ofHook
      (write (.ended path id given (acceptResolution id count given))).bind fun _ =>
        .done (acceptResolution id count given)

/-- A chain of resolve hooks. -/
def resolveLogged (program : H → String → ResolveContext → ResolveProgram σ H) :
    (hooks : List (Nat × H)) → (last : NextResolve σ H) → NextResolveLogged σ H
  | [], last => fun path specifier context =>
    (write (.entered path none (specifier, context))).bind fun _ => (last specifier context).lift
  | (id, hook) :: hooks, last => fun path specifier context =>
    resolveThroughLogged path id (program hook specifier context) (specifier, context)
      (resolveLogged program hooks last)

/-- What becomes of what a resolve hook has given is what the chain does with it. -/
theorem resolveThrough_eq (id : Nat) (hook : ResolveProgram σ H) (next : NextResolve σ H) :
    resolveThrough id hook next = (hook.expand (answerResolve next) false).bind fun outcome =>
      .done (acceptResult .resolve Resolution.shortCircuit id outcome.2
        (outcome.1.mapError .ofHook)) := by
  refine congrArg (Program.bind _) (funext fun outcome => ?_)
  obtain ⟨given, called⟩ := outcome
  cases given <;> rfl

theorem erase_resolveThroughLogged {next : NextResolve σ H} {logged : NextResolveLogged σ H}
    (h : ∀ path specifier context, (logged path specifier context).erase = next specifier context)
    (path : List Nat) (id : Nat) (hook : ResolveProgram σ H)
    (arguments : String × ResolveContext) :
    (resolveThroughLogged path id hook arguments logged).erase = resolveThrough id hook next := by
  have hanswer : ∀ (request : ResolveRequest σ H) (count : Nat),
      ((answerResolveLogged path logged request count).erase.bind fun answer =>
        .done (answer.1, decide (0 < answer.2))) =
      answerResolve next request (decide (0 < count)) := by
    intro request count
    cases request with
    | request request => simp [answerResolveLogged, answerResolve, Program.bind_assoc]
    | next specifier context =>
        simp [answerResolveLogged, answerResolve, Program.bind_assoc, h]
  have hexpand := Program.erase_expand (fun count => decide (0 < count)) hanswer hook 0
  rw [resolveThrough_eq, show false = decide (0 < 0) from rfl, ← hexpand]
  simp [resolveThroughLogged, acceptResolution, Program.bind_assoc]

/-- Without its notes a chain that writes a log is the chain itself. -/
theorem erase_resolveLogged (program : H → String → ResolveContext → ResolveProgram σ H)
    (hooks : List (Nat × H)) (last : NextResolve σ H) (path : List Nat) (specifier : String)
    (context : ResolveContext) :
    (resolveLogged program hooks last path specifier context).erase =
      dispatchResolve program hooks last specifier context := by
  induction hooks generalizing path specifier context with
  | nil => simp [resolveLogged, dispatchResolve]
  | cons hook hooks ih => exact erase_resolveThroughLogged ih path hook.1 _ _

/-! ## Load hooks -/

abbrev LoadNote := ChainNote (String × LoadContext) LoadOutput

/-- Work that writes what is noted of a chain of load hooks. -/
abbrev LoadLogger (σ H α : Type) :=
  Program ((workInterface σ H).noted LoadNote) α

/-- A reply of a chain.  What is noted of its rest is noted when it is awaited. -/
inductive LoggedReply (σ H : Type) where
  | ready (result : Except ModuleError LoadOutput)
  | pending (rest : LoadLogger σ H (Except ModuleError LoadOutput))

namespace LoggedReply

/-- The reply as hooks see it. -/
def erase : LoggedReply σ H → LoadReply σ H
  | .ready result => .ready result
  | .pending rest => .pending rest.erase

def await : LoggedReply σ H → LoadLogger σ H (Except ModuleError LoadOutput)
  | .ready result => .done result
  | .pending rest => rest

/-- A reply that is none of a hook. -/
def ofReply : LoadReply σ H → LoggedReply σ H
  | .ready result => .ready result
  | .pending rest => .pending rest.lift

@[simp] theorem erase_ofReply (reply : LoadReply σ H) : (ofReply reply).erase = reply := by
  cases reply with
  | ready result => rfl
  | pending rest => exact congrArg LoadReply.pending (Program.erase_lift rest)

@[simp] theorem erase_await (reply : LoggedReply σ H) : reply.await.erase = reply.erase.await := by
  cases reply <;> rfl

open Classical in
/-- Finds what has come as a certain reply.  A reply is awaited once only, so it is taken out;
one that has not come from the chain is a matter of the hook. -/
noncomputable def take (given : LoadReply σ H) :
    List (Nat × LoggedReply σ H) → LoggedReply σ H × List (Nat × LoggedReply σ H)
  | [] => (ofReply given, [])
  | (index, reply) :: replies =>
    if reply.erase = given then (reply, replies)
    else ((take given replies).1, (index, reply) :: (take given replies).2)

@[simp] theorem erase_take (given : LoadReply σ H) (replies : List (Nat × LoggedReply σ H)) :
    (take given replies).1.erase = given := by
  induction replies with
  | nil => exact erase_ofReply given
  | cons first replies ih =>
      unfold take
      split
      · assumption
      · exact ih

end LoggedReply

/-- The rest of a chain, for an invocation with a path. -/
abbrev NextLoadLogged (σ H : Type) :=
  List Nat → String → LoadContext → LoadLogger σ H (LoggedReply σ H)

/-- How often a load hook has gone on, and the replies it has not awaited, each with the
number of the request to go on that it came from. -/
structure LoadCalls (σ H : Type) where
  count : Nat := 0
  replies : List (Nat × LoggedReply σ H) := []

/-- Answers a request of a load hook. -/
def answerLoadLogged (path : List Nat) (next : NextLoadLogged σ H) :
    (request : LoadRequest σ H) → LoadCalls σ H →
      LoadLogger σ H (request.Answer × LoadCalls σ H)
  | .request request, calls =>
    (Work.request request).lift.bind fun answer => .done (answer, calls)
  | .next url context, calls =>
    (write (.wentOn path calls.count (url, context))).bind fun _ =>
      (next (calls.count :: path) url context).bind fun reply =>
        .done (reply.erase, ⟨calls.count + 1, (calls.count, reply) :: calls.replies⟩)

/-- Answers a request of a load hook that has deferred its reply. -/
noncomputable def answerDeferredLogged (path : List Nat) (next : NextLoadLogged σ H) :
    (request : DeferredRequest σ H) → LoadCalls σ H →
      LoadLogger σ H (request.Answer × LoadCalls σ H)
  | .hook request, calls => answerLoadLogged path next request calls
  | .await reply, calls =>
    (LoggedReply.take reply calls.replies).1.await.bind fun result =>
      .done (result, { calls with replies := (LoggedReply.take reply calls.replies).2 })
  | .pause, calls => .ask (.inl .pause) fun _ => .done ((), calls)

/-- What becomes of what a load hook has given. -/
def acceptOutput (hook count : Nat) (given : Except ModuleError LoadOutput) :
    Except ModuleError LoadOutput :=
  acceptResult .load LoadOutput.shortCircuit hook (decide (0 < count)) given

/-- Ends an invocation of a load hook. -/
def endLogged (path : List Nat) (id : Nat) (given : Except ModuleError LoadOutput)
    (calls : LoadCalls σ H) : LoadLogger σ H (Except ModuleError LoadOutput) :=
  (write (.ended path id given (acceptOutput id calls.count given))).bind fun _ =>
    .done (acceptOutput id calls.count given)

/-- An invocation of a load hook. -/
noncomputable def loadThroughLogged (path : List Nat) (id : Nat) (hook : LoadProgram σ H)
    (arguments : String × LoadContext) (next : NextLoadLogged σ H) :
    LoadLogger σ H (LoggedReply σ H) :=
  (write (.entered path (some id) arguments)).bind fun _ =>
    (hook.expand (answerLoadLogged path next) {}).bind fun
      | (.ready given, calls) =>
        (endLogged path id given calls).bind fun result => .done (.ready result)
      | (.deferred rest, calls) =>
        .done (.pending ((rest.expand (answerDeferredLogged path next) calls).bind
          fun outcome => endLogged path id outcome.1 outcome.2))

/-- A chain of load hooks. -/
noncomputable def loadLogged (program : H → String → LoadContext → LoadProgram σ H) :
    (hooks : List (Nat × H)) → (last : NextLoad σ H) → NextLoadLogged σ H
  | [], last => fun path url context =>
    (write (.entered path none (url, context))).bind fun _ =>
      (last url context).lift.bind fun reply => .done (.ofReply reply)
  | (id, hook) :: hooks, last => fun path url context =>
    loadThroughLogged path id (program hook url context) (url, context)
      (loadLogged program hooks last)

/-- A chain of load hooks, and then what its reply is awaited for. -/
noncomputable def loadAwaitLogged (program : H → String → LoadContext → LoadProgram σ H)
    (hooks : List (Nat × H)) (last : NextLoad σ H) (url : String) (context : LoadContext) :
    LoadLogger σ H (Except ModuleError LoadOutput) :=
  (loadLogged program hooks last [] url context).bind LoggedReply.await

section
variable {next : NextLoad σ H} {logged : NextLoadLogged σ H}

theorem erase_answerLoadLogged (h : ∀ path url context,
      ((logged path url context).erase.bind fun reply => .done reply.erase) = next url context)
    (path : List Nat) (request : LoadRequest σ H) (calls : LoadCalls σ H) :
    ((answerLoadLogged path logged request calls).erase.bind fun answer =>
      .done (answer.1, decide (0 < answer.2.count))) =
        answerLoad next request (decide (0 < calls.count)) := by
  cases request with
  | request request => simp [answerLoadLogged, answerLoad, Program.bind_assoc]
  | next url context =>
      simp [answerLoadLogged, answerLoad, Program.bind_assoc, ← h (calls.count :: path)]

theorem erase_answerDeferredLogged (h : ∀ path url context,
      ((logged path url context).erase.bind fun reply => .done reply.erase) = next url context)
    (path : List Nat) (request : DeferredRequest σ H) (calls : LoadCalls σ H) :
    ((answerDeferredLogged path logged request calls).erase.bind fun answer =>
      .done (answer.1, decide (0 < answer.2.count))) =
        answerDeferred next request (decide (0 < calls.count)) := by
  cases request with
  | hook request => exact erase_answerLoadLogged h path request calls
  | await reply => simp [answerDeferredLogged, answerDeferred, Program.bind_assoc]
  | pause => rfl

theorem erase_endLogged (path : List Nat) (id : Nat) (given : Except ModuleError LoadOutput)
    (calls : LoadCalls σ H) : (endLogged path id given calls).erase =
      .done (checkLoad id (decide (0 < calls.count)) given) := rfl

theorem erase_loadThroughLogged (h : ∀ path url context,
      ((logged path url context).erase.bind fun reply => .done reply.erase) = next url context)
    (path : List Nat) (id : Nat) (hook : LoadProgram σ H) (arguments : String × LoadContext) :
    ((loadThroughLogged path id hook arguments logged).erase.bind fun reply =>
      .done reply.erase) = loadThrough id hook next := by
  have hrest : ∀ (rest : DeferredProgram σ H) (calls : LoadCalls σ H),
      ((rest.expand (answerDeferredLogged path logged) calls).bind fun outcome =>
        endLogged path id outcome.1 outcome.2).erase =
      (rest.expand (answerDeferred next) (decide (0 < calls.count))).bind fun outcome =>
        .done (checkLoad id outcome.2 outcome.1) := by
    intro rest calls
    rw [← Program.erase_expand (fun calls : LoadCalls σ H => decide (0 < calls.count))
      (erase_answerDeferredLogged h path) rest calls]
    simp [Program.bind_assoc, erase_endLogged]
  have hexpand := Program.erase_expand (fun calls : LoadCalls σ H => decide (0 < calls.count))
    (erase_answerLoadLogged h path) hook {}
  have hnone : decide (0 < ({} : LoadCalls σ H).count) = false := rfl
  unfold loadThrough
  rw [← hnone, ← hexpand]
  simp only [loadThroughLogged, Program.erase_bind, Program.erase_write, Program.done_bind,
    Program.bind_assoc]
  refine congrArg (Program.bind _) (funext fun outcome => ?_)
  obtain ⟨given, calls⟩ := outcome
  cases given with
  | ready given => rfl
  | deferred rest =>
      exact congrArg (fun rest => Program.done (LoadReply.pending rest)) (hrest rest calls)

end

/-- Without its notes a chain that writes a log is the chain itself. -/
theorem erase_loadLogged (program : H → String → LoadContext → LoadProgram σ H)
    (hooks : List (Nat × H)) (last : NextLoad σ H) (path : List Nat) (url : String)
    (context : LoadContext) :
    ((loadLogged program hooks last path url context).erase.bind fun reply => .done reply.erase) =
      dispatchLoad program hooks last url context := by
  induction hooks generalizing path url context with
  | nil => simp [loadLogged, dispatchLoad, Program.bind_assoc]
  | cons hook hooks ih => exact erase_loadThroughLogged ih path hook.1 _ _

theorem erase_loadAwaitLogged (program : H → String → LoadContext → LoadProgram σ H)
    (hooks : List (Nat × H)) (last : NextLoad σ H) (url : String) (context : LoadContext) :
    (loadAwaitLogged program hooks last url context).erase =
      (dispatchLoad program hooks last url context).bind LoadReply.await := by
  rw [← erase_loadLogged program hooks last []]
  simp [loadAwaitLogged, Program.bind_assoc]

end ScriptModules
