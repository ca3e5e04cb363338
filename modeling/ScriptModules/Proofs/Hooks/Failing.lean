import ScriptModules.Proofs.Hooks.Passing

/-!
# Failures of hooks

A hook that fails, or the default, has hooks above it that asked for it.  When each of them hands
the error on, it comes out of the chain as it went in: an error of the loader as it is, and what
a hook has raised of its own in one wrapping, however many hooks there are
(`handsFailuresOn`).  Each level turns the error into a failure and back again, and that comes to
nothing for an error of the loader (`ModuleError.ofHook_loader`).  So the one wrapping is the one
that the failing hook's own level has put around it (`ModuleError.ofHook_of_isOwn`).

Where a failure comes from is noted in a log, as for the order of hooks, but with less in it: the
stages of the chain that are entered, and their failures.  Stages are counted from the newest
hook, and the default is the last one.
-/

namespace ScriptModules

variable {I : Interface} {σ H N α β : Type}

/-! ## Errors -/

/-- A failure that no error of the loader is part of. -/
inductive Failure.IsOwn : Failure → Prop where
  | message (text : String) : IsOwn (.message text)
  | context (text : String) {cause : Failure} (h : IsOwn cause) : IsOwn (.context text cause)

theorem Failure.IsOwn.loaderError? {failure : Failure} (h : failure.IsOwn) :
    failure.loaderError? = none := by
  induction h with
  | message text => rfl
  | context text h ih => exact ih

/-- A failure is a hook's own, or there is an error of the loader at the bottom of it. -/
theorem Failure.isOwn_or_loaderError? :
    (failure : Failure) → failure.IsOwn ∨ ∃ error, failure.loaderError? = some error
  | .message text => .inl (.message text)
  | .context text cause => cause.isOwn_or_loaderError?.imp_left (.context text)
  | .loader error => .inr ⟨error, rfl⟩

/-- What a hook raises of its own is wrapped. -/
theorem ModuleError.ofHook_of_isOwn {failure : Failure} (h : failure.IsOwn) :
    ofHook failure = .hook failure := by
  unfold ofHook
  rw [h.loaderError?]
  rfl

/-- Of anything else the error of the loader comes out. -/
theorem ModuleError.loaderError?_eq_ofHook {failure : Failure} (h : ¬ failure.IsOwn) :
    failure.loaderError? = some (ofHook failure) := by
  obtain ⟨error, herror⟩ := failure.isOwn_or_loaderError?.resolve_left h
  unfold ofHook
  rw [herror]
  rfl

/-- An error of the loader is not wrapped, be it the wrapped failure of another hook. -/
@[simp] theorem ModuleError.ofHook_loader (error : ModuleError) : ofHook (.loader error) = error :=
  rfl

/-- A resolve hook hands errors on: when it has gone on to an error, it ends with that. -/
def HandsOn : ResolveProgram σ H → Prop
  | .done _ => True
  | .ask (.request _) rest => ∀ answer, HandsOn (rest answer)
  | .ask (.next _ _) rest =>
    (∀ error, rest (.error error) = .done (.error (.loader error))) ∧
      ∀ resolution, HandsOn (rest (.ok resolution))

theorem HandsOn.answered {specifier : String} {context : ResolveContext}
    {rest : Except ModuleError Resolution → ResolveProgram σ H}
    (h : HandsOn (.ask (.next specifier context) rest)) (answer : Except ModuleError Resolution) :
    HandsOn (rest answer) := by
  cases answer with
  | error error =>
      rw [h.1 error]
      trivial
  | ok resolution => exact h.2 resolution

/-- A hook that passes on hands errors on. -/
theorem handsOn_passResolve (specifier : String) (context : ResolveContext) :
    HandsOn (passResolve specifier context : ResolveProgram σ H) :=
  ⟨fun _ => rfl, fun _ => trivial⟩

/-! ## What is left after a note -/

namespace Program

/-- A run of a program with notes is one of the program without them. -/
theorem Runs.leads {program left : Program (I.noted N) α} {exchanges : List (Exchange I)}
    {log : List N} (h : program.Runs exchanges log left) :
    program.erase.Leads exchanges left.erase := by
  induction h with
  | here program => exact .here _
  | ask h ih => exact .ask ih
  | note h ih => exact ih

/-- Whatever the answers, what is left after each note is as it should be. -/
def Ensures (p : N → Program (I.noted N) α → Prop) : Program (I.noted N) α → Prop
  | .done _ => True
  | .ask (.inl _) next => ∀ answer, (next answer).Ensures p
  | .ask (.inr note) next => p note (next ()) ∧ (next ()).Ensures p

/-- A program has nothing left to do but to write notes of some kind, and ends with a result. -/
inductive OnlyNotes (allowed : N → Prop) (result : α) : Program (I.noted N) α → Prop where
  | done : OnlyNotes allowed result (.done result)
  | note {note : N} {next : Unit → Program (I.noted N) α} (hn : allowed note)
      (h : OnlyNotes allowed result (next ())) : OnlyNotes allowed result (.ask (.inr note) next)

variable {p : N → Program (I.noted N) α → Prop} {q : N → Program (I.noted N) β → Prop}
  {allowed : N → Prop} {result : α}

theorem ensures_lift (program : Program I α) :
    (program.lift : Program (I.noted N) α).Ensures p := by
  induction program with
  | done result => trivial
  | ask request next ih => exact ih

theorem Ensures.bind {program : Program (I.noted N) α} {next : α → Program (I.noted N) β}
    (h : program.Ensures p) (hp : ∀ note rest, p note rest → q note (rest.bind next))
    (hnext : ∀ result, (next result).Ensures q) : (program.bind next).Ensures q := by
  induction program with
  | done result => exact hnext result
  | ask request rest ih =>
      cases request with
      | inl request => exact fun answer => ih answer (h answer)
      | inr note => exact ⟨hp note _ h.1, ih () h.2⟩

/-- In a run, what is left has been left after each note of the log. -/
theorem Ensures.runs {program left : Program (I.noted N) α} {exchanges : List (Exchange I)}
    {before after : List N} {note : N} (h : program.Ensures p)
    (hruns : program.Runs exchanges (before ++ note :: after) left) :
    ∃ rest later, p note rest ∧ rest.Runs later after left := by
  generalize hlog : before ++ note :: after = log at hruns
  induction hruns generalizing before with
  | here program => cases before <;> cases hlog
  | ask hruns ih => exact ih (h _) hlog
  | note hruns ih =>
      cases before with
      | nil =>
          cases hlog
          exact ⟨_, _, h.1, hruns⟩
      | cons first before =>
          cases hlog
          exact ih h.2 rfl

theorem OnlyNotes.bind {program : Program (I.noted N) α} {next : α → Program (I.noted N) β}
    {last : β} (h : program.OnlyNotes allowed result)
    (hnext : (next result).OnlyNotes allowed last) : (program.bind next).OnlyNotes allowed last := by
  induction h with
  | done => exact hnext
  | note hn h ih => exact .note hn ih

/-- Nothing is done any more. -/
theorem OnlyNotes.erase {program : Program (I.noted N) α} (h : program.OnlyNotes allowed result) :
    program.erase = .done result := by
  induction h with
  | done => rfl
  | note hn h ih => exact ih

theorem OnlyNotes.runs {program left : Program (I.noted N) α} {exchanges : List (Exchange I)}
    {log : List N} (h : program.OnlyNotes allowed result)
    (hruns : program.Runs exchanges log left) :
    (∀ note ∈ log, allowed note) ∧ left.OnlyNotes allowed result := by
  induction hruns with
  | here program => exact ⟨fun _ hnote => (nomatch hnote), h⟩
  | ask hruns ih => cases h
  | note hruns ih =>
      cases h with
      | note hn h =>
          obtain ⟨hlog, hleft⟩ := ih h
          exact ⟨List.forall_mem_cons.mpr ⟨hn, hlog⟩, hleft⟩

end Program

open Program (write)

/-! ## Chains that note their failures -/

/-- What is noted of a chain: a stage of it is entered, or fails. -/
inductive StageNote where
  | entered (stage : Nat)
  | failed (stage : Nat) (failure : Failure)

/-- Work that writes what is noted of the stages of a chain. -/
abbrev StageLogger (σ H α : Type) :=
  Program ((workInterface σ H).noted StageNote) α

/-- The rest of a chain, from a stage on. -/
abbrev NextResolveStaged (σ H : Type) :=
  String → ResolveContext → StageLogger σ H (Except ModuleError Resolution)

/-- Answers a request of a resolve hook; knows whether it has gone on. -/
def answerStaged (next : NextResolveStaged σ H) :
    (request : ResolveRequest σ H) → Bool → StageLogger σ H (request.Answer × Bool)
  | .request request, called => (Work.request request).lift.bind fun answer => .done (answer, called)
  | .next specifier context, _ =>
    (next specifier context).bind fun answer => .done (answer, true)

/-- Ends a stage.  A failure is noted, and what leaves the stage is the error it leads to. -/
def endStage (stage : Nat) :
    Except Failure Resolution → StageLogger σ H (Except ModuleError Resolution)
  | .ok resolution => .done (.ok resolution)
  | .error failure =>
    (write (.failed stage failure)).bind fun _ => .done (.error (.ofHook failure))

/-- What a hook ends with; a result that does not count is a failure, too. -/
def countResolution (id : Nat) (called : Bool) (given : Except Failure Resolution) :
    Except Failure Resolution :=
  given.bind fun resolution =>
    if called || resolution.shortCircuit then .ok resolution
    else .error (.loader (.missingShortCircuit .resolve id))

/-- A chain of resolve hooks, from a stage on. -/
def resolveStaged (program : H → String → ResolveContext → ResolveProgram σ H)
    (last : NextResolve σ H) : (hooks : List (Nat × H)) → (stage : Nat) → NextResolveStaged σ H
  | [], stage => fun specifier context =>
    (write (.entered stage)).bind fun _ =>
      (last specifier context).lift.bind fun answer => endStage stage (answer.mapError .loader)
  | (id, hook) :: hooks, stage => fun specifier context =>
    (write (.entered stage)).bind fun _ =>
      ((program hook specifier context).expand
        (answerStaged (resolveStaged program last hooks (stage + 1))) false).bind fun outcome =>
          endStage stage (countResolution id outcome.2 outcome.1)

section
variable {program : H → String → ResolveContext → ResolveProgram σ H} {last : NextResolve σ H}
  {hooks : List (Nat × H)} {id base : Nat} {hook : H} {specifier : String}
  {context : ResolveContext}

theorem erase_endStage (stage : Nat) (outcome : Except Failure Resolution) :
    (endStage stage outcome : StageLogger σ H _).erase = .done (outcome.mapError .ofHook) := by
  cases outcome <;> rfl

theorem mapError_countResolution (id : Nat) (called : Bool) (given : Except Failure Resolution) :
    (countResolution id called given).mapError .ofHook =
      acceptResult .resolve Resolution.shortCircuit id called (given.mapError .ofHook) := by
  cases given with
  | error failure => rfl
  | ok resolution =>
      have hleft : countResolution id called (.ok resolution) =
          if called || resolution.shortCircuit then .ok resolution
          else .error (.loader (.missingShortCircuit .resolve id)) := rfl
      have hright : acceptResult .resolve Resolution.shortCircuit id called (.ok resolution) =
          if called || resolution.shortCircuit then .ok resolution
          else .error (.missingShortCircuit .resolve id) := rfl
      rw [hleft]
      refine Eq.trans ?_ hright.symm
      split <;> rfl

/-- Without its notes a chain that notes its failures is the chain itself. -/
theorem erase_resolveStaged (program : H → String → ResolveContext → ResolveProgram σ H)
    (last : NextResolve σ H) (hooks : List (Nat × H)) (stage : Nat) (specifier : String)
    (context : ResolveContext) : (resolveStaged program last hooks stage specifier context).erase =
      dispatchResolve program hooks last specifier context := by
  induction hooks generalizing stage specifier context with
  | nil => simp [resolveStaged, erase_endStage, dispatchResolve]
  | cons hook hooks ih =>
      have hanswer : ∀ (request : ResolveRequest σ H) (called : Bool),
          ((answerStaged (resolveStaged program last hooks (stage + 1)) request called).erase.bind
            fun answer => .done (answer.1, answer.2)) =
          answerResolve (dispatchResolve program hooks last) request called := by
        intro request called
        cases request with
        | request request => simp [answerStaged, answerResolve, Program.bind_assoc]
        | next specifier context => simp [answerStaged, answerResolve, Program.bind_assoc, ih]
      have hexpand := Program.erase_expand (fun called : Bool => called) hanswer
        (program hook.2 specifier context) false
      show _ = resolveThrough hook.1 (program hook.2 specifier context)
        (dispatchResolve program hooks last)
      rw [resolveThrough_eq, ← hexpand]
      simp [resolveStaged, erase_endStage, mapError_countResolution, Program.bind_assoc]

/-! ## One failure -/

/-- All hooks of a list hand errors on, whatever they are asked. -/
def AllHandOn (program : H → String → ResolveContext → ResolveProgram σ H)
    (hooks : List (Nat × H)) : Prop :=
  ∀ hook ∈ hooks, ∀ specifier context, HandsOn (program hook.2 specifier context)

/-- A note that an error is handed on by a stage above another one. -/
def StageNote.IsHandedOn (error : ModuleError) (below : Nat) (note : StageNote) : Prop :=
  ∃ stage < below, note = .failed stage (.loader error)

/-- What is left of a chain after a failure, if the hooks above hand it on: the error comes out,
and all that is noted is that it is handed on. -/
def FallsThrough (program : H → String → ResolveContext → ResolveProgram σ H)
    (hooks : List (Nat × H)) (base : Nat) (note : StageNote)
    (rest : StageLogger σ H (Except ModuleError Resolution)) : Prop :=
  ∀ stage failure, note = .failed stage failure → base ≤ stage ∧
    (AllHandOn program (hooks.take (stage - base)) →
      rest.OnlyNotes (StageNote.IsHandedOn (.ofHook failure) stage)
        (.error (.ofHook failure)))

theorem ensures_endStage (stage : Nat) (outcome : Except Failure Resolution) :
    (endStage stage outcome).Ensures (FallsThrough program hooks stage) := by
  cases outcome with
  | ok resolution => trivial
  | error failure =>
      refine ⟨?_, trivial⟩
      rintro _ _ ⟨⟩
      exact ⟨Nat.le_refl stage, fun _ => .done⟩

/-- An error that comes out of the rest of a chain goes through the hook above. -/
theorem FallsThrough.handedOn {note : StageNote}
    {left : StageLogger σ H (Except ModuleError Resolution)}
    {rest : Except ModuleError Resolution → ResolveProgram σ H}
    (h : FallsThrough program hooks (base + 1) note left)
    (hrest : (∀ specifier context, HandsOn (program hook specifier context)) →
      HandsOn (.ask (.next specifier context) rest)) :
    FallsThrough program ((id, hook) :: hooks) base note (left.bind fun answer =>
      ((rest answer).expand (answerStaged (resolveStaged program last hooks (base + 1))) true).bind
        fun outcome => endStage base (countResolution id outcome.2 outcome.1)) := by
  intro stage failure hnote
  obtain ⟨hstage, hleft⟩ := h stage failure hnote
  refine ⟨Nat.le_of_succ_le hstage, fun hhands => ?_⟩
  rw [show stage - base = stage - (base + 1) + 1 by omega, List.take_succ_cons] at hhands
  obtain ⟨hhook, hhooks⟩ := List.forall_mem_cons.mp hhands
  refine (hleft hhooks).bind ?_
  rw [(hrest hhook).1]
  exact .note ⟨base, hstage, rfl⟩ .done

/-- Failures in an invocation of a hook, and on behalf of it.  The induction is on what the hook
has left to do. -/
theorem ensures_invocation (hrest : ∀ specifier context,
      (resolveStaged program last hooks (base + 1) specifier context).Ensures
        (FallsThrough program hooks (base + 1)))
    (left : ResolveProgram σ H) (called : Bool)
    (hleft : (∀ specifier context, HandsOn (program hook specifier context)) → HandsOn left) :
    ((left.expand (answerStaged (resolveStaged program last hooks (base + 1))) called).bind
      fun outcome => endStage base (countResolution id outcome.2 outcome.1)).Ensures
        (FallsThrough program ((id, hook) :: hooks) base) := by
  induction left generalizing called with
  | done outcome => exact ensures_endStage base _
  | ask request rest ih =>
      rw [Program.expand, Program.bind_assoc]
      cases request with
      | request request =>
          rw [answerStaged, Program.bind_assoc]
          refine (Program.ensures_lift (p := fun _ _ => False) _).bind
            (fun _ _ hnever => hnever.elim) fun answer => ?_
          exact ih answer called fun hhands => hleft hhands answer
      | next specifier context =>
          rw [answerStaged, Program.bind_assoc]
          refine (hrest specifier context).bind (fun note left h => h.handedOn hleft)
            fun answer => ?_
          exact ih answer true fun hhands => (hleft hhands).answered answer

/-- Whatever fails in a chain, the error falls through the hooks above that hand it on. -/
theorem ensures_resolveStaged (program : H → String → ResolveContext → ResolveProgram σ H)
    (last : NextResolve σ H) (hooks : List (Nat × H)) (base : Nat) (specifier : String)
    (context : ResolveContext) : (resolveStaged program last hooks base specifier context).Ensures
      (FallsThrough program hooks base) := by
  induction hooks generalizing base specifier context with
  | nil =>
      refine ⟨nofun, ?_⟩
      exact (Program.ensures_lift (p := fun _ _ => False) _).bind
        (fun _ _ hnever => hnever.elim) fun answer => ensures_endStage base _
  | cons hook hooks ih =>
      refine ⟨nofun, ?_⟩
      exact ensures_invocation (ih (base + 1)) _ false fun hhands => hhands specifier context

/-! ## Failures that come out -/

/-- A log ends with the failure of a stage that leads to an error. -/
def EndsInFailure (stage : Nat) (error : ModuleError) (log : List StageNote) : Prop :=
  ∃ before failure, log = before ++ [.failed stage failure] ∧ .ofHook failure = error

theorem safe_endStage (stage : Nat) (outcome : Except Failure Resolution) (log : List StageNote) :
    (endStage stage outcome : StageLogger σ H _).Safe (fun _ _ => True)
      (fun result after => ∀ error, result = .error error → EndsInFailure stage error after)
      log := by
  cases outcome with
  | ok resolution => exact nofun
  | error failure =>
      refine ⟨trivial, ?_⟩
      rintro _ ⟨⟩
      exact ⟨log, failure, rfl, rfl⟩

/-- An error comes out of a chain only as the newest hook fails with it, or the default where
there is no hook. -/
theorem safe_resolveStaged (program : H → String → ResolveContext → ResolveProgram σ H)
    (last : NextResolve σ H) (hooks : List (Nat × H)) (stage : Nat) (specifier : String)
    (context : ResolveContext) (log : List StageNote) :
    (resolveStaged program last hooks stage specifier context).Safe (fun _ _ => True)
      (fun result after => ∀ error, result = .error error → EndsInFailure stage error after)
      log := by
  induction hooks generalizing stage specifier context log with
  | nil =>
      refine Program.Safe.write_bind trivial (Program.Safe.bind (Program.safe_lift fun answer => ?_))
      exact safe_endStage stage _ _
  | cons hook hooks ih =>
      have hanswer : ∀ (request : ResolveRequest σ H) (called : Bool) (log : List StageNote), True →
          (answerStaged (resolveStaged program last hooks (stage + 1)) request called).Safe
            (fun _ _ => True) (fun _ _ => True) log := by
        intro request called log _
        cases request with
        | request request => exact Program.Safe.bind (Program.safe_lift fun answer => trivial)
        | next specifier context =>
            exact Program.Safe.bind ((ih _ _ _ log).mono fun answer after _ => trivial)
      refine Program.Safe.write_bind trivial (Program.Safe.bind ?_)
      refine (Program.Safe.expand (fun _ _ => True) hanswer _ trivial).mono fun outcome after _ => ?_
      exact safe_endStage stage _ _

/-- After a failure that the hooks above hand on nothing is left to do, and the error that the
failure leads to comes out. -/
theorem ends_of_failed {stage : Nat} {failure : Failure}
    {exchanges : List (Exchange (workInterface σ H))} {before after : List StageNote}
    {left : StageLogger σ H (Except ModuleError Resolution)}
    (hhands : AllHandOn program (hooks.take stage))
    (hruns : (resolveStaged program last hooks 0 specifier context).Runs exchanges
      (before ++ .failed stage failure :: after) left) :
    (dispatchResolve program hooks last specifier context).Leads exchanges
        (.done (.error (.ofHook failure))) ∧
      left.erase = .done (.error (.ofHook failure)) ∧
      ∀ note ∈ after, note.IsHandedOn (.ofHook failure) stage := by
  obtain ⟨rest, later, hrest, hlater⟩ :=
    (ensures_resolveStaged program last hooks 0 specifier context).runs hruns
  obtain ⟨hafter, hleft⟩ := ((hrest stage failure rfl).2 hhands).runs hlater
  refine ⟨?_, hleft.erase, hafter⟩
  have hleads := hruns.leads
  rwa [erase_resolveStaged, hleft.erase] at hleads

end

/-- What becomes of a failure in a chain of resolve hooks. -/
structure HandsFailuresOn (σ H : Type) : Prop where
  /-- The log tells of the chain itself. -/
  tells (program : H → String → ResolveContext → ResolveProgram σ H) (hooks : List (Nat × H))
    (last : NextResolve σ H) (specifier : String) (context : ResolveContext) :
    (resolveStaged program last hooks 0 specifier context).Tells
      (dispatchResolve program hooks last specifier context) (fun _ _ => True)
      (fun result log => ∀ error, result = .error error → EndsInFailure 0 error log)
  /-- When a stage has failed and the hooks above it hand errors on, the chain has come to its end
  with the error that the failure leads to.  No hook is entered any more, nor is the default. -/
  failed {program : H → String → ResolveContext → ResolveProgram σ H} {hooks : List (Nat × H)}
    {last : NextResolve σ H} {specifier : String} {context : ResolveContext} {stage : Nat}
    {failure : Failure} {exchanges : List (Exchange (workInterface σ H))}
    {before after : List StageNote} {left : StageLogger σ H (Except ModuleError Resolution)}
    (hhands : AllHandOn program (hooks.take stage))
    (hruns : (resolveStaged program last hooks 0 specifier context).Runs exchanges
      (before ++ .failed stage failure :: after) left) :
    (dispatchResolve program hooks last specifier context).Leads exchanges
        (.done (.error (.ofHook failure))) ∧
      left.erase = .done (.error (.ofHook failure)) ∧
      ∀ note ∈ after, note.IsHandedOn (.ofHook failure) stage
  /-- What a hook raises of its own is wrapped, once. -/
  own {failure : Failure} (h : failure.IsOwn) : ModuleError.ofHook failure = .hook failure
  /-- An error of the loader is left as it is, also if it is the wrapped failure of a hook. -/
  loader (error : ModuleError) : ModuleError.ofHook (.loader error) = error
  /-- Every other failure says something of an error of the loader, and this error comes out. -/
  told {failure : Failure} (h : ¬ failure.IsOwn) :
    failure.loaderError? = some (ModuleError.ofHook failure)

/-- Failures come out of every chain of hooks that hand them on, and as they went in. -/
theorem handsFailuresOn (σ H : Type) : HandsFailuresOn σ H where
  tells program hooks last specifier context :=
    (safe_resolveStaged program last hooks 0 specifier context []).tells
      (erase_resolveStaged program last hooks 0 specifier context)
  failed := ends_of_failed
  own := ModuleError.ofHook_of_isOwn
  loader := ModuleError.ofHook_loader
  told := ModuleError.loaderError?_eq_ofHook

/-- The second of three hooks raises something, and the first passes it on. -/
example (last : NextResolve σ Bool) (context : ResolveContext) :
    dispatchResolve (fun raises specifier context =>
        if raises then .done (.error (.message "exploded")) else passResolve specifier context)
      [(3, false), (2, true), (1, false)] last "a" context =
        .done (.error (.hook (.message "exploded"))) := rfl

end ScriptModules
