import Mathlib.Data.List.Infix
import ScriptModules.Proofs.Hooks.Failing

/-!
# Contexts around errors

A hook can put contexts around an error that it has got from the rest of its chain, and fail with
that.  What leaves its level is the error at the bottom alone (`ModuleError.ofHook`), so the contexts
are gone before another hook or the one who has asked can read them.  To a chain it makes no
difference at all what hooks say about errors of the loader (`dispatchResolve_withoutContexts`), and
of the contexts that a hook puts around such an error those come out that can be read in the error
itself (`treatsContexts`).

What a hook says about a failure of its own is kept.
-/

namespace ScriptModules

variable {I J : Interface} {σ H S α β : Type}

/-! ## What is said about a failure -/

/-- The texts of an error and of what caused it. -/
def ModuleError.texts (error : ModuleError) : List String :=
  error.message :: error.chain

/-- A message can be read in an error or in what caused it. -/
def ModuleError.Carries (error : ModuleError) (message : String) : Prop :=
  ∃ text ∈ error.texts, message.toList <:+: text.toList

instance (error : ModuleError) (message : String) : Decidable (error.Carries message) :=
  inferInstanceAs (Decidable (∃ text ∈ error.texts, _))

namespace Failure

/-- A failure with contexts around it, the outermost first. -/
def within (contexts : List String) (failure : Failure) : Failure :=
  contexts.foldr .context failure

/-- Contexts have no error of the loader in them. -/
theorem loaderError?_within (contexts : List String) (failure : Failure) :
    (failure.within contexts).loaderError? = failure.loaderError? := by
  induction contexts with
  | nil => rfl
  | cons context contexts ih => exact ih

theorem IsOwn.within {failure : Failure} (h : failure.IsOwn) (contexts : List String) :
    (failure.within contexts).IsOwn := by
  induction contexts with
  | nil => exact h
  | cons context contexts ih => exact .context context ih

/-- Contexts can be read before what they are put around. -/
theorem parts_within (contexts : List String) (failure : Failure) :
    (failure.within contexts).parts = contexts ++ failure.parts := by
  induction contexts with
  | nil => rfl
  | cons context contexts ih => exact congrArg (List.cons context) ih

/-- A failure without what is said in it about an error of the loader. -/
def plain (failure : Failure) : Failure :=
  (failure.loaderError?.map .loader).getD failure

theorem plain_within_loader (contexts : List String) (error : ModuleError) :
    ((Failure.loader error).within contexts).plain = .loader error := by
  rw [plain, loaderError?_within]
  rfl

end Failure

namespace ModuleError

/-- The texts of the error that wraps a failure are those of the failure. -/
theorem texts_hook (failure : Failure) : (ModuleError.hook failure).texts = failure.parts := by
  cases failure with
  | message text => rfl
  | context text cause => rfl
  | loader error => rfl

theorem carries_of_mem_texts {error : ModuleError} {message : String} (h : message ∈ error.texts) :
    error.Carries message :=
  ⟨message, h, List.infix_rfl⟩

/-- All contexts around a failure of a hook's own can be read in the error it leads to. -/
theorem carries_ofHook_within {failure : Failure} (h : failure.IsOwn) {contexts : List String} :
    ∀ message ∈ contexts, (ofHook (failure.within contexts)).Carries message := by
  intro message hmessage
  rw [ofHook_of_isOwn (h.within contexts)]
  apply carries_of_mem_texts
  rw [texts_hook, Failure.parts_within]
  exact List.mem_append_left _ hmessage

/-- Contexts around an error of the loader are lost. -/
theorem ofHook_within_loader (contexts : List String) (error : ModuleError) :
    ofHook ((Failure.loader error).within contexts) = error := by
  rw [ofHook, Failure.loaderError?_within]
  rfl

theorem ofHook_plain (failure : Failure) : ofHook failure.plain = ofHook failure := by
  rw [Failure.plain]
  cases h : failure.loaderError? with
  | none => rfl
  | some error =>
      rw [ofHook, ofHook, h]
      rfl

end ModuleError

/-! ## Chains without contexts -/

theorem Program.expand_bind
    (replace : (request : I.Request) → S → Program J (I.Answer request × S))
    (program : Program I α) (next : α → Program I β) (state : S) :
    (program.bind next).expand replace state =
      (program.expand replace state).bind fun outcome =>
        (next outcome.1).expand replace outcome.2 := by
  induction program generalizing state with
  | done result => rfl
  | ask request rest ih => simp only [bind, expand, bind_assoc, ih]

/-- A hook that says nothing about errors of the loader, and otherwise does what another one
does. -/
def withoutContexts (hook : ResolveProgram σ H) : ResolveProgram σ H :=
  hook.bind fun outcome => .done (outcome.mapError .plain)

theorem resolveThrough_withoutContexts (id : Nat) (hook : ResolveProgram σ H)
    (next : NextResolve σ H) :
    resolveThrough id (withoutContexts hook) next = resolveThrough id hook next := by
  have houtcome : ∀ outcome : Except Failure Resolution,
      (outcome.mapError .plain).mapError ModuleError.ofHook = outcome.mapError .ofHook := by
    intro outcome
    cases outcome with
    | ok resolution => rfl
    | error failure => exact congrArg Except.error (ModuleError.ofHook_plain failure)
  rw [resolveThrough_eq, resolveThrough_eq, withoutContexts, Program.expand_bind,
    Program.bind_assoc]
  simp only [Program.expand, Program.done_bind, houtcome]

/-- What hooks say about errors of the loader makes no difference to a chain. -/
theorem dispatchResolve_withoutContexts (program : H → String → ResolveContext → ResolveProgram σ H)
    (hooks : List (Nat × H)) (last : NextResolve σ H) :
    dispatchResolve (fun hook specifier context => withoutContexts (program hook specifier context))
      hooks last = dispatchResolve program hooks last := by
  induction hooks with
  | nil => rfl
  | cons hook hooks ih =>
      funext specifier context
      show resolveThrough hook.1 (withoutContexts (program hook.2 specifier context)) _ =
        resolveThrough hook.1 (program hook.2 specifier context) _
      rw [resolveThrough_withoutContexts]
      exact congrArg _ ih

/-- A resolve hook that goes on, and puts contexts around an error that it gets. -/
def annotateResolve (contexts : List String) (specifier : String) (context : ResolveContext) :
    ResolveProgram σ H :=
  .ask (.next specifier context) fun answer =>
    .done (answer.mapError fun error => (Failure.loader error).within contexts)

theorem withoutContexts_annotateResolve (contexts : List String) (specifier : String)
    (context : ResolveContext) :
    withoutContexts (annotateResolve contexts specifier context : ResolveProgram σ H) =
      passResolve specifier context := by
  refine congrArg (Program.ask _) (funext fun answer => ?_)
  cases answer with
  | ok resolution => rfl
  | error error =>
      have hplain := Failure.plain_within_loader contexts error
      exact congrArg (fun failure => Program.done (Except.error failure)) hplain

/-- Resolve hooks that only put contexts around errors do what is done without hooks. -/
theorem dispatchResolve_annotateResolve (contexts : H → List String) (hooks : List (Nat × H))
    (last : NextResolve σ H) :
    dispatchResolve (fun hook => annotateResolve (contexts hook)) hooks last = last := by
  rw [← dispatchResolve_withoutContexts]
  simp only [withoutContexts_annotateResolve]
  exact dispatchResolve_passResolve hooks last

/-! ## What comes out of a chain -/

/-- The same answers lead to the same end. -/
theorem Program.Leads.unique {program first second : Program I α} {exchanges : List (Exchange I)}
    (h₁ : program.Leads exchanges first) (h₂ : program.Leads exchanges second) :
    first = second := by
  induction h₁ with
  | here program =>
      cases h₂
      rfl
  | ask h ih =>
      cases h₂ with
      | ask h₂ => exact ih h₂

/-- A chain comes to an error in which certain messages can be read. -/
def FailsCarrying (chain : Work σ H (Except ModuleError Resolution))
    (exchanges : List (Exchange (workInterface σ H))) (messages : List String) : Prop :=
  ∃ error, chain.Leads exchanges (.done (.error error)) ∧
    ∀ message ∈ messages, error.Carries message

theorem failsCarrying_iff {chain : Work σ H (Except ModuleError Resolution)}
    {exchanges : List (Exchange (workInterface σ H))} {error : ModuleError}
    (h : chain.Leads exchanges (.done (.error error))) (messages : List String) :
    FailsCarrying chain exchanges messages ↔ ∀ message ∈ messages, error.Carries message := by
  constructor
  · rintro ⟨other, hother, hcarries⟩
    cases h.unique hother
    exact hcarries
  · exact fun hcarries => ⟨error, h, hcarries⟩

/-- What becomes of the contexts that resolve hooks put around failures. -/
structure TreatsContexts (σ H : Type) : Prop where
  /-- What hooks say about errors of the loader makes no difference, whatever hooks there are. -/
  unseen (program : H → String → ResolveContext → ResolveProgram σ H) (hooks : List (Nat × H))
    (last : NextResolve σ H) :
    dispatchResolve (fun hook specifier context => withoutContexts (program hook specifier context))
      hooks last = dispatchResolve program hooks last
  /-- When a hook has failed with contexts around an error of the loader, such as one that it has
  got from the rest of the chain, and the hooks above it hand errors on, then this error comes out.
  So the contexts can be read in what comes out just if they can be read in the error. -/
  carried {program : H → String → ResolveContext → ResolveProgram σ H} {hooks : List (Nat × H)}
    {last : NextResolve σ H} {specifier : String} {context : ResolveContext} {stage : Nat}
    {contexts : List String} {error : ModuleError} {exchanges : List (Exchange (workInterface σ H))}
    {before after : List StageNote} {left : StageLogger σ H (Except ModuleError Resolution)}
    (hhands : AllHandOn program (hooks.take stage))
    (hruns : (resolveStaged program last hooks 0 specifier context).Runs exchanges
      (before ++ .failed stage ((Failure.loader error).within contexts) :: after) left) :
    FailsCarrying (dispatchResolve program hooks last specifier context) exchanges contexts ↔
      ∀ message ∈ contexts, error.Carries message
  /-- Contexts around a failure of the hook's own can be read in what comes out. -/
  kept {program : H → String → ResolveContext → ResolveProgram σ H} {hooks : List (Nat × H)}
    {last : NextResolve σ H} {specifier : String} {context : ResolveContext} {stage : Nat}
    {contexts : List String} {failure : Failure} (hown : failure.IsOwn)
    {exchanges : List (Exchange (workInterface σ H))}
    {before after : List StageNote} {left : StageLogger σ H (Except ModuleError Resolution)}
    (hhands : AllHandOn program (hooks.take stage))
    (hruns : (resolveStaged program last hooks 0 specifier context).Runs exchanges
      (before ++ .failed stage (failure.within contexts) :: after) left) :
    FailsCarrying (dispatchResolve program hooks last specifier context) exchanges contexts

/-- Contexts around errors of the loader are lost in every chain, and others are kept. -/
theorem treatsContexts (σ H : Type) : TreatsContexts σ H where
  unseen := dispatchResolve_withoutContexts
  carried := by
    intro _ _ _ _ _ _ contexts error _ _ _ _ hhands hruns
    have hleads := (ends_of_failed hhands hruns).1
    rw [ModuleError.ofHook_within_loader] at hleads
    exact failsCarrying_iff hleads contexts
  kept := by
    intro _ _ _ _ _ _ _ _ hown _ _ _ _ hhands hruns
    exact ⟨_, (ends_of_failed hhands hruns).1, ModuleError.carries_ofHook_within hown⟩

/-! ## A context that is lost -/

/-- An error has come out of the rest of the chain for a hook that has not ended yet: the stage
below has failed with it, and the stage of the hook has not been entered anew. -/
def GotFromNext (stage : Nat) (error : ModuleError) (log : List StageNote) : Prop :=
  ∃ before cause since, log = before ++ .failed (stage + 1) cause :: since ∧
    .entered stage ∉ since ∧ .ofHook cause = error

/-- The context of the older of two hooks. -/
def lookupContext : List String := ["while resolving lib"]

/-- What is not found. -/
def missingLib : ModuleError := .notFound "lib" "/p"

/-- Two hooks that go on, the older of which puts a context around errors. -/
def annotating (annotates : Bool) : String → ResolveContext → ResolveProgram Unit Bool :=
  annotateResolve (if annotates then lookupContext else [])

/-- The same two hooks, but the older one fails with a context around a failure of its own. -/
def raising (raises : Bool) (specifier : String) (context : ResolveContext) :
    ResolveProgram Unit Bool :=
  if raises then .done (.error ((Failure.message "no such host").within lookupContext))
  else passResolve specifier context

/-- Nothing is found without hooks. -/
def findsNothing : NextResolve Unit Bool :=
  fun _ _ => .done (.error missingLib)

theorem allHandOn_annotating : AllHandOn annotating ([(2, false), (1, true)].take 1) := by
  intro hook hhook specifier context
  obtain rfl := List.mem_singleton.mp hhook
  exact handsOn_passResolve specifier context

theorem allHandOn_raising : AllHandOn raising ([(2, false), (1, true)].take 1) := by
  intro hook hhook specifier context
  obtain rfl := List.mem_singleton.mp hhook
  exact handsOn_passResolve specifier context

/-- The request that they get. -/
def lookupRequest : ResolveContext := ⟨"lib", .ofString "/p", ["require"], false⟩

/-- The stages that fail, from the default to the hook that hands the error on. -/
theorem runs_annotating :
    (resolveStaged annotating findsNothing [(2, false), (1, true)] 0 "lib" lookupRequest).Runs []
      ([.entered 0, .entered 1, .entered 2, .failed 2 (.loader missingLib)] ++
        .failed 1 ((Failure.loader missingLib).within lookupContext) ::
          [.failed 0 (.loader missingLib)])
      (.done (.error missingLib)) :=
  .note (.note (.note (.note (.note (.note (.here _))))))

theorem runs_raising :
    (resolveStaged raising findsNothing [(2, false), (1, true)] 0 "lib" lookupRequest).Runs []
      ([.entered 0, .entered 1] ++
        .failed 1 ((Failure.message "no such host").within lookupContext) ::
          [.failed 0 (.loader (.hook ((Failure.message "no such host").within lookupContext)))])
      (.done (.error (.hook ((Failure.message "no such host").within lookupContext)))) :=
  .note (.note (.note (.note (.here _))))

theorem not_carries_missingLib : ¬ ∀ message ∈ lookupContext, missingLib.Carries message := by
  decide +kernel

/-- The context around the error is lost, and the one around the failure of the hook's own is
kept. -/
theorem treatsContexts_twoHooks :
    ¬ FailsCarrying
        (dispatchResolve annotating [(2, false), (1, true)] findsNothing "lib" lookupRequest)
        [] lookupContext ∧
      FailsCarrying
        (dispatchResolve raising [(2, false), (1, true)] findsNothing "lib" lookupRequest)
        [] lookupContext := by
  have htreats := treatsContexts Unit Bool
  constructor
  · rw [htreats.carried allHandOn_annotating runs_annotating]
    exact not_carries_missingLib
  · exact htreats.kept (.message _) allHandOn_raising runs_raising

/-- Contexts that hooks put around errors from the rest of their chain cannot always be read in what
comes out. -/
theorem not_keepsContexts : ¬ ∀ (σ H : Type) (program : H → String → ResolveContext →
      ResolveProgram σ H) (hooks : List (Nat × H)) (last : NextResolve σ H) (specifier : String)
    (context : ResolveContext) (stage : Nat) (contexts : List String) (error : ModuleError)
    (exchanges : List (Exchange (workInterface σ H))) (before after : List StageNote)
    (left : StageLogger σ H (Except ModuleError Resolution)),
    AllHandOn program (hooks.take stage) → GotFromNext stage error before →
    (resolveStaged program last hooks 0 specifier context).Runs exchanges
      (before ++ .failed stage ((Failure.loader error).within contexts) :: after) left →
    FailsCarrying (dispatchResolve program hooks last specifier context) exchanges contexts := by
  intro hall
  have hgot : GotFromNext 1 missingLib
      [.entered 0, .entered 1, .entered 2, .failed 2 (.loader missingLib)] :=
    ⟨[.entered 0, .entered 1, .entered 2], .loader missingLib, [], rfl, nofun, rfl⟩
  have hclaim := hall Unit Bool annotating [(2, false), (1, true)] findsNothing "lib" lookupRequest
    1 lookupContext missingLib [] _ _ _ allHandOn_annotating hgot runs_annotating
  -- A chain of hooks that only put contexts around errors does what the default does.
  have hchain : dispatchResolve annotating [(2, false), (1, true)] findsNothing = findsNothing :=
    dispatchResolve_annotateResolve _ _ _
  rw [hchain] at hclaim
  exact not_carries_missingLib ((failsCarrying_iff (.here _) lookupContext).mp hclaim)

end ScriptModules
