import ScriptModules.Hooks.Dispatch

/-!
# Hooks that follow rules

A hook need not be written as a program.  Here it is a list of rules, of which the
first whose tests hold is used.  A rule may go on and change what it passes on and
what comes back, give a result of its own, fall back on something else, or fail.

Before it acts, a rule makes its *calls*.  What a call is, is left open: it is a
value of some type `C`, and the embedder says which program it stands for.
-/

namespace ScriptModules

/-- The tests of a rule.  A test that is not given holds. -/
structure RuleTest where
  /-- The specifier or URL is this one. -/
  subject : Option String := none
  /-- The specifier or URL begins with this. -/
  beginning : Option String := none
  /-- This condition is among those of the request. -/
  condition : Option String := none
  /-- The request is for the entry module, or is not. -/
  isMain : Option Bool := none

/-- Whether all tests hold. -/
def RuleTest.holds (test : RuleTest) (subject : String) (conditions : List String)
    (isMain : Bool) : Bool :=
  (test.subject.all fun text => text == subject) &&
    (test.beginning.all fun text => (textAfter? text subject).isSome) &&
    test.condition.all conditions.contains && test.isMain.all fun b => b == isMain

/-- A rule of a hook. -/
structure Rule (C A : Type) where
  test : RuleTest := {}
  calls : List C := []
  /-- What is done then. -/
  act : A

/-- The rule that is used; `act` is done if there is none. -/
def Rule.select {C A : Type} (rules : List (Rule C A)) (act : A) (subject : String)
    (conditions : List String) (isMain : Bool) : Rule C A :=
  (rules.find? fun rule => rule.test.holds subject conditions isMain).getD { act }

/-! ## Resolving -/

/-- What is changed when a resolve hook goes on. -/
structure ResolveChange where
  specifier : Option String := none
  base : Option Path := none
  conditions : Option (List String) := none
  /-- The id to give instead. -/
  url : Option String := none
  /-- What is put behind the id. -/
  ending : String := ""
  /-- The format to give instead, which may be none. -/
  format : Option (Option ModuleFormat) := none
  shortCircuit : Option Bool := none

/-- The acts of a resolve hook. -/
inductive ResolveAct where
  /-- Go on. -/
  | pass (change : ResolveChange)
  /-- Give a result; the id is the specifier unless another is given. -/
  | give (url : Option String) (format : Option ModuleFormat) (shortCircuit : Bool)
  /-- Go on, but give a result of its own. -/
  | ignore (url : Option String) (format : Option ModuleFormat) (shortCircuit : Bool)
  /-- Go on, and if that fails, with another specifier. -/
  | fallback (specifier : Option String)
  /-- Fail with a message. -/
  | throw (message : String)
  /-- Refuse the specifier. -/
  | refuse (reason : String)

namespace ResolveAct

variable {σ H : Type}

/-- Goes on. -/
def next (specifier : String) (context : ResolveContext) :
    Program (resolveInterface σ H) (Except ModuleError Resolution) :=
  .ask (.next specifier context) .done

/-- What an act does. -/
def program (act : ResolveAct) (specifier : String) (context : ResolveContext) :
    Program (resolveInterface σ H) (Except Failure Resolution) := do
  match act with
  | .pass change =>
    let context := { context with
      base := change.base.getD context.base
      conditions := change.conditions.getD context.conditions }
    match ← next (change.specifier.getD specifier) context with
    | .error e => return .error (.loader e)
    | .ok resolution =>
      return .ok {
        url := change.url.getD resolution.url ++ change.ending
        format := change.format.getD resolution.format
        shortCircuit := change.shortCircuit.getD resolution.shortCircuit }
  | .give url format shortCircuit => return .ok ⟨url.getD specifier, format, shortCircuit⟩
  | .ignore url format shortCircuit =>
    let _ ← next specifier context
    return .ok ⟨url.getD specifier, format, shortCircuit⟩
  | .fallback other =>
    match ← next specifier context with
    | .ok resolution => return .ok resolution
    | .error _ => return (← next (other.getD specifier) context).mapError .loader
  | .throw message => return .error (.message message)
  | .refuse reason => return .error (.loader (.invalidSpecifier specifier reason))

end ResolveAct

/-! ## Loading -/

/-- What is changed when a load hook goes on. -/
structure LoadChange where
  url : Option String := none
  /-- The format to pass on instead, which may be none. -/
  contextFormat : Option (Option ModuleFormat) := none
  /-- Fail with this message instead of giving the result. -/
  rejection : Option String := none
  /-- The contents to give instead, which may be none. -/
  source : Option (Option Bytes) := none
  /-- What is put behind the contents, if there are any. -/
  ending : Bytes := []
  format : Option ModuleFormat := none
  shortCircuit : Option Bool := none

/-- The acts of a load hook. -/
inductive LoadAct where
  /-- Go on. -/
  | pass (change : LoadChange)
  /-- Give a result. -/
  | give (output : LoadOutput)
  /-- Go on, but give a result of its own. -/
  | ignore (output : LoadOutput)
  /-- Go on, and if that fails at once, with another URL. -/
  | fallback (url : Option String)
  /-- Fail with a message. -/
  | throw (message : String)
  /-- Refuse the URL. -/
  | refuse (reason : String)

/-- An act of a load hook, and for how many pauses the reply is deferred before it, if
it is. -/
structure TimedLoadAct where
  pauses : Option Nat := none
  act : LoadAct

/-- Changes a result. -/
def LoadChange.apply (change : LoadChange) (output : LoadOutput) : Except ModuleError LoadOutput :=
  match change.rejection with
  | some message => .error (.hook (.message message))
  | none => .ok {
      format := change.format.getD output.format
      source := (change.source.getD output.source).map (· ++ change.ending)
      shortCircuit := change.shortCircuit.getD output.shortCircuit }

namespace LoadAct

variable {σ H : Type}

/-- Goes on. -/
def next (url : String) (context : LoadContext) : Program (loadInterface σ H) (LoadReply σ H) :=
  .ask (.next url context) .done

/-- What an act does: it comes to a reply, and changes its result. -/
def program (act : LoadAct) (url : String) (context : LoadContext) :
    Program (loadInterface σ H) (LoadReply σ H × LoadChange) := do
  match act with
  | .pass change =>
    let context := { context with format := change.contextFormat.getD context.format }
    return (← next (change.url.getD url) context, change)
  | .give output => return (.ready (.ok output), {})
  | .ignore output =>
    let _ ← next url context
    return (.ready (.ok output), {})
  | .fallback other =>
    match ← next url context with
    | .ready (.error _) => return (← next (other.getD url) context, {})
    | reply => return (reply, {})
  | .throw message => return (.ready (.error (.hook (.message message))), {})
  | .refuse reason => return (.ready (.error (.invalidSpecifier url reason)), {})

/-- Pauses some times. -/
def pauses : Nat → Program (deferredInterface σ H) Unit
  | 0 => .done ()
  | n + 1 => .ask .pause fun _ => pauses n

/-- Awaits a reply and changes its result. -/
def awaitReply (reply : LoadReply σ H) (change : LoadChange) : DeferredProgram σ H :=
  .ask (.await reply) fun result => .done (result.bind change.apply)

/-- What an act does when the reply is not deferred before it. -/
def reply (act : LoadAct) (url : String) (context : LoadContext) :
    Program (loadInterface σ H) (LoadAnswer σ H) := do
  match ← act.program url context with
  | (.ready result, change) => return .ready (result.bind change.apply)
  | (reply, change) => return .deferred (awaitReply reply change)

/-- What an act does when the reply has been deferred. -/
def deferred (act : LoadAct) (url : String) (context : LoadContext) : DeferredProgram σ H :=
  ((act.program url context).substitute fun request =>
    (.ask (.hook request) .done : Program (deferredInterface σ H) _)).bind
  fun (reply, change) => awaitReply reply change

end LoadAct

/-! ## Hooks -/

/-- A hook that follows rules. -/
structure RuleHook (C : Type) where
  label : String
  resolve : List (Rule C ResolveAct) := []
  load : List (Rule C TimedLoadAct) := []

namespace RuleHook

variable {σ H C : Type}

/-- What the hook does with a specifier, after a program that is run first. -/
def resolveProgram (hook : RuleHook C) (first : Program (loaderInterface σ H) Unit)
    (call : C → Program (loaderInterface σ H) Unit) (specifier : String)
    (context : ResolveContext) : ResolveProgram σ H :=
  let rule := Rule.select hook.resolve (.pass {}) specifier context.conditions context.isMain
  ((do first; rule.calls.forM call : Program (loaderInterface σ H) Unit).substitute fun request =>
    (.ask (.request request) .done : Program (resolveInterface σ H) _)).bind
  fun _ => rule.act.program specifier context

/-- What the hook does with a URL, after a program that is run first. -/
def loadProgram (hook : RuleHook C) (first : Program (loaderInterface σ H) Unit)
    (call : C → Program (loaderInterface σ H) Unit) (url : String) (context : LoadContext) :
    LoadProgram σ H :=
  let rule := Rule.select hook.load ⟨none, .pass {}⟩ url context.conditions context.isMain
  let calls : Program (loaderInterface σ H) Unit := rule.calls.forM call
  let here (program : Program (loaderInterface σ H) Unit) : Program (loadInterface σ H) Unit :=
    program.substitute fun request => .ask (.request request) .done
  (here first).bind fun _ =>
    match rule.act.pauses with
    | none => (here calls).bind fun _ => rule.act.act.reply url context
    | some n => .done (.deferred ((LoadAct.pauses n).bind fun _ =>
        (calls.substitute fun request =>
          (.ask (.hook (.request request)) .done : Program (deferredInterface σ H) _)).bind
        fun _ => rule.act.act.deferred url context))

end RuleHook

end ScriptModules
