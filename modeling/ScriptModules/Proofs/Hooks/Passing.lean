import ScriptModules.Proofs.Hooks.Order

/-!
# Hooks that only pass on

A hook may just go on with what it got, and give what comes of it.  A chain of such hooks does
what it does without hooks, and still each of them is entered, once, the newest first.

A load hook can do so at once, or it defers its reply first and goes on when it is awaited.  Then
the chain has a pending reply where there was none, and it is the work until the result is there
that stays the same.
-/

namespace ScriptModules

variable {σ H A R : Type}

/-- A resolve hook that passes on. -/
def passResolve (specifier : String) (context : ResolveContext) : ResolveProgram σ H :=
  .ask (.next specifier context) fun answer => .done (answer.mapError .loader)

/-- Gives what has come as a reply. -/
def passReply : LoadReply σ H → LoadAnswer σ H
  | .ready result => .ready result
  | .pending rest => .deferred (.ask (.await (.pending rest)) .done)

/-- A load hook that passes on, at once or after it has deferred its reply. -/
def passLoad (deferred : Bool) (url : String) (context : LoadContext) : LoadProgram σ H :=
  if deferred then
    .done (.deferred (.ask (.hook (.next url context)) fun reply => .ask (.await reply) .done))
  else .ask (.next url context) fun reply => .done (passReply reply)

/-! ## What comes of a request -/

/-- What a hook gives that has gone on is accepted. -/
@[simp] theorem acceptResult_called (phase : Phase) (isShort : R → Bool) (hook : Nat)
    (given : Except ModuleError R) : acceptResult phase isShort hook true given = given := by
  cases given <;> rfl

@[simp] theorem checkLoad_called (id : Nat) (result : Except ModuleError LoadOutput) :
    checkLoad id true result = result :=
  acceptResult_called .load LoadOutput.shortCircuit id result

/-- An error that a hook passes on stays what it is. -/
@[simp] theorem mapError_ofHook_loader (answer : Except ModuleError R) :
    (answer.mapError Failure.loader).mapError ModuleError.ofHook = answer := by
  cases answer <;> rfl

theorem resolveThrough_passResolve (id : Nat) (next : NextResolve σ H) (specifier : String)
    (context : ResolveContext) :
    resolveThrough id (passResolve specifier context) next = next specifier context := by
  simp [resolveThrough_eq, passResolve, Program.expand, answerResolve, Program.bind_assoc]

/-- Resolve hooks that pass on do what is done without hooks. -/
theorem dispatchResolve_passResolve (hooks : List (Nat × H)) (last : NextResolve σ H) :
    dispatchResolve (fun _ => passResolve) hooks last = last := by
  induction hooks with
  | nil => rfl
  | cons hook hooks ih =>
      funext specifier context
      exact (resolveThrough_passResolve hook.1 _ specifier context).trans
        (congrFun (congrFun ih specifier) context)

/-- At once, a load hook passes on the very reply. -/
theorem loadThrough_passLoad_false (id : Nat) (next : NextLoad σ H) (url : String)
    (context : LoadContext) :
    loadThrough id (passLoad false url context) next = next url context := by
  change (((next url context).bind fun reply => .done (reply, true)).bind fun answer =>
    .done (passReply answer.1, answer.2)).bind _ = _
  rw [Program.bind_assoc, Program.bind_assoc]
  refine (congrArg _ (funext fun reply => ?_)).trans (Program.bind_done _)
  cases reply with
  | ready result => simp [passReply]
  | pending rest =>
      simp [passReply, Program.expand, answerDeferred, LoadReply.await, Program.bind_assoc]

/-- When it is awaited, what a load hook passes on is the result all the same. -/
theorem await_loadThrough_passLoad (id : Nat) (deferred : Bool) (next : NextLoad σ H)
    (url : String) (context : LoadContext) :
    (loadThrough id (passLoad deferred url context) next).bind LoadReply.await =
      (next url context).bind LoadReply.await := by
  cases deferred with
  | false => rw [loadThrough_passLoad_false]
  | true =>
      change (((next url context).bind fun reply => .done (reply, true)).bind fun answer =>
        (answer.1.await.bind fun result => .done (result, answer.2)).bind .done).bind
          (fun outcome => .done (checkLoad id outcome.2 outcome.1)) = _
      simp [Program.bind_assoc]

theorem dispatchLoad_passLoad_false (hooks : List (Nat × H)) (last : NextLoad σ H) :
    dispatchLoad (fun _ => passLoad false) hooks last = last := by
  induction hooks with
  | nil => rfl
  | cons hook hooks ih =>
      funext url context
      exact (loadThrough_passLoad_false hook.1 _ url context).trans
        (congrFun (congrFun ih url) context)

/-- Load hooks that pass on do what is done without hooks until the result is there. -/
theorem await_dispatchLoad_passLoad (deferred : H → Bool) (hooks : List (Nat × H))
    (last : NextLoad σ H) (url : String) (context : LoadContext) :
    (dispatchLoad (fun hook => passLoad (deferred hook)) hooks last url context).bind
      LoadReply.await = (last url context).bind LoadReply.await := by
  induction hooks with
  | nil => rfl
  | cons hook hooks ih =>
      exact (await_loadThrough_passLoad hook.1 (deferred hook.2) _ url context).trans ih

/-! ## Which hooks are entered -/

/-- The hook that is entered, or the default. -/
def ChainNote.entry : ChainNote A R → Option (Option Nat)
  | .entered _ hook _ => some hook
  | .wentOn .. | .ended .. => none

/-- The hooks that are entered, and the default, in turn. -/
def ChainNote.entries (log : List (ChainNote A R)) : List (Option Nat) :=
  log.filterMap entry

open ChainNote

@[simp] theorem entries_entered (log : List (ChainNote A R)) (path : List Nat)
    (hook : Option Nat) (arguments : A) :
    entries (log ++ [.entered path hook arguments]) = entries log ++ [hook] :=
  List.filterMap_append

@[simp] theorem entries_wentOn (log : List (ChainNote A R)) (path : List Nat) (index : Nat)
    (arguments : A) : entries (log ++ [.wentOn path index arguments]) = entries log :=
  List.filterMap_append.trans (List.append_nil _)

@[simp] theorem entries_ended (log : List (ChainNote A R)) (path : List Nat) (hook : Nat)
    (given result : Except ModuleError R) :
    entries (log ++ [.ended path hook given result]) = entries log :=
  List.filterMap_append.trans (List.append_nil _)

/-- When a program ends, certain hooks have been entered. -/
def HaveEntered {I : Interface} {α : Type} (found : List (Option Nat))
    (program : Program (I.noted (ChainNote A R)) α) (log : List (ChainNote A R)) : Prop :=
  program.Safe (fun _ _ => True) (fun _ final => entries final = found) log

/-- Resolve hooks that pass on are entered once each, the newest first, and then the default. -/
theorem resolveLogged_passResolve (hooks : List (Nat × H)) (last : NextResolve σ H)
    (path : List Nat) (specifier : String) (context : ResolveContext) (log : List ResolveNote) :
    HaveEntered (entries log ++ ((hooks.map fun hook => some hook.1) ++ [none]))
      (resolveLogged (fun _ => passResolve) hooks last path specifier context) log := by
  induction hooks generalizing path log with
  | nil =>
      refine Program.Safe.write_bind trivial (Program.safe_lift fun result => ?_)
      exact entries_entered ..
  | cons hook hooks ih =>
      refine Program.Safe.write_bind trivial (Program.Safe.bind (Program.Safe.bind ?_))
      refine ⟨trivial, Program.Safe.bind (Program.safe_done (Program.Safe.bind ?_))⟩
      refine (ih (0 :: path) _).mono fun answer after hafter => ⟨trivial, Program.safe_done ?_⟩
      rw [entries_ended, hafter, entries_wentOn, entries_entered, List.append_assoc]
      rfl

theorem LoggedReply.take_self (index : Nat) (reply : LoggedReply σ H)
    (replies : List (Nat × LoggedReply σ H)) :
    take reply.erase ((index, reply) :: replies) = (reply, replies) :=
  if_pos rfl

section
variable {found : List (Option Nat)} {next : NextLoadLogged σ H} {path : List Nat} {id : Nat}

theorem haveEntered_endLogged {given : Except ModuleError LoadOutput} {calls : LoadCalls σ H}
    {log : List LoadNote} (h : entries log = found) :
    HaveEntered found (endLogged path id given calls) log :=
  ⟨trivial, (entries_ended log path id given _).trans h⟩

/-- A load hook awaits the only reply that it has got, and gives the result. -/
theorem haveEntered_awaited {reply : LoggedReply σ H} {log : List LoadNote}
    (h : HaveEntered found reply.await log) :
    ((.ask (.await reply.erase) .done : DeferredProgram σ H).expand
      (answerDeferredLogged path next) ⟨1, [(0, reply)]⟩).Safe (fun _ _ => True)
      (fun outcome => HaveEntered found (endLogged path id outcome.1 outcome.2)) log := by
  refine Program.Safe.bind (Program.Safe.bind ?_)
  rw [LoggedReply.take_self]
  exact h.mono fun result final hfinal => haveEntered_endLogged hfinal

end

/-- Load hooks that pass on are entered once each, the newest first, and then the default. -/
theorem loadLogged_passLoad (deferred : H → Bool) (hooks : List (Nat × H)) (last : NextLoad σ H)
    (path : List Nat) (url : String) (context : LoadContext) (log : List LoadNote) :
    (loadLogged (fun hook => passLoad (deferred hook)) hooks last path url context).Safe
      (fun _ _ => True)
      (fun reply => HaveEntered (entries log ++ ((hooks.map fun hook => some hook.1) ++ [none]))
        reply.await) log := by
  induction hooks generalizing path log with
  | nil =>
      refine Program.Safe.write_bind trivial (Program.Safe.bind (Program.safe_lift fun reply => ?_))
      refine Program.safe_done ?_
      rw [LoggedReply.await_ofReply]
      exact Program.safe_lift fun result => entries_entered ..
  | cons hook hooks ih =>
      have hfound : ∀ (rest : List (Option Nat)), entries (log ++
          [.entered path (some hook.1) (url, context)] ++ [.wentOn path 0 (url, context)]) ++ rest =
          entries log ++ some hook.1 :: rest := by
        intro rest
        rw [entries_wentOn, entries_entered, List.append_assoc]
        rfl
      have hnext := ih (0 :: path) (log ++ [.entered path (some hook.1) (url, context)] ++
        [.wentOn path 0 (url, context)])
      rw [hfound] at hnext
      refine Program.Safe.write_bind trivial (Program.Safe.bind ?_)
      cases hdeferred : deferred hook.2 with
      | true =>
          simp only [hdeferred]
          refine Program.safe_done (Program.safe_done (Program.Safe.bind (Program.Safe.bind ?_)))
          refine ⟨trivial, Program.Safe.bind (Program.safe_done (Program.Safe.bind ?_))⟩
          exact hnext.mono fun reply after hafter => haveEntered_awaited hafter
      | false =>
          simp only [hdeferred]
          refine Program.Safe.bind ⟨trivial, Program.Safe.bind (Program.safe_done
            (Program.Safe.bind ?_))⟩
          refine hnext.mono fun reply after hafter => ?_
          cases reply with
          | ready result => exact Program.Safe.bind (haveEntered_endLogged hafter)
          | pending rest => exact Program.Safe.bind (haveEntered_awaited hafter)

end ScriptModules
