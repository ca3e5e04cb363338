import ScriptModules.Proofs.Loader.Cases

/-!
# Work on top of other work

A step looks at the innermost frame at most.  So what a focus comes to does not depend on
the frames below it: they wait, and get its value when it has one (`Leads.onto`,
`Comes.of_onto`).  Calls that load modules for other calls can be taken apart this way, each
into calls of its own.
-/

namespace ScriptModules

variable {σ H : Type} {k m n : Kind}

/-- One stack on top of another. -/
def Stack.append : {k m n : Kind} → Stack σ H k m → Stack σ H m n → Stack σ H k n
  | _, _, _, .nil, below => below
  | _, _, _, .cons frame rest, below => .cons frame (rest.append below)

/-- The same focus with more frames below. -/
def Focus.onto (below : Stack σ H m n) (focus : Focus σ H m) : Focus σ H n :=
  ⟨focus.kind, focus.work, focus.stack.append below⟩

namespace Session

/-- The same result with more frames below. -/
def onto (below : Stack σ H m n) (result : Focus σ H m × Session σ H) :
    Focus σ H n × Session σ H :=
  (result.1.onto below, result.2)

variable {host : Host σ H} {session : Session σ H} {load : Load}
  (stack : Stack σ H .module m) (below : Stack σ H m n)

/-! ## Loads -/

theorem startBody_onto (bytecode : Bytes) (fingerprint : Option Fingerprint)
    (sourceLength : Nat) :
    startBody host load bytecode fingerprint sourceLength (stack.append below) session =
      onto below (startBody host load bytecode fingerprint sourceLength stack session) := by
  unfold startBody
  rfl

theorem startCompiler_onto (source : Bytes) :
    startCompiler host load source (stack.append below) session =
      onto below (startCompiler host load source stack session) := by
  unfold startCompiler
  simp only
  split
  · rfl
  · split
    · exact startBody_onto stack below ..
    · rfl

theorem finishBuiltin_onto :
    finishBuiltin load (stack.append below) session =
      onto below (finishBuiltin load stack session) := by
  unfold finishBuiltin
  simp only
  split <;> rfl

theorem receive_onto (output : LoadOutput) :
    receive host load output (stack.append below) session =
      onto below (receive host load output stack session) := by
  unfold receive
  simp only
  split
  · exact finishBuiltin_onto stack below
  · rfl
  · exact startBody_onto stack below ..
  · exact startCompiler_onto stack below _

theorem receiveResult_onto (result : Except ModuleError LoadOutput) :
    receiveResult host load result (stack.append below) session =
      onto below (receiveResult host load result stack session) := by
  cases result with
  | ok output => exact receive_onto stack below output
  | error e => rfl

theorem receiveReply_onto (mode : LoadMode) (reply : LoadReply σ H) :
    receiveReply host load mode reply (stack.append below) session =
      onto below (receiveReply host load mode reply stack session) := by
  unfold receiveReply
  split
  · exact receiveResult_onto stack below _
  · rfl
  · rfl

theorem receiveBytecode_onto (source : Bytes) (fingerprint : Option Fingerprint)
    (result : Except CompileError Bytes) :
    receiveBytecode host load source fingerprint result (stack.append below) session =
      onto below (receiveBytecode host load source fingerprint result stack session) := by
  cases result with
  | ok bytecode => exact startBody_onto stack below ..
  | error e => rfl

theorem receiveExecution_onto (handle : Handle) (result : Except Failure Unit)
    (dependencies : List String) :
    receiveExecution load handle result dependencies (stack.append below) session =
      onto below (receiveExecution load handle result dependencies stack session) := by
  cases result <;> rfl

theorem receiveResolution_onto (order : LoadOrder) (result : Except ModuleError Resolution) :
    receiveResolution host order result (stack.append below) session =
      onto below (receiveResolution host order result stack session) := by
  cases result with
  | error e => rfl
  | ok resolution =>
      unfold receiveResolution
      simp only
      split <;> rfl

/-! ## Steps -/

/-- A reload starts its load on top of what is below it. -/
theorem receiveReload_onto (reload : Reload) (result : Except ModuleError Resolution)
    (stack : Stack σ H .reload m) :
    receiveReload host reload result (stack.append below) session =
      onto below (receiveReload host reload result stack session) := by
  cases result with
  | error e => rfl
  | ok resolution =>
      unfold receiveReload
      simp only
      split
      · rfl
      · split <;> rfl

theorem resume_onto {j : Kind} (frame : Frame σ H k j) (value : Value σ H k)
    (stack : Stack σ H j m) :
    resume host frame value (stack.append below) session =
      onto below (resume host frame value stack session) := by
  cases frame with
  | asking next => rfl
  | counting => rfl
  | resolving order => exact receiveResolution_onto stack below order value
  | fetching load mode => exact receiveReply_onto stack below mode value
  | awaiting load => exact receiveResult_onto stack below value
  | compiling load source fingerprint => exact receiveBytecode_onto stack below source _ value
  | executing load handle => exact receiveExecution_onto stack below handle value.1 value.2
  | reloading reload => exact receiveReload_onto below reload value stack
  | renewing reload key wasCached => rfl

end Session

/-! ## Runs -/

/-- There is more to do, and this is what. -/
inductive Progress.GoesOn (focus : Focus σ H n) : Progress σ H n → Prop where
  | running : GoesOn focus (.running focus)
  | suspended : GoesOn focus (.suspended focus)

theorem Progress.GoesOn.unique {first second : Focus σ H n} {progress : Progress σ H n}
    (h₁ : progress.GoesOn first) (h₂ : progress.GoesOn second) : first = second := by
  cases h₁ <;> cases h₂ <;> rfl

namespace Session

variable {host : Host σ H} {session middle later last : Session σ H}

/-- A focus comes to another one in some number of steps, past every pause. -/
inductive Leads (host : Host σ H) :
    Focus σ H n → Session σ H → Focus σ H n → Session σ H → Prop where
  | refl {focus : Focus σ H n} {session : Session σ H} : Leads host focus session focus session
  | step {focus next final : Focus σ H n} {session last : Session σ H}
      (h : (session.step host focus).1.GoesOn next)
      (rest : Leads host next (session.step host focus).2 final last) :
      Leads host focus session final last

/-- A focus comes to a value. -/
def Comes (host : Host σ H) (focus : Focus σ H n) (session : Session σ H) (value : Value σ H n)
    (last : Session σ H) : Prop :=
  Leads host focus session ⟨n, .done value, .nil⟩ last

theorem Leads.trans {first second third : Focus σ H n}
    (h₁ : Leads host first session second middle) (h₂ : Leads host second middle third last) :
    Leads host first session third last := by
  induction h₁ with
  | refl => exact h₂
  | step h _ ih => exact .step h (ih h₂)

/-- A focus is over, or it does a step. -/
theorem step_cases (host : Host σ H) (focus : Focus σ H n) (session : Session σ H) :
    (∃ value, focus = ⟨n, .done value, .nil⟩) ∨
      ∃ next, (session.step host focus).1.GoesOn next := by
  obtain ⟨kind, work, stack⟩ := focus
  cases work with
  | done value =>
      cases stack with
      | nil => exact Or.inl ⟨value, rfl⟩
      | cons frame rest => exact Or.inr ⟨_, .running⟩
  | ask request next =>
      right
      cases request with
      | request request => cases request <;> exact ⟨_, .running⟩
      | resolveDefault specifier context => exact ⟨_, .running⟩
      | loadDefault url context => exact ⟨_, .running⟩
      | pause =>
          rcases step_pause host next stack session with heq | heq <;> rw [heq]
          · exact ⟨_, .running⟩
          · exact ⟨_, .suspended⟩

/-- What is over does no step. -/
theorem not_goesOn_done {value : Value σ H n} {next : Focus σ H n} :
    ¬ (session.step host ⟨n, .done value, .nil⟩).1.GoesOn next :=
  nofun

/-- A focus does the same step on top of other frames.  Only whether a pause suspends it may
depend on these. -/
theorem step_onto {focus next : Focus σ H m} (below : Stack σ H m n)
    (h : (session.step host focus).1.GoesOn next) :
    (session.step host (focus.onto below)).1.GoesOn (next.onto below) ∧
      (session.step host (focus.onto below)).2 = (session.step host focus).2 := by
  obtain ⟨kind, work, stack⟩ := focus
  cases work with
  | done value =>
      cases stack with
      | nil => exact absurd h not_goesOn_done
      | cons frame rest =>
          cases h
          have hresume : resume host frame value (rest.append below) session =
              Session.onto below (resume host frame value rest session) :=
            resume_onto below frame value rest
          have hstep : session.step host
              (Focus.onto below ⟨kind, .done value, .cons frame rest⟩) =
              (.running (resume host frame value (rest.append below) session).1,
                (resume host frame value (rest.append below) session).2) := rfl
          rw [hstep, hresume]
          exact ⟨.running, rfl⟩
  | ask request ask =>
      cases request with
      | request request => cases request <;> cases h <;> exact ⟨.running, rfl⟩
      | resolveDefault specifier context =>
          cases h
          exact ⟨.running, rfl⟩
      | loadDefault url context =>
          cases h
          exact ⟨.running, rfl⟩
      | pause =>
          have hnext : next = ⟨kind, ask (), stack⟩ := by
            rcases step_pause host ask stack session with heq | heq <;> rw [heq] at h <;>
              cases h <;> rfl
          subst hnext
          have hsame : (session.step host ⟨kind, .ask .pause ask, stack⟩).2 = session := by
            rcases step_pause host ask stack session with heq | heq <;> rw [heq]
          rw [hsame]
          rcases step_pause host ask (stack.append below) session with heq | heq
          · have hstep : session.step host (Focus.onto below ⟨kind, .ask .pause ask, stack⟩) =
                (.running ⟨kind, ask (), stack.append below⟩, session) := heq
            rw [hstep]
            exact ⟨.running, rfl⟩
          · have hstep : session.step host (Focus.onto below ⟨kind, .ask .pause ask, stack⟩) =
                (.suspended ⟨kind, ask (), stack.append below⟩, session) := heq
            rw [hstep]
            exact ⟨.suspended, rfl⟩

/-- What a focus leads to, it leads to on top of other frames. -/
theorem Leads.onto {focus final : Focus σ H m} (h : Leads host focus session final last)
    (below : Stack σ H m n) : Leads host (focus.onto below) session (final.onto below) last := by
  induction h with
  | refl => exact .refl
  | step h _ ih =>
      obtain ⟨hnext, hsession⟩ := step_onto below h
      refine .step hnext ?_
      rw [hsession]
      exact ih

/-- A focus on top of other frames comes to a value only through a value of its own. -/
theorem Comes.of_onto {focus : Focus σ H m} {below : Stack σ H m n} {value : Value σ H n}
    (h : Comes host (focus.onto below) session value last) :
    ∃ between middle, Comes host focus session between middle ∧
      Comes host ⟨m, .done between, below⟩ middle value last := by
  unfold Comes at h
  generalize hfocus : focus.onto below = whole at h
  generalize hfinal : (⟨n, .done value, .nil⟩ : Focus σ H n) = final at h
  induction h generalizing focus with
  | @refl whole session =>
      subst hfocus
      rcases step_cases host focus session with ⟨between, rfl⟩ | ⟨next, hnext⟩
      · refine ⟨between, session, .refl, ?_⟩
        unfold Comes
        rw [hfinal]
        exact .refl
      · have hgoes := (step_onto below hnext).1
        rw [← hfinal] at hgoes
        exact absurd hgoes not_goesOn_done
  | @step whole next final session last h rest ih =>
      subst hfocus
      rcases step_cases host focus session with ⟨between, rfl⟩ | ⟨inner, hinner⟩
      · refine ⟨between, session, .refl, ?_⟩
        unfold Comes
        rw [hfinal]
        exact .step h rest
      · obtain ⟨hgoes, hsession⟩ := step_onto below hinner
        obtain ⟨between, middle, hbetween, hlast⟩ := ih (hgoes.unique h) hfinal
        rw [hsession] at hbetween
        exact ⟨between, middle, .step hinner hbetween, hlast⟩

/-- A focus on top of other frames comes to what these make of its value. -/
theorem comes_onto_iff {focus : Focus σ H m} {below : Stack σ H m n} {value : Value σ H n} :
    Comes host (focus.onto below) session value last ↔
      ∃ between middle, Comes host focus session between middle ∧
        Comes host ⟨m, .done between, below⟩ middle value last :=
  ⟨Comes.of_onto, fun ⟨_, _, hbetween, hlast⟩ => (hbetween.onto below).trans hlast⟩

/-- What is over has come to its value. -/
theorem comes_done_iff {value result : Value σ H n} :
    Comes host ⟨n, .done result, .nil⟩ session value last ↔ value = result ∧ last = session := by
  constructor
  · intro h
    unfold Comes at h
    cases h with
    | refl => exact ⟨rfl, rfl⟩
    | step h _ => exact absurd h not_goesOn_done
  · rintro ⟨rfl, rfl⟩
    exact .refl

/-- A value handed to a frame comes to what the frame makes of it. -/
theorem comes_resume_iff {frame : Frame σ H k m} {result : Value σ H k} {stack : Stack σ H m n}
    {value : Value σ H n} :
    Comes host ⟨k, .done result, .cons frame stack⟩ session value last ↔
      Comes host (session.resume host frame result stack).1
        (session.resume host frame result stack).2 value last := by
  constructor
  · intro h
    unfold Comes at h
    cases h with
    | step h rest =>
        cases h
        exact rest
  · intro h
    exact .step .running h

/-- What a focus does not suspend comes to is what its next step comes to. -/
theorem comes_iff_of_running {focus next : Focus σ H n} {value : Value σ H n}
    (h : session.step host focus = (.running next, later)) :
    Comes host focus session value last ↔ Comes host next later value last := by
  have hgoes : (session.step host focus).1.GoesOn next := by
    rw [h]
    exact .running
  have hlater : (session.step host focus).2 = later := by rw [h]
  subst hlater
  constructor
  · intro hcomes
    unfold Comes at hcomes
    cases hcomes with
    | refl => exact absurd hgoes not_goesOn_done
    | step hnext rest =>
        rw [hgoes.unique hnext]
        exact rest
  · exact .step hgoes

/-- What a focus comes to is settled. -/
theorem Comes.unique {focus : Focus σ H n} {first second : Value σ H n}
    (h₁ : Comes host focus session first middle) (h₂ : Comes host focus session second last) :
    first = second ∧ middle = last := by
  unfold Comes at h₁
  generalize hfinal : (⟨n, .done first, .nil⟩ : Focus σ H n) = final at h₁
  induction h₁ with
  | refl =>
      subst hfinal
      obtain ⟨hvalue, hsession⟩ := comes_done_iff.mp h₂
      exact ⟨hvalue.symm, hsession.symm⟩
  | step h _ ih =>
      unfold Comes at h₂
      cases h₂ with
      | refl => exact absurd h not_goesOn_done
      | step h' rest =>
          cases h.unique h'
          exact ih rest hfinal

/-- Coming to a value is to be finished in some number of steps. -/
theorem comes_iff_finish {focus : Focus σ H n} {value : Value σ H n} :
    Comes host focus session value last ↔
      ∃ steps, session.finish host steps focus = (some value, last) := by
  constructor
  · intro h
    unfold Comes at h
    generalize hfinal : (⟨n, .done value, .nil⟩ : Focus σ H n) = final at h
    induction h with
    | refl =>
        subst hfinal
        exact ⟨1, rfl⟩
    | @step focus next final session last h _ ih =>
        obtain ⟨steps, hsteps⟩ := ih hfinal
        refine ⟨steps + 1, ?_⟩
        unfold finish
        generalize session.step host focus = result at h hsteps
        obtain ⟨progress, after⟩ := result
        cases h <;> exact hsteps
  · rintro ⟨steps, h⟩
    induction steps generalizing focus session with
    | zero => cases h
    | succ steps ih =>
        unfold finish at h
        rcases step_cases host focus session with ⟨result, rfl⟩ | ⟨next, hnext⟩
        · cases h
          exact .refl
        · refine .step hnext (ih ?_)
          generalize session.step host focus = result at h hnext
          obtain ⟨progress, after⟩ := result
          cases hnext <;> exact h

theorem comes_of_finish {focus : Focus σ H n} {value : Value σ H n} {steps : Nat}
    (h : (session.finish host steps focus).1 = some value) :
    Comes host focus session value (session.finish host steps focus).2 :=
  comes_iff_finish.mpr ⟨steps, Prod.ext h rfl⟩

/-- To see that a load has ended well is to see that it has not failed. -/
theorem comes_of_toOption {focus : Focus σ H .module} {steps : Nat} {loaded : LoadedModule}
    (h : (session.finish host steps focus).1.map
      (fun result : Except ModuleError LoadedModule => result.toOption) = some (some loaded)) :
    Comes host focus session ((.ok loaded : Except ModuleError LoadedModule) : Value σ H .module)
      (session.finish host steps focus).2 := by
  obtain ⟨result, hresult, hloaded⟩ := Option.map_eq_some_iff.mp h
  cases (result : Except ModuleError LoadedModule) with
  | error e => cases hloaded
  | ok found =>
      cases hloaded
      exact comes_of_finish hresult

/-! ## Requests -/

/-- A request of the embedder is answered. -/
def Answers (host : Host σ H) (session : Session σ H) (request : Request σ H)
    (answer : request.Answer) (last : Session σ H) : Prop :=
  ∃ steps, session.answer host steps request = (some answer, last)

theorem answers_of_eq {request : Request σ H} {answer : request.Answer} {steps : Nat}
    (h : (session.answer host steps request).1 = some answer) :
    Answers host session request answer (session.answer host steps request).2 :=
  ⟨steps, Prod.ext h rfl⟩

variable {specifier : String} {base : Path}

theorem answers_resolve_iff {result : Except ModuleError Resolution} :
    Answers host session (.resolve specifier base) result last ↔
      Comes host (session.startResolve host specifier base .nil).1
        (session.startResolve host specifier base .nil).2 (result : Value σ H .resolution) last :=
  comes_iff_finish.symm

theorem answers_require_iff {result : Except ModuleError LoadedModule} :
    Answers host session (.require specifier base) result last ↔
      Comes host (session.startLoad host .immediate specifier base .nil).1
        (session.startLoad host .immediate specifier base .nil).2 (result : Value σ H .module) last :=
  comes_iff_finish.symm

theorem answers_reload_iff {report : ReloadResult} :
    Answers host session (.reload specifier base) report last ↔
      Comes host (session.startReload host specifier base .nil).1
        (session.startReload host specifier base .nil).2 (report : Value σ H .reload) last :=
  comes_iff_finish.symm

/-- Resolving for other work is to resolve, and then to go on with what it gives. -/
theorem comes_startResolve_iff {below : Stack σ H .resolution n} {value : Value σ H n} :
    Comes host (session.startResolve host specifier base below).1
        (session.startResolve host specifier base below).2 value last ↔
      ∃ (result : Value σ H .resolution) (middle : Session σ H),
        Answers host session (.resolve specifier base) result middle ∧
          Comes host ⟨.resolution, .done result, below⟩ middle value last := by
  have honto : session.startResolve host specifier base below =
      onto below (session.startResolve host specifier base .nil) := rfl
  rw [honto]
  refine comes_onto_iff.trans (exists_congr fun result => exists_congr fun middle => ?_)
  exact and_congr_left fun _ => answers_resolve_iff.symm

/-- Requiring for other work is to require, and then to go on with what it gives. -/
theorem comes_startLoad_iff {below : Stack σ H .module n} {value : Value σ H n} :
    Comes host (session.startLoad host .immediate specifier base below).1
        (session.startLoad host .immediate specifier base below).2 value last ↔
      ∃ (result : Value σ H .module) (middle : Session σ H),
        Answers host session (.require specifier base) result middle ∧
          Comes host ⟨.module, .done result, below⟩ middle value last := by
  have honto : session.startLoad host .immediate specifier base below =
      onto below (session.startLoad host .immediate specifier base .nil) := rfl
  rw [honto]
  refine comes_onto_iff.trans (exists_congr fun result => exists_congr fun middle => ?_)
  exact and_congr_left fun _ => answers_require_iff.symm

/-- What a specifier resolves to is settled. -/
theorem resolve_unique {first second : Except ModuleError Resolution}
    (h₁ : Answers host session (.resolve specifier base) first middle)
    (h₂ : Answers host session (.resolve specifier base) second last) :
    first = second ∧ middle = last :=
  Comes.unique (answers_resolve_iff.mp h₁) (answers_resolve_iff.mp h₂)

end Session

end ScriptModules
