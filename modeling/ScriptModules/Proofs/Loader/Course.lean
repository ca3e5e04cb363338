import Mathlib.Data.List.Perm.Basic
import ScriptModules.Proofs.Loader.History

/-!
# How loads and tasks go on

Whatever value the frame of a load gets, the load waits for its contents or for the compiler, it
runs the body of its module, or it is over (`Session.resume_continues`).  None of this asks hooks,
and none of it begins another load.

A task that does a step goes on with what is left to do of it (`Progress.focus?`), and the others
stay as they are (`Traffic.flatMap_proceed`).  So it can be said of every task where it comes from
(`Traffic.arises`).
-/

namespace ScriptModules

variable {σ H : Type} {k m n : Kind}

/-- What a loader keeps of the requests it got: its hooks, which count how often they are asked,
and whether an entry module has been asked for. -/
def Loader.reception (loader : Loader H) : HookChain H × Bool :=
  (loader.hooks, loader.mainLoaded)

namespace Session

variable {session middle : Session σ H} {load : Load} {stack : Stack σ H .module n}
  {result : Focus σ H n × Session σ H} {host : Host σ H}

/-- How a load that has a record goes on with a value. -/
inductive Continues (host : Host σ H) (load : Load) (stack : Stack σ H .module n)
    (session : Session σ H) : Focus σ H n × Session σ H → Prop where
  | waits {kind : Kind} {work : Work σ H (Value σ H kind)} {frame : Frame σ H kind .module}
      {after : Session σ H} (hk : kind = .output ∨ kind = .bytecode)
      (hf : frame.load? = some load) (h : after.loader.reception = session.loader.reception) :
      Continues host load stack session (⟨kind, work, .cons frame stack⟩, after)
  | runs {bytecode : Bytes} {handle : Handle} {after : Session σ H}
      (h : after.loader.reception = session.loader.reception) :
      Continues host load stack session
        (⟨.execution, .ofBody load.base (host.execute bytecode load.key handle),
          .cons (.executing load handle) stack⟩, after)
  | ends {answer : Except ModuleError LoadedModule} {after : Session σ H}
      (h : after.loader.reception = session.loader.reception) :
      Continues host load stack session (⟨.module, .done answer, stack⟩, after)

theorem Continues.reception (h : Continues host load stack session result) :
    result.2.loader.reception = session.loader.reception := by
  cases h with
  | waits _ _ h => exact h
  | runs h => exact h
  | ends h => exact h

/-- What is done before and leaves hooks alone does not count. -/
theorem Continues.after (hp : Continues host load stack middle result)
    (h : middle.loader.reception = session.loader.reception) :
    Continues host load stack session result := by
  cases hp with
  | waits hk hf h' => exact .waits hk hf (h'.trans h)
  | runs h' => exact .runs (h'.trans h)
  | ends h' => exact .ends (h'.trans h)

theorem Aside.reception (h : session.Aside middle) :
    middle.loader.reception = session.loader.reception := by
  cases h <;> rfl

theorem Carries.continues {rest? : Option (Work σ H (Except ModuleError LoadOutput))}
    {state : ModuleState} {exports : Option Handle}
    (hc : Carries host load rest? stack state exports session result) :
    Continues host load stack session result := by
  induction hc with
  | fails e _ _ => exact .ends rfl
  | awaits _ => exact .waits (Or.inl rfl) rfl rfl
  | receives format _ ih => exact ih.after rfl
  | compiles source options fingerprint => exact .waits (Or.inr rfl) rfl rfl
  | begins bytecode fingerprint sourceLength => exact .runs rfl
  | adopts handle _ => exact .ends rfl
  | completes handle dependencies => exact .ends rfl
  | aside ha _ ih => exact ih.after ha.reception

/-- Whatever value the frame of a load gets, the load goes on in one of these ways. -/
theorem resume_continues (host : Host σ H) {frame : Frame σ H k .module} (value : Value σ H k)
    (stack : Stack σ H .module n) (session : Session σ H) (hf : frame.load? = some load) :
    Continues host load stack session (resume host frame value stack session) := by
  obtain ⟨state, exports, -, -, hcarries⟩ := resume_carries host value stack session hf
  exact hcarries.continues

end Session

/-! ## Tasks -/

/-- What is left to do, if there is anything. -/
def Progress.focus? : Progress σ H n → Option (Focus σ H n)
  | .running focus | .suspended focus => some focus
  | .finished _ => none

namespace Traffic

variable {traffic : Traffic σ H} {index : Nat} {task : Task σ H}
  {result : Progress σ H n × Session σ H}

theorem tasks_proceed_of_some {focus : Focus σ H n} (h : result.1.focus? = some focus) :
    (traffic.proceed index result).tasks = traffic.tasks.set index ⟨n, focus⟩ := by
  obtain ⟨progress, session⟩ := result
  cases progress with
  | running next =>
      cases h
      rfl
  | suspended next =>
      cases h
      rfl
  | finished value => cases h

theorem tasks_proceed_of_none (h : result.1.focus? = none) :
    (traffic.proceed index result).tasks = traffic.tasks.eraseIdx index := by
  obtain ⟨progress, session⟩ := result
  cases progress with
  | finished value => rfl
  | _ => cases h

/-- After a step a task is one of the others, or what is left of the one that did it. -/
theorem mem_tasks_proceed (hlt : index < traffic.tasks.length)
    (h : task ∈ (traffic.proceed index result).tasks) :
    task ∈ traffic.tasks.eraseIdx index ∨
      ∃ focus, result.1.focus? = some focus ∧ task = ⟨n, focus⟩ := by
  cases hfocus : result.1.focus? with
  | none =>
      rw [tasks_proceed_of_none hfocus] at h
      exact Or.inl h
  | some focus =>
      rw [tasks_proceed_of_some hfocus] at h
      refine (List.mem_cons.mp ((List.set_perm_cons_eraseIdx hlt _).mem_iff.mp h)).symm.imp_right ?_
      exact fun heq => ⟨focus, rfl, heq⟩

/-- Where a task comes from that there is after an event: it is one of those that do no step, it
starts, or it is what is left of the one that does a step. -/
inductive Arises (host : Host σ H) (traffic : Traffic σ H) (event : TrafficEvent σ H) :
    Task σ H → Prop where
  | stays {task : Task σ H} (h : task ∈ traffic.tasks)
      (ho : ∀ index, event = .advanced index → task ∈ traffic.tasks.eraseIdx index) :
      Arises host traffic event task
  | loads (mode : LoadMode) (specifier : String) (base : Path) :
      Arises host traffic event ⟨_, (traffic.session.startLoad host mode specifier base .nil).1⟩
  | resolves (specifier : String) (base : Path) :
      Arises host traffic event ⟨_, (traffic.session.startResolve host specifier base .nil).1⟩
  | reloads (specifier : String) (base : Path) :
      Arises host traffic event ⟨_, (traffic.session.startReload host specifier base .nil).1⟩
  | steps {index : Nat} {stepping : Task σ H} {next : Focus σ H stepping.kind}
      (he : event = .advanced index) (ht : traffic.tasks[index]? = some stepping)
      (hn : (traffic.session.step host stepping.focus).1.focus? = some next) :
      Arises host traffic event ⟨stepping.kind, next⟩

theorem arises {host : Host σ H} {event : TrafficEvent σ H}
    (h : task ∈ (traffic.after host event).tasks) : Arises host traffic event task := by
  have hstart : ∀ {n : Kind} {started : Focus σ H n × Session σ H},
      task ∈ (traffic.start started).tasks → (∀ index, event ≠ .advanced index) →
        Arises host traffic event ⟨n, started.1⟩ → Arises host traffic event task := by
    intro n started hmem hidle hstarted
    rcases List.mem_append.mp hmem with hold | hnew
    · exact .stays hold fun index heq => absurd heq (hidle index)
    · rw [List.mem_singleton.mp hnew]
      exact hstarted
  cases event with
  | imported specifier base =>
      exact hstart h (by rintro _ ⟨⟩) (.loads .suspendable specifier base)
  | required specifier base => exact hstart h (by rintro _ ⟨⟩) (.loads .immediate specifier base)
  | resolved specifier base => exact hstart h (by rintro _ ⟨⟩) (.resolves specifier base)
  | reloaded specifier base => exact hstart h (by rintro _ ⟨⟩) (.reloads specifier base)
  | operated operation => exact .stays h (by rintro _ ⟨⟩)
  | changed surroundings => exact .stays h (by rintro _ ⟨⟩)
  | dropped index =>
      simp only [after] at h
      split at h
      · exact .stays (List.mem_of_mem_eraseIdx h) (by rintro _ ⟨⟩)
      · exact .stays h (by rintro _ ⟨⟩)
  | advanced index =>
      cases hindex : traffic.tasks[index]? with
      | none =>
          simp only [after, hindex] at h
          refine .stays h fun place heq => ?_
          cases heq
          rw [List.eraseIdx_of_length_le (List.getElem?_eq_none_iff.mp hindex)]
          exact h
      | some stepping =>
          simp only [after, hindex] at h
          have hlt := (List.getElem?_eq_some_iff.mp hindex).1
          rcases mem_tasks_proceed hlt h with hother | ⟨next, hnext, rfl⟩
          · refine .stays (List.mem_of_mem_eraseIdx hother) fun place heq => ?_
            cases heq
            exact hother
          · exact .steps rfl hindex hnext

/-- What there is of all tasks after a step. -/
theorem flatMap_proceed {α : Type} (f : Task σ H → List α) (h : traffic.tasks[index]? = some task)
    (result : Progress σ H n × Session σ H) :
    ((traffic.proceed index result).tasks.flatMap f).Perm
      ((result.1.focus?.map fun focus => f ⟨n, focus⟩).getD [] ++
        (traffic.tasks.eraseIdx index).flatMap f) := by
  have hlt := (List.getElem?_eq_some_iff.mp h).1
  cases hfocus : result.1.focus? with
  | none =>
      rw [tasks_proceed_of_none hfocus]
      exact .refl _
  | some focus =>
      rw [tasks_proceed_of_some hfocus]
      have hperm := flatMap_perm f (List.getElem?_set_self (a := ⟨n, focus⟩) hlt)
      rw [List.eraseIdx_set_eq] at hperm
      exact hperm

end Traffic

end ScriptModules
