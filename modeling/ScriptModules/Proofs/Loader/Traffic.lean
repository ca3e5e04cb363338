import ScriptModules.Loader.Machine
import ScriptModules.Proofs.Loader.Claims

/-!
# A loader at work

Several things may be under way in a loader at a time: imports that are suspended,
and what the embedder asked for meanwhile.  Each is a *task*, a focus of its own over
the session all share.  An event starts a task, lets one do a step, or drops one; the
embedder may also do operations and change what the loader works on.

Any task may do the next step, whether or not others are suspended.  So runs here take
every order that callbacks and suspension allow, and more.
-/

namespace ScriptModules

open Registry (Claim InFlight)

variable {σ H : Type}

/-! ## Tasks -/

/-- What is going on somewhere. -/
structure Task (σ H : Type) where
  kind : Kind
  focus : Focus σ H kind

/-- A loader with all that is under way in it. -/
structure Traffic (σ H : Type) where
  session : Session σ H
  tasks : List (Task σ H) := []
  /-- The claims of tasks that were dropped.  Their records stay. -/
  abandoned : List Claim := []

/-- What happens in a loader. -/
inductive TrafficEvent (σ H : Type) where
  | imported (specifier : String) (base : Path)
  | required (specifier : String) (base : Path)
  | resolved (specifier : String) (base : Path)
  | reloaded (specifier : String) (base : Path)
  | operated (operation : Operation σ H)
  /-- One of the tasks does a step. -/
  | advanced (index : Nat)
  /-- One of the tasks is dropped before it is finished. -/
  | dropped (index : Nat)
  /-- What the loader works on becomes something else, by whatever hand. -/
  | changed (surroundings : Surroundings σ)

namespace Traffic

/-- What all frames of all tasks claim, and what was abandoned. -/
def claims (traffic : Traffic σ H) : List Claim :=
  traffic.tasks.flatMap (·.focus.claims) ++ traffic.abandoned

/-- A task is started. -/
def start {n : Kind} (traffic : Traffic σ H) (started : Focus σ H n × Session σ H) :
    Traffic σ H :=
  { traffic with session := started.2, tasks := traffic.tasks ++ [⟨n, started.1⟩] }

/-- One of the tasks has done a step. -/
def proceed {n : Kind} (traffic : Traffic σ H) (index : Nat) :
    Progress σ H n × Session σ H → Traffic σ H
  | (.finished _, session) => { traffic with session, tasks := traffic.tasks.eraseIdx index }
  | (.running focus, session) | (.suspended focus, session) =>
    { traffic with session, tasks := traffic.tasks.set index ⟨n, focus⟩ }

/-- The loader after an event.  An event that names no task does nothing. -/
def after (host : Host σ H) (traffic : Traffic σ H) : TrafficEvent σ H → Traffic σ H
  | .imported specifier base => traffic.start (traffic.session.startImport host specifier base)
  | .required specifier base =>
    traffic.start (traffic.session.startLoad host .immediate specifier base .nil)
  | .resolved specifier base =>
    traffic.start (traffic.session.startResolve host specifier base .nil)
  | .reloaded specifier base =>
    traffic.start (traffic.session.startReload host specifier base .nil)
  | .operated operation => { traffic with session := (traffic.session.perform operation).2 }
  | .advanced index =>
    match traffic.tasks[index]? with
    | some task => traffic.proceed index (traffic.session.step host task.focus)
    | none => traffic
  | .dropped index =>
    match traffic.tasks[index]? with
    | some task =>
      { traffic with
        tasks := traffic.tasks.eraseIdx index
        abandoned := task.focus.claims ++ traffic.abandoned }
    | none => traffic
  | .changed surroundings =>
    { traffic with session := { traffic.session with toSurroundings := surroundings } }

/-- A loader that was just opened. -/
def opened (surroundings : Surroundings σ) (loader : Loader H) : Traffic σ H :=
  { session := { toSurroundings := surroundings, loader } }

/-- What a loader may come to, from when it was opened. -/
inductive Reached (host : Host σ H) : Traffic σ H → Prop where
  | opened {config : Config} {before : FileSystem} {loader : Loader H}
      (surroundings : Surroundings σ)
      (h : Loader.openWith config before = (.ok loader, surroundings.files)) :
      Reached host { session := { toSurroundings := surroundings, loader } }
  | step {traffic : Traffic σ H} (event : TrafficEvent σ H) (h : Reached host traffic) :
      Reached host (traffic.after host event)

/-! ## The claims of one task and of the others -/

/-- The claims of all but one task, and what was abandoned. -/
def others (traffic : Traffic σ H) (index : Nat) : List Claim :=
  (traffic.tasks.eraseIdx index).flatMap (·.focus.claims) ++ traffic.abandoned

theorem flatMap_perm {α β : Type} (f : α → List β) {items : List α} {index : Nat} {item : α}
    (h : items[index]? = some item) :
    (items.flatMap f).Perm (f item ++ (items.eraseIdx index).flatMap f) := by
  induction items generalizing index with
  | nil => cases h
  | cons first items ih =>
      cases index with
      | zero =>
          cases h
          exact List.Perm.refl _
      | succ index =>
          rw [List.getElem?_cons_succ] at h
          have hrest := ih h
          rw [List.flatMap_cons, List.eraseIdx_cons_succ, List.flatMap_cons]
          refine (hrest.append_left (f first)).trans ?_
          rw [← List.append_assoc, ← List.append_assoc]
          exact List.perm_append_comm.append_right _

variable {traffic : Traffic σ H} {index : Nat} {task : Task σ H}

theorem claims_perm (h : traffic.tasks[index]? = some task) :
    traffic.claims.Perm (task.focus.claims ++ traffic.others index) := by
  unfold claims others
  rw [← List.append_assoc]
  exact (flatMap_perm (fun task : Task σ H => task.focus.claims) h).append_right _

/-- Dropping a task keeps its claims. -/
theorem claims_drop (h : traffic.tasks[index]? = some task) :
    traffic.claims.Perm (claims { traffic with
      tasks := traffic.tasks.eraseIdx index
      abandoned := task.focus.claims ++ traffic.abandoned }) := by
  refine (claims_perm h).trans ?_
  unfold others claims
  rw [← List.append_assoc, ← List.append_assoc]
  exact List.perm_append_comm.append_right _

theorem session_proceed {n : Kind} (result : Progress σ H n × Session σ H) :
    (traffic.proceed index result).session = result.2 := by
  obtain ⟨progress, session⟩ := result
  cases progress <;> rfl

/-- After a step the claims are those of what is left to do, and of the other tasks. -/
theorem claims_proceed (h : traffic.tasks[index]? = some task) {n : Kind}
    (result : Progress σ H n × Session σ H) :
    (traffic.proceed index result).claims.Perm (result.1.claims ++ traffic.others index) := by
  obtain ⟨progress, session⟩ := result
  have hlt := (List.getElem?_eq_some_iff.mp h).1
  have hset : ∀ focus : Focus σ H n,
      ((traffic.tasks.set index ⟨n, focus⟩).flatMap (·.focus.claims) ++ traffic.abandoned).Perm
        (focus.claims ++ traffic.others index) := by
    intro focus
    have hget : (traffic.tasks.set index ⟨n, focus⟩)[index]? = some ⟨n, focus⟩ := by
      rw [List.getElem?_set_self hlt]
    have hperm := flatMap_perm (fun task : Task σ H => task.focus.claims) hget
    rw [List.eraseIdx_set_eq] at hperm
    rw [others, ← List.append_assoc]
    exact hperm.append_right _
  cases progress with
  | finished value => exact List.Perm.refl _
  | running focus => exact hset focus
  | suspended focus => exact hset focus

/-! ## Running tasks -/

variable {host : Host σ H} {n : Kind}

/-- The task that was started last does a step. -/
theorem after_advanced_last (session : Session σ H) (tasks : List (Task σ H))
    (abandoned : List Claim) (focus : Focus σ H n) :
    after host { session, tasks := tasks ++ [⟨n, focus⟩], abandoned } (.advanced tasks.length) =
      match session.step host focus with
      | (.finished _, session) => { session, tasks, abandoned }
      | (.running focus, session) | (.suspended focus, session) =>
        { session, tasks := tasks ++ [⟨n, focus⟩], abandoned } := by
  rw [after, List.getElem?_concat_length]
  simp only
  cases session.step host focus with
  | mk progress session =>
      cases progress <;> simp [proceed, List.eraseIdx_append_of_length_le]

/-- A task that is run to its end comes to what steps of it come to. -/
theorem Reached.finish (steps : Nat) {session : Session σ H} {tasks : List (Task σ H)}
    {abandoned : List Claim} {focus : Focus σ H n}
    (h : Reached host { session, tasks := tasks ++ [⟨n, focus⟩], abandoned }) :
    ∃ left, Reached host
        { session := (session.finish host steps focus).2, tasks := tasks ++ left, abandoned } ∧
      ((session.finish host steps focus).1.isSome = true → left = []) := by
  induction steps generalizing session focus with
  | zero => exact ⟨[⟨n, focus⟩], h, fun hnever => (nomatch hnever)⟩
  | succ steps ih =>
      have hstep := h.step (.advanced tasks.length)
      rw [after_advanced_last] at hstep
      unfold Session.finish
      cases hresult : session.step host focus with
      | mk progress next =>
          rw [hresult] at hstep
          cases progress with
          | finished value =>
              refine ⟨[], ?_, fun _ => rfl⟩
              rw [List.append_nil]
              exact hstep
          | running focus => exact ih hstep
          | suspended focus => exact ih hstep

/-- Answering a request of the embedder comes to what events come to; when it is answered,
no task is left. -/
theorem Reached.answer (steps : Nat) {session : Session σ H} {tasks : List (Task σ H)}
    {abandoned : List Claim} (h : Reached host { session, tasks, abandoned })
    (request : Request σ H) :
    ∃ left, Reached host
        { session := (session.answer host steps request).2, tasks := tasks ++ left, abandoned } ∧
      ((session.answer host steps request).1.isSome = true → left = []) := by
  cases request with
  | operation operation =>
      refine ⟨[], ?_, fun _ => rfl⟩
      rw [List.append_nil]
      exact h.step (.operated operation)
  | resolve specifier base => exact (h.step (.resolved specifier base)).finish steps
  | require specifier base => exact (h.step (.required specifier base)).finish steps
  | reload specifier base => exact (h.step (.reloaded specifier base)).finish steps

/-- So does serving a program of the embedder. -/
theorem Reached.serve (steps : Nat) {α : Type} (program : Program (loaderInterface σ H) α)
    {session : Session σ H} {tasks : List (Task σ H)} {abandoned : List Claim}
    (h : Reached host { session, tasks, abandoned }) :
    ∃ left, Reached host
        { session := (session.serve host steps program).2, tasks := tasks ++ left, abandoned } ∧
      ((session.serve host steps program).1.isSome = true → left = []) := by
  induction program generalizing session with
  | done result =>
      refine ⟨[], ?_, fun _ => rfl⟩
      rw [List.append_nil]
      exact h
  | ask request next ih =>
      obtain ⟨left, hleft, hanswered⟩ := h.answer steps request
      unfold Session.serve
      cases hresult : session.answer host steps request with
      | mk answer later =>
          rw [hresult] at hleft hanswered
          cases answer with
          | none => exact ⟨left, hleft, fun hnever => (nomatch hnever)⟩
          | some answer =>
              rw [hanswered rfl, List.append_nil] at hleft
              exact ih answer hleft

/-- An import that is started and run comes to what events come to, and what is left to do
of it is a task. -/
theorem Reached.run (steps : Nat) {session : Session σ H} {tasks : List (Task σ H)}
    {abandoned : List Claim} {focus : Focus σ H n}
    (h : Reached host { session, tasks := tasks ++ [⟨n, focus⟩], abandoned }) :
    match session.run host steps focus with
    | (.finished _, later) => Reached host { session := later, tasks, abandoned }
    | (.running focus, later) | (.suspended focus, later) =>
      Reached host { session := later, tasks := tasks ++ [⟨n, focus⟩], abandoned } := by
  induction steps generalizing session focus with
  | zero => exact h
  | succ steps ih =>
      have hstep := h.step (.advanced tasks.length)
      rw [after_advanced_last] at hstep
      unfold Session.run
      cases hresult : session.step host focus with
      | mk progress next =>
          rw [hresult] at hstep
          cases progress with
          | finished value => exact hstep
          | running focus => exact ih hstep
          | suspended focus => exact hstep

end Traffic

end ScriptModules
