import ScriptModules.Proofs.Loader.Bodies
import ScriptModules.Proofs.Loader.Dispatches

/-!
# Bodies under way

In a task the bodies of many modules are under way, one nested in the other.  A body gets its
replies at steps of the task: answers to operations at once, and values when what it asked for is
over (`Session.telling?`).  What all bodies have been told stands in a journal.

The invariant is about the stack of a task (`Focus.Follows`): the work above the frame of a body is
what its replies so far have left of it, and so will be what a waiting program goes on with, once
it gets its value.  A step tells at most one body, the only one with its record, so what is left of
all others stays as it is (`Session.follows_step`).
-/

namespace ScriptModules

open Registry (Claim InFlight)

variable {σ H : Type} {k m n : Kind}

/-! ## Who is told -/

/-- The load whose body a frame waits for. -/
def Frame.body? : Frame σ H k m → Option Load
  | .executing load _ => some load
  | _ => none

/-- The load whose body the innermost frame waits for. -/
def Stack.body? : {k n : Kind} → Stack σ H k n → Option Load
  | _, _, .nil => none
  | _, _, .cons frame _ => frame.body?

/-- The innermost frame waits for a body, or for something else. -/
@[elab_as_elim]
theorem Stack.cases_body {motive : {k n : Kind} → Stack σ H k n → Prop} {k n : Kind}
    (stack : Stack σ H k n)
    (body : ∀ {n : Kind} (load : Load) (handle : Handle) (rest : Stack σ H .module n),
      motive (.cons (.executing load handle) rest))
    (other : ∀ {k n : Kind} (stack : Stack σ H k n), stack.body? = none → motive stack) :
    motive stack := by
  cases stack with
  | nil => exact other .nil rfl
  | cons frame rest =>
      cases frame with
      | executing load handle => exact body load handle rest
      | _ => exact other _ rfl

/-- What the body of the module with a record is told when a frame gets a value. -/
def Frame.telling? (frame : Frame σ H k m) (value : Value σ H k) (rest : Stack σ H m n) :
    Option (ModuleId × Reply σ H) :=
  match frame with
  | .asking _ => rest.body?.map fun load => (load.id, .given k value)
  | _ => none

/-- What it is told at the next step of a focus. -/
def Session.telling? (focus : Focus σ H n) (session : Session σ H) :
    Option (ModuleId × Reply σ H) :=
  match focus with
  | ⟨_, .done value, .cons frame rest⟩ => frame.telling? value rest
  | ⟨_, .ask (.request (.operation operation)) _, stack⟩ =>
    stack.body?.map fun load => (load.id, .operated operation (session.perform operation).1)
  | _ => none

/-- The body of a load begins at the next step of a focus, with some bytecode, and fills a table
of exports. -/
def Session.BeginsBody (host : Host σ H) (session : Session σ H) (focus : Focus σ H n)
    (load : Load) (bytecode : Bytes) (handle : Handle) : Prop :=
  session.act? host focus = some (.ran load handle) ∧
    ∃ stack, (session.step host focus).1 = .running
      ⟨.execution, .ofBody load.base (host.execute bytecode load.key handle),
        .cons (.executing load handle) stack⟩

/-- What a step tells the body of the module with one record. -/
def Reply.to (id : ModuleId) : Option (ModuleId × Reply σ H) → List (Reply σ H)
  | some (told, reply) => if told = id then [reply] else []
  | none => []

theorem Reply.mem_to {id : ModuleId} {said : Option (ModuleId × Reply σ H)} {reply : Reply σ H} :
    reply ∈ Reply.to id said ↔ said = some (id, reply) := by
  constructor
  · intro h
    cases said with
    | none => cases h
    | some pair =>
        obtain ⟨told, other⟩ := pair
        rw [Reply.to] at h
        split at h
        · rename_i hid
          rw [List.mem_singleton.mp h, hid]
        · cases h
  · rintro rfl
    rw [Reply.to, if_pos rfl]
    exact List.mem_singleton_self _

/-! ## Journals -/

/-- What has been told of the bodies of modules. -/
structure Journal (σ H : Type) where
  /-- The bodies that have begun. -/
  begun : Load → Bytes → Handle → Prop
  /-- The replies that the body of the module with a record got. -/
  told : ModuleId → List (Reply σ H)

namespace Journal

/-- What is left of a body that has begun, when it gets some more replies. -/
def Reaches (host : Host σ H) (journal : Journal σ H) (more : List (Reply σ H)) (load : Load)
    (handle : Handle) (work : Work σ H (Value σ H .execution)) : Prop :=
  ∃ bytecode required rest, journal.begun load bytecode handle ∧
    (host.execute bytecode load.key handle).Hears (journal.told load.id ++ more) required rest ∧
      work = rest.workAt load.base required

/-- A journal goes on with what a step tells. -/
structure Adds (journal : Journal σ H) (said : Option (ModuleId × Reply σ H))
    (later : Journal σ H) : Prop where
  begun : ∀ {load bytecode handle},
    journal.begun load bytecode handle → later.begun load bytecode handle
  told : ∀ id, later.told id = journal.told id ++ Reply.to id said

end Journal

/-! ## Stacks that follow a journal -/

/-- Whether work fits the frame that waits for it, when its body gets some more replies. -/
def Frame.Accepts (host : Host σ H) (journal : Journal σ H) (more : List (Reply σ H)) :
    Frame σ H k m → Work σ H (Value σ H k) → Prop
  | .executing load handle, work => journal.Reaches host more load handle work
  | _, _ => True

/-- Whether work fits the innermost frame. -/
def Stack.Accepts (host : Host σ H) (journal : Journal σ H) (more : List (Reply σ H)) :
    {k n : Kind} → Stack σ H k n → Work σ H (Value σ H k) → Prop
  | _, _, .nil, _ => True
  | _, _, .cons frame _, work => frame.Accepts host journal more work

/-- Whether a program that waits will go on with work that fits. -/
def Frame.Follows (host : Host σ H) (journal : Journal σ H) :
    Frame σ H k m → Stack σ H m n → Prop
  | .asking next, rest => ∀ value, rest.Accepts host journal [.given _ value] (next value)
  | _, _ => True

/-- Whether all programs that wait will. -/
def Stack.Follows (host : Host σ H) (journal : Journal σ H) : {k n : Kind} → Stack σ H k n → Prop
  | _, _, .nil => True
  | _, _, .cons frame rest => frame.Follows host journal rest ∧ rest.Follows host journal

/-- The bodies of a focus are where a journal tells. -/
structure Focus.Follows (host : Host σ H) (journal : Journal σ H) (focus : Focus σ H n) : Prop where
  work : focus.stack.Accepts host journal [] focus.work
  stack : focus.stack.Follows host journal

/-- What the frames below the innermost one claim. -/
def Stack.lower : {k n : Kind} → Stack σ H k n → List Claim
  | _, _, .nil => []
  | _, _, .cons _ rest => rest.claims

section Following

variable {host : Host σ H} {journal later : Journal σ H} {more : List (Reply σ H)}
  {stack : Stack σ H k n} {work : Work σ H (Value σ H k)} {reply : Reply σ H} {load : Load}

theorem Stack.claims_eq (stack : Stack σ H k n) : stack.claims = stack.leading ++ stack.lower := by
  cases stack <;> rfl

theorem Stack.leading_of_body? (h : stack.body? = some load) :
    ∃ handle, stack.leading = [load.claim .executing (some handle)] := by
  cases stack using Stack.cases_body with
  | body own handle rest =>
      cases h
      exact ⟨handle, rfl⟩
  | other stack hnone => cases hnone.symm.trans h

/-- Only the outcome of a body is waited for by the frame of one. -/
theorem Stack.body?_of_ne (hk : k ≠ .execution) (stack : Stack σ H k n) : stack.body? = none := by
  cases stack using Stack.cases_body with
  | body load handle rest => exact absurd rfl hk
  | other stack hnone => exact hnone

theorem Stack.accepts_of_none (h : stack.body? = none) : stack.Accepts host journal more work := by
  cases stack with
  | nil => trivial
  | cons frame rest =>
      cases frame with
      | executing load handle => cases h
      | _ => trivial

/-- A frame in which no program waits asks nothing of the journal. -/
theorem Frame.follows_of_load? {frame : Frame σ H k m} (hf : frame.load? = some load)
    (rest : Stack σ H m n) : frame.Follows host journal rest := by
  cases frame with
  | asking next => cases hf
  | _ => trivial

/-! ## Going on with a journal -/

theorem Journal.Adds.told_none (h : journal.Adds none later) (id : ModuleId) :
    later.told id = journal.told id :=
  (h.told id).trans (List.append_nil _)

/-- Other bodies are told nothing. -/
theorem Journal.Adds.told_ne {said : Option (ModuleId × Reply σ H)} (h : journal.Adds said later)
    {id : ModuleId} (hne : ∀ reply, said ≠ some (id, reply)) :
    later.told id = journal.told id := by
  have hnone : Reply.to id said = [] :=
    List.eq_nil_iff_forall_not_mem.mpr fun reply hmem => hne reply (Reply.mem_to.mp hmem)
  rw [h.told, hnone, List.append_nil]

theorem Stack.Accepts.keep {said : Option (ModuleId × Reply σ H)}
    (h : stack.Accepts host journal more work) (ha : journal.Adds said later)
    (ht : ∀ claim ∈ stack.claims, later.told claim.id = journal.told claim.id) :
    stack.Accepts host later more work := by
  cases stack using Stack.cases_body with
  | other stack hnone => exact accepts_of_none hnone
  | body load handle rest =>
      obtain ⟨bytecode, required, left, hbegun, hhears, hwork⟩ := h
      have htold : later.told load.id = journal.told load.id :=
        ht (load.claim .executing (some handle)) List.mem_cons_self
      refine ⟨bytecode, required, left, ha.begun hbegun, ?_, hwork⟩
      rw [htold]
      exact hhears

/-- Only what is told to the bodies below matters for what programs go on with. -/
theorem Stack.Follows.keep {said : Option (ModuleId × Reply σ H)}
    (h : stack.Follows host journal) (ha : journal.Adds said later)
    (ht : ∀ claim ∈ stack.lower, later.told claim.id = journal.told claim.id) :
    stack.Follows host later := by
  induction stack with
  | nil => trivial
  | cons frame rest ih =>
      refine ⟨?_, ih h.2 fun claim hclaim => ht claim ?_⟩
      · cases frame with
        | asking next => exact fun value => (h.1 value).keep ha ht
        | _ => trivial
      · show claim ∈ rest.claims
        rw [rest.claims_eq]
        exact List.mem_append_right _ hclaim

theorem Focus.Follows.keep {focus : Focus σ H n} {said : Option (ModuleId × Reply σ H)}
    (h : focus.Follows host journal) (ha : journal.Adds said later)
    (ht : ∀ claim ∈ focus.claims, later.told claim.id = journal.told claim.id) :
    focus.Follows host later := by
  refine ⟨h.work.keep ha ht, h.stack.keep ha fun claim hclaim => ht claim ?_⟩
  show claim ∈ focus.stack.claims
  rw [focus.stack.claims_eq]
  exact List.mem_append_right _ hclaim

/-- A body that is told what it waits for goes on from there. -/
theorem Stack.Accepts.told (h : stack.Accepts host journal [reply] work)
    (ha : journal.Adds (stack.body?.map fun load => (load.id, reply)) later) :
    stack.Accepts host later [] work := by
  cases stack using Stack.cases_body with
  | other stack hnone => exact accepts_of_none hnone
  | body load handle rest =>
      obtain ⟨bytecode, required, left, hbegun, hhears, hwork⟩ := h
      have htold : later.told load.id = journal.told load.id ++ [reply] :=
        (ha.told load.id).trans (congrArg _ (if_pos rfl))
      refine ⟨bytecode, required, left, ha.begun hbegun, ?_, hwork⟩
      rw [htold, List.append_nil]
      exact hhears

/-- All others stay where they are. -/
theorem Focus.follows_told (hw : stack.Accepts host journal [reply] work)
    (hs : stack.Follows host journal) (hn : (stack.claims.map (·.id)).Nodup)
    (ha : journal.Adds (stack.body?.map fun load => (load.id, reply)) later) :
    Focus.Follows host later ⟨k, work, stack⟩ := by
  refine ⟨hw.told ha, hs.keep ha fun claim hclaim => ha.told_ne fun other hsaid => ?_⟩
  obtain ⟨load, hbody, heq⟩ := Option.map_eq_some_iff.mp hsaid
  obtain ⟨handle, hleading⟩ := Stack.leading_of_body? hbody
  rw [stack.claims_eq, hleading, List.singleton_append, List.map_cons, List.nodup_cons] at hn
  exact hn.1 (List.mem_map.mpr ⟨claim, hclaim, (congrArg Prod.fst heq).symm⟩)

/-- When nothing is told and work begins that is not that of a body, all stay where they are. -/
theorem Focus.follows_silent (hk : k ≠ .execution) (hs : stack.Follows host journal) :
    Focus.Follows host journal ⟨k, work, stack⟩ :=
  ⟨Stack.accepts_of_none (stack.body?_of_ne hk), hs⟩

/-- What is left of a body that has begun goes on as the body does. -/
theorem Journal.Reaches.works {handle : Handle} {work : Work σ H (Value σ H .execution)}
    (h : journal.Reaches host [] load handle work) : ∃ bytecode,
      journal.begun load bytecode handle ∧ BodyProgram.Works load.base
        (host.execute bytecode load.key handle) (journal.told load.id) work := by
  obtain ⟨bytecode, required, rest, hbegun, hhears, rfl⟩ := h
  rw [List.append_nil] at hhears
  exact ⟨bytecode, hbegun, hhears.works load.base⟩

/-- It takes any answer to its request. -/
theorem Stack.Accepts.answer {request : Request σ H}
    {next : request.Answer → Work σ H (Value σ H k)}
    (h : stack.Accepts host journal [] (.ask (.request request) next)) (answer : request.Answer) :
    stack.Accepts host journal [request.reply answer] (next answer) := by
  cases stack using Stack.cases_body with
  | other stack hnone => exact accepts_of_none hnone
  | body load handle rest =>
      obtain ⟨bytecode, hbegun, hworks⟩ := Journal.Reaches.works h
      cases hworks with
      | asks hnext =>
          obtain ⟨required, left, hhears, hwork⟩ := hnext answer
          exact ⟨bytecode, required, left, hbegun, hhears, hwork⟩

/-- And it makes no other requests than those to a loader. -/
theorem Stack.Accepts.body?_eq_none {request : WorkRequest σ H}
    {next : request.Answer → Work σ H (Value σ H k)}
    (h : stack.Accepts host journal [] (.ask request next))
    (hr : ∀ other, request ≠ .request other) : stack.body? = none := by
  cases stack using Stack.cases_body with
  | other stack hnone => exact hnone
  | body load handle rest =>
      obtain ⟨bytecode, hbegun, hworks⟩ := Journal.Reaches.works h
      cases hworks with
      | asks hnext => exact absurd rfl (hr _)

/-- A program that waits for an answer goes on with work that fits, whatever the answer is. -/
theorem Stack.follows_asking {request : Request σ H}
    {next : request.Answer → Work σ H (Value σ H k)}
    (hw : stack.Accepts host journal [] (.ask (.request request) next))
    (hs : stack.Follows host journal) (ha : journal.Adds none later) :
    (∀ answer, stack.Accepts host later [request.reply answer] (next answer)) ∧
      stack.Follows host later :=
  ⟨fun answer => (hw.answer answer).keep ha fun claim _ => ha.told_none claim.id,
    hs.keep ha fun claim _ => ha.told_none claim.id⟩

/-- Work that makes another request is not that of a body, and goes on by itself. -/
theorem Focus.follows_other {request : WorkRequest σ H}
    {next : request.Answer → Work σ H (Value σ H k)}
    (hw : stack.Accepts host journal [] (.ask request next)) (hs : stack.Follows host journal)
    (ha : journal.Adds none later) (hr : ∀ other, request ≠ .request other) :
    Focus.Follows host later ⟨k, work, stack⟩ :=
  ⟨Stack.accepts_of_none (hw.body?_eq_none hr), hs.keep ha fun claim _ => ha.told_none claim.id⟩

end Following

/-! ## Steps -/

namespace Journal

/-- No body has been told anything whose record may still begin to execute. -/
def Quiet (journal : Journal σ H) (registry : Registry) : Prop :=
  ∀ id, journal.told id ≠ [] → id.index < registry.records.size ∧
    ∀ record, registry.get? id = some record → record.state.canAdvance .executing = false

theorem Quiet.told_eq_nil {journal : Journal σ H} {registry : Registry} {id : ModuleId}
    {record : ModuleRecord} (h : journal.Quiet registry) (hr : registry.get? id = some record)
    (hn : record.state.canAdvance .executing = true) : journal.told id = [] := by
  by_contra htold
  cases hn.symm.trans ((h id htold).2 record hr)

end Journal

namespace Session

variable {host : Host σ H} {session : Session σ H} {journal later : Journal σ H}
  {others : List Claim}

/-- A journal goes on with a step. -/
structure Tells (host : Host σ H) (session : Session σ H) (focus : Focus σ H n)
    (journal later : Journal σ H) : Prop where
  adds : journal.Adds (session.telling? focus) later
  begins : ∀ {load bytecode handle},
    session.BeginsBody host focus load bytecode handle → later.begun load bytecode handle

/-- A body begins only while its record has not begun to execute. -/
theorem Pursues.first {load : Load} {record : ModuleRecord} {stack : Stack σ H .module n}
    {result : Focus σ H n × Session σ H} (h : Pursues load record stack session result)
    (hk : result.1.kind = .execution) : record.state.canAdvance .executing = true := by
  cases h with
  | waits hkind => rcases hkind with rfl | rfl <;> cases hk
  | begins _ hfirst => exact hfirst
  | succeeds => cases hk
  | fails => cases hk

/-- However a load goes on, its body has heard nothing before it begins. -/
theorem Continues.follows {load : Load} {frame : Frame σ H k .module} {value : Value σ H k}
    {stack : Stack σ H .module n}
    (hc : Continues host load stack session (resume host frame value stack session))
    (hf : frame.load? = some load) (hs : stack.Follows host later)
    (hnew : (resume host frame value stack session).1.kind = .execution → later.told load.id = [])
    (hbegins : ∀ {bytecode handle}, session.BeginsBody host ⟨k, .done value, .cons frame stack⟩
      load bytecode handle → later.begun load bytecode handle) :
    (resume host frame value stack session).1.Follows host later := by
  have hact := Frame.act?_of_load? hf (resume host frame value stack session).1
  generalize hresult : resume host frame value stack session = result at hc hnew hact
  cases hc with
  | waits hk hframe _ =>
      refine Focus.follows_silent ?_ ⟨Frame.follows_of_load? hframe stack, hs⟩
      rcases hk with rfl | rfl <;> decide
  | @runs bytecode handle after _ =>
      have hbegun : later.begun load bytecode handle := by
        refine hbegins ⟨?_, stack, ?_⟩
        · show frame.act? (resume host frame value stack session).1 = _
          rw [hresult]
          exact hact
        · show Progress.running (resume host frame value stack session).1 = _
          rw [hresult]
      refine ⟨⟨bytecode, [], _, hbegun, ?_, rfl⟩, trivial, hs⟩
      rw [hnew rfl]
      exact .begins
  | ends _ => exact Focus.follows_silent (by decide) hs

theorem follows_resume (host : Host σ H) (frame : Frame σ H k m) (value : Value σ H k)
    (stack : Stack σ H m n)
    (h : InFlight session.loader.registry (frame.claims ++ (stack.claims ++ others)))
    (ht : session.loader.registry.Tabled) (hs : (Stack.cons frame stack).Follows host journal)
    (hq : journal.Quiet session.loader.registry)
    (hj : Tells host session ⟨k, .done value, .cons frame stack⟩ journal later) :
    (resume host frame value stack session).1.Follows host later := by
  have hsilent : frame.telling? value stack = none → stack.Follows host later := by
    intro hnone
    have hadds : journal.Adds (frame.telling? value stack) later := hj.adds
    rw [hnone] at hadds
    exact hs.2.keep hadds fun claim _ => hadds.told_none claim.id
  cases frame using Frame.cases_load with
  | asking next =>
      have hnodup : (stack.claims.map (·.id)).Nodup := by
        have hids := h.nodup
        rw [List.map_append, List.map_append] at hids
        exact (List.nodup_append.mp (List.nodup_append.mp hids).2.1).1
      exact Focus.follows_told (hs.1 value) hs.2 hnodup hj.adds
  | counting => exact Focus.follows_silent (by decide) (hsilent rfl)
  | resolving order =>
      have hmeets : Meets host order stack session
          (resume host (.resolving order) value stack session) :=
        receiveResolution_meets host order value stack session
      generalize resume host (.resolving order) value stack session = result at hmeets ⊢
      cases hmeets with
      | ends _ => exact Focus.follows_silent (by decide) (hsilent rfl)
      | asks _ _ => exact Focus.follows_silent (by decide) ⟨trivial, hsilent rfl⟩
  | loading frame load hf =>
      have hnone : frame.telling? value stack = none := by
        cases frame with
        | asking next => cases hf
        | _ => rfl
      have hadds : journal.Adds none later := hnone ▸ hj.adds
      obtain ⟨record, hr, -⟩ := record_of_frame hf h
      have hpursues : Pursues load record stack session (resume host frame value stack session) :=
        resume_pursues host value hf h ht hr
      refine (resume_continues host value stack session hf).follows hf (hsilent hnone) ?_ hj.begins
      intro hkind
      rw [hadds.told_none]
      exact hq.told_eq_nil hr (hpursues.first hkind)
  | reloading reload =>
      have hrestarts : Restarts host reload stack session
          (resume host (.reloading reload) value stack session) :=
        receiveReload_restarts host reload value stack session
      generalize resume host (.reloading reload) value stack session = result at hrestarts ⊢
      cases hrestarts with
      | ends _ _ => exact Focus.follows_silent (by decide) (hsilent rfl)
      | begins _ _ =>
          exact Focus.follows_silent (by decide) ⟨trivial, trivial, trivial, hsilent rfl⟩
  | renewing reload key wasCached => exact Focus.follows_silent (by decide) (hsilent rfl)

/-- After a step all bodies are where the journal tells, if it goes on with the step. -/
theorem follows_step (host : Host σ H) {focus next : Focus σ H n}
    (h : InFlight session.loader.registry (focus.claims ++ others))
    (ht : session.loader.registry.Tabled) (hf : focus.Follows host journal)
    (hq : journal.Quiet session.loader.registry) (hj : Tells host session focus journal later)
    (hnext : (session.step host focus).1.focus? = some next) : next.Follows host later := by
  obtain ⟨kind, work, stack⟩ := focus
  cases work with
  | done value =>
      cases stack with
      | nil => cases hnext
      | cons frame rest =>
          cases hnext
          exact follows_resume host frame value rest (inFlight_frame h) ht hf.stack hq hj
  | ask request go =>
      have hnodup : (stack.claims.map (·.id)).Nodup := by
        have hids := h.nodup
        rw [List.map_append] at hids
        exact (List.nodup_append.mp hids).1
      cases request with
      | request request =>
          cases request with
          | operation operation =>
              cases hnext
              exact Focus.follows_told (hf.work.answer _) hf.stack hnodup hj.adds
          | resolve specifier base =>
              cases hnext
              exact Focus.follows_silent (by decide)
                (Stack.follows_asking hf.work hf.stack hj.adds)
          | require specifier base =>
              cases hnext
              obtain ⟨hasks, hkept⟩ := Stack.follows_asking hf.work hf.stack hj.adds
              exact Focus.follows_silent (by decide) ⟨trivial, trivial, hasks, hkept⟩
          | reload specifier base =>
              cases hnext
              obtain ⟨hasks, hkept⟩ := Stack.follows_asking hf.work hf.stack hj.adds
              exact Focus.follows_silent (by decide) ⟨trivial, hasks, hkept⟩
      | resolveDefault specifier context =>
          cases hnext
          exact Focus.follows_other hf.work hf.stack hj.adds nofun
      | loadDefault url context =>
          cases hnext
          exact Focus.follows_other hf.work hf.stack hj.adds nofun
      | pause =>
          rcases step_pause host go stack session with heq | heq <;> rw [heq] at hnext <;>
            cases hnext <;> exact Focus.follows_other hf.work hf.stack hj.adds nofun

end Session

end ScriptModules
