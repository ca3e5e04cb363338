import ScriptModules.Proofs.Loader.History
import ScriptModules.Proofs.Loader.Reload

/-!
# What the counters count

A call to load a module counts as started at once, and its outcome is counted when it
returns.  In between its frame is on the stack of a task, above the frames of whoever
made the call.  So the loads that are neither counted as successful nor as failed are those
whose frames are there, or were on the stack of a task that was dropped
(`Traffic.unreturned`).

When the specifier of a load is resolved, the registry is asked at most once: a hit is
counted, or a miss and a record is made, or neither.  Whatever one step does to the counters,
the records and the frames is one of seven postings (`Ledger.Posts`).
-/

namespace ScriptModules

variable {σ H : Type} {k m n : Kind}

/-! ## Books -/

/-- What a registry has counted, and how many records it has made. -/
structure Books where
  loads : LoadCounters
  hits : Nat
  misses : Nat
  made : Nat

namespace Books

/-- No counter is less than before. -/
structure Grows (before after : Books) : Prop where
  total : before.loads.total ≤ after.loads.total
  success : before.loads.success ≤ after.loads.success
  failed : before.loads.failed ≤ after.loads.failed
  hits : before.hits ≤ after.hits
  misses : before.misses ≤ after.misses

variable {before middle after : Books}

theorem Grows.refl (books : Books) : books.Grows books :=
  ⟨Nat.le_refl _, Nat.le_refl _, Nat.le_refl _, Nat.le_refl _, Nat.le_refl _⟩

theorem Grows.trans (h₁ : before.Grows middle) (h₂ : middle.Grows after) : before.Grows after :=
  ⟨Nat.le_trans h₁.total h₂.total, Nat.le_trans h₁.success h₂.success,
    Nat.le_trans h₁.failed h₂.failed, Nat.le_trans h₁.hits h₂.hits,
    Nat.le_trans h₁.misses h₂.misses⟩

end Books

namespace Registry

/-- Ids are given out in order, one for each record that is made. -/
def books (registry : Registry) : Books :=
  ⟨registry.loads, registry.hits, registry.misses, registry.records.size⟩

variable (registry : Registry) (id : ModuleId)

theorem books_modify (change : ModuleRecord → ModuleRecord) :
    (registry.modify id change).books = registry.books := by
  unfold books
  rw [size_modify]
  rfl

theorem books_advance (next : ModuleState) :
    (registry.advance id next).2.books = registry.books := by
  unfold advance
  split
  · rfl
  · split
    · exact books_modify ..
    · rfl

theorem books_beginExecution (store : ExportTables) :
    (registry.beginExecution store id).2.1.books = registry.books := by
  have hadvance := books_advance registry id .executing
  unfold beginExecution
  split
  · rename_i heq
    rw [heq] at hadvance
    exact hadvance
  · rename_i heq
    rw [heq] at hadvance
    split
    · exact hadvance
    · exact (books_modify ..).trans hadvance

theorem books_dropRecord : (registry.dropRecord id).books = registry.books := by
  unfold books
  rw [(drops_dropRecord registry id).size]
  rfl

theorem books_evict : (registry.evict id).books = registry.books := by
  unfold evict
  split
  · rfl
  · exact books_dropRecord registry id

theorem books_invalidate (key : String) : (registry.invalidate key).2.books = registry.books := by
  unfold invalidate
  split
  · rfl
  · exact books_dropRecord registry _

theorem books_foldl {α : Type} {change : Registry → α → Registry}
    (h : ∀ registry item, (change registry item).books = registry.books) (items : List α)
    (registry : Registry) : (items.foldl change registry).books = registry.books := by
  induction items generalizing registry with
  | nil => rfl
  | cons item items ih => exact (ih _).trans (h registry item)

theorem books_evictOverLimit : (registry.evictOverLimit id).books = registry.books :=
  books_foldl books_evict _ _

theorem books_clear : registry.clear.2.books = registry.books :=
  books_foldl (fun registry (pair : String × ModuleId) => books_invalidate registry pair.1) _ _

theorem books_complete : (registry.complete id).books = registry.books := by
  have hadvance := books_advance registry id .complete
  unfold complete
  split
  · rename_i heq
    rw [heq] at hadvance
    exact hadvance
  · rename_i heq
    rw [heq] at hadvance
    exact (books_evictOverLimit _ id).trans hadvance

theorem books_fail (message : String) : (registry.fail id message).books = registry.books := by
  have hadvance := books_advance registry id .errored
  unfold fail
  split
  · rename_i heq
    rw [heq] at hadvance
    exact hadvance
  · rename_i heq
    rw [heq] at hadvance
    exact (books_evictOverLimit _ id).trans ((books_modify ..).trans hadvance)

theorem books_insert (key : String) (format : ModuleFormat) :
    (registry.insert key format).2.books =
      { registry.books with made := registry.books.made + 1 } := by
  have hdropped := books_invalidate registry key
  unfold insert
  generalize (registry.invalidate key).2 = dropped at hdropped ⊢
  rw [← hdropped]
  unfold books
  simp only [Array.size_push]

end Registry

/-! ## Calls -/

/-- The outcome of every call is counted by a frame of its own. -/
def Frame.calls : Frame σ H k m → Nat
  | .counting => 1
  | _ => 0

/-- The calls for which the registry has still to be asked. -/
def Frame.undecided : Frame σ H k m → Nat
  | .resolving _ => 1
  | _ => 0

/-- The reload a frame belongs to. -/
def Frame.reload? : Frame σ H k m → Option Reload
  | .reloading reload | .renewing reload _ _ => some reload
  | _ => none

/-- What stands on a stack: calls, those of them for which the registry has still to be asked,
and reloads, each with the number of calls below it. -/
@[ext]
structure Standing where
  calls : Nat
  undecided : Nat
  reloads : List (Reload × Nat)

def Standing.push (frame : Frame σ H k m) (below : Standing) : Standing where
  calls := below.calls + frame.calls
  undecided := below.undecided + frame.undecided
  reloads := (frame.reload?.map (·, below.calls)).toList ++ below.reloads

def Stack.standing : {k n : Kind} → Stack σ H k n → Standing
  | _, _, .nil => ⟨0, 0, []⟩
  | _, _, .cons frame rest => rest.standing.push frame

def Focus.standing (focus : Focus σ H n) : Standing :=
  focus.stack.standing

/-- What stands on the stack of what is left to do. -/
def Progress.standing : Progress σ H n → Standing
  | .running focus | .suspended focus => focus.standing
  | .finished _ => ⟨0, 0, []⟩

/-- The frame of a load that has a record stands for nothing that is counted. -/
theorem Standing.push_of_load? {frame : Frame σ H k m} {load : Load} (h : frame.load? = some load)
    (below : Standing) : below.push frame = below := by
  cases frame with
  | fetching load' mode => rfl
  | awaiting load' => rfl
  | compiling load' source fingerprint => rfl
  | executing load' handle => rfl
  | _ => cases h

/-! ## Postings -/

/-- The books of a registry together with the calls that have not returned. -/
structure Ledger extends Books where
  calls : Nat
  undecided : Nat

def Books.ledger (books : Books) (calls undecided : Nat) : Ledger :=
  { books with calls, undecided }

namespace Ledger

/-- What a step may do to a ledger. -/
inductive Posts : Ledger → Ledger → Prop where
  | nothing (ledger : Ledger) : Posts ledger ledger
  | starts (ledger : Ledger) : Posts ledger
      { ledger with
        loads.total := ledger.loads.total + 1
        calls := ledger.calls + 1
        undecided := ledger.undecided + 1 }
  | succeeds (ledger : Ledger) : Posts { ledger with calls := ledger.calls + 1 }
      { ledger with loads.success := ledger.loads.success + 1 }
  | fails (ledger : Ledger) : Posts { ledger with calls := ledger.calls + 1 }
      { ledger with loads.failed := ledger.loads.failed + 1 }
  /-- Neither a hit nor a miss. -/
  | passes (ledger : Ledger) : Posts { ledger with undecided := ledger.undecided + 1 } ledger
  | hits (ledger : Ledger) : Posts { ledger with undecided := ledger.undecided + 1 }
      { ledger with hits := ledger.hits + 1 }
  | misses (ledger : Ledger) : Posts { ledger with undecided := ledger.undecided + 1 }
      { ledger with misses := ledger.misses + 1, made := ledger.made + 1 }

/-- What holds of a ledger at any time. -/
structure Balanced (ledger : Ledger) : Prop where
  loads : ledger.loads.total = ledger.loads.success + ledger.loads.failed + ledger.calls
  made : ledger.misses = ledger.made
  asked : ledger.hits + ledger.misses + ledger.undecided ≤ ledger.loads.total

variable {before after : Ledger}

theorem Posts.grows (h : Posts before after) : before.toBooks.Grows after.toBooks := by
  cases h <;> constructor <;> simp

/-- Every posting keeps a ledger balanced. -/
theorem Posts.balanced (h : Posts before after) (hb : before.Balanced) : after.Balanced := by
  cases h with
  | nothing => exact hb
  | starts ledger =>
      obtain ⟨hloads, hmade, hasked⟩ := hb
      refine ⟨?_, hmade, ?_⟩
      · show before.loads.total + 1 = before.loads.success + before.loads.failed + (before.calls + 1)
        omega
      · show before.hits + before.misses + (before.undecided + 1) ≤ before.loads.total + 1
        omega
  | succeeds ledger =>
      obtain ⟨hloads, hmade, hasked⟩ := hb
      refine ⟨?_, hmade, hasked⟩
      exact hloads.trans (by simp only; omega)
  | fails ledger =>
      obtain ⟨hloads, hmade, hasked⟩ := hb
      refine ⟨?_, hmade, hasked⟩
      exact hloads.trans (by simp only; omega)
  | passes ledger => exact ⟨hb.loads, hb.made, Nat.le_of_succ_le hb.asked⟩
  | hits ledger =>
      refine ⟨hb.loads, hb.made, Nat.le_trans (Nat.le_of_eq ?_) hb.asked⟩
      simp only
      omega
  | misses ledger =>
      refine ⟨hb.loads, congrArg (· + 1) hb.made, Nat.le_trans (Nat.le_of_eq ?_) hb.asked⟩
      simp only
      omega

end Ledger

/-! ## Steps -/

namespace Session

/-- The books of the registry of a loader. -/
def books (session : Session σ H) : Books :=
  session.loader.registry.books

/-- Nothing is posted, and no call or reload starts or ends. -/
structure Unposted (stack : Stack σ H m n) (session : Session σ H)
    (result : Focus σ H n × Session σ H) : Prop where
  books : result.2.books = session.books
  standing : result.1.standing = stack.standing

variable {host : Host σ H} {session middle after : Session σ H} {load : Load}
  {stack : Stack σ H .module n} {result : Focus σ H n × Session σ H}

/-- What is done to anything but the registry is not posted. -/
theorem books_congr (h : after.loader.registry = session.loader.registry) :
    after.books = session.books :=
  congrArg Registry.books h

/-- A frame is gone. -/
theorem unposted_over {stack : Stack σ H m n} {work : Work σ H (Value σ H m)}
    (h : after.books = session.books) : Unposted stack session (⟨m, work, stack⟩, after) :=
  ⟨h, rfl⟩

/-- A load that has a record waits for the next value. -/
theorem unposted_under (load : Load) {frame : Frame σ H k .module} {work : Work σ H (Value σ H k)}
    (hf : frame.load? = some load) (h : after.books = session.books) :
    Unposted stack session (⟨k, work, .cons frame stack⟩, after) :=
  ⟨h, Standing.push_of_load? hf _⟩

/-- What was done before is not posted either. -/
theorem Unposted.of_books (hp : Unposted stack middle result) (h : middle.books = session.books) :
    Unposted stack session result :=
  ⟨hp.books.trans h, hp.standing⟩

theorem failLoad_unposted (e : ModuleError) :
    Unposted stack session (failLoad load e stack session) :=
  unposted_over (Registry.books_fail ..)

theorem startBody_unposted (host : Host σ H) (bytecode : Bytes) (fingerprint : Option Fingerprint)
    (sourceLength : Nat) : Unposted stack session
      (startBody host load bytecode fingerprint sourceLength stack session) := by
  have hbegun : ((session.loader.registry.setCompiled load.id fingerprint
      sourceLength).beginExecution session.exports load.id).2.1.books = session.books :=
    (Registry.books_beginExecution ..).trans (Registry.books_modify ..)
  exact unposted_under load rfl hbegun

theorem books_adopt (handle : Handle) (session : Session σ H) :
    (session.adopt load handle).books = session.books := by
  have hbegun : ((session.loader.registry.setExports load.id handle).beginExecution
      session.exports load.id).2.1.books = session.books :=
    (Registry.books_beginExecution ..).trans (Registry.books_modify ..)
  exact (Registry.books_complete ..).trans hbegun

/-- However a load carries on with its record, nothing is posted. -/
theorem Carries.unposted {rest? : Option (Work σ H (Except ModuleError LoadOutput))}
    {state : ModuleState} {exports : Option Handle}
    (hc : Carries host load rest? stack state exports session result) :
    Unposted stack session result := by
  induction hc with
  | fails e _ _ => exact failLoad_unposted e
  | awaits _ => exact unposted_under load rfl rfl
  | receives format _ ih =>
      exact ih.of_books ((Registry.books_advance ..).trans (Registry.books_modify ..))
  | compiles source options fingerprint => exact unposted_under load rfl rfl
  | begins bytecode fingerprint sourceLength => exact startBody_unposted host _ _ _
  | adopts handle _ => exact unposted_over (books_adopt handle _)
  | completes handle dependencies =>
      exact unposted_over ((Registry.books_complete ..).trans (Registry.books_modify ..))
  | aside ha _ ih => exact ih.of_books (books_congr ha.registry)

/-- Whatever value the frame of a load gets, nothing is posted. -/
theorem resume_unposted (host : Host σ H) {frame : Frame σ H k .module} (value : Value σ H k)
    (hf : frame.load? = some load) :
    Unposted stack session (resume host frame value stack session) := by
  obtain ⟨state, exports, -, -, hcarries⟩ := resume_carries host value stack session hf
  exact hcarries.unposted

/-- A miss is counted for every record that is made. -/
theorem books_beginLoad (key : String) (format : Option ModuleFormat) (base : Path)
    (session : Session σ H) : (session.beginLoad key format base).2.books =
      { session.books with
        misses := session.books.misses + 1
        made := session.books.made + 1 } := by
  have hmade := Registry.books_insert session.loader.registry.countMiss key (format.getD .script)
  exact (Registry.books_advance ..).trans hmade

/-- What is posted when work goes on, whatever the calls of others.  No reload is begun. -/
structure Posts (before : Standing) (session : Session σ H) (result : Focus σ H n × Session σ H) :
    Prop where
  ledger : ∀ others waiting, Ledger.Posts
    (session.books.ledger (others + before.calls) (waiting + before.undecided))
    (result.2.books.ledger (others + result.1.standing.calls)
      (waiting + result.1.standing.undecided))
  reloads : ∀ entry ∈ result.1.standing.reloads, entry ∈ before.reloads

theorem Unposted.posts {stack : Stack σ H m n} (hp : Unposted stack session result) :
    Posts stack.standing session result := by
  refine ⟨fun others waiting => ?_, fun entry hentry => hp.standing ▸ hentry⟩
  rw [hp.standing, hp.books]
  exact .nothing _

/-- The outcome of a call is counted when it returns. -/
theorem countOutcome_posts (answer : Except ModuleError LoadedModule) :
    Posts (stack.standing.push (.counting : Frame σ H .module .module)) session
      (give answer stack (session.countOutcome answer)) := by
  refine ⟨fun others waiting => ?_, fun _ hentry => hentry⟩
  cases answer with
  | ok loaded => exact .succeeds (session.books.ledger (others + stack.standing.calls) _)
  | error e => exact .fails (session.books.ledger (others + stack.standing.calls) _)

/-- When the registry has been asked for a call, the call is not undecided any more. -/
theorem Unposted.asked (order : LoadOrder) (hp : Unposted stack middle result)
    (h : ∀ ledger : Ledger, ledger.toBooks = session.books →
      Ledger.Posts { ledger with undecided := ledger.undecided + 1 }
        (middle.books.ledger ledger.calls ledger.undecided)) :
    Posts (stack.standing.push (.resolving order : Frame σ H .resolution .module)) session
      result := by
  refine ⟨fun others waiting => ?_, fun entry hentry => hp.standing ▸ hentry⟩
  rw [hp.standing, hp.books]
  exact h (session.books.ledger (others + stack.standing.calls)
    (waiting + stack.standing.undecided)) rfl

/-- A call that is refused, or given what is running, has neither a hit nor a miss counted. -/
theorem passes_posts (order : LoadOrder) (answer : Except ModuleError LoadedModule) :
    Posts (stack.standing.push (.resolving order : Frame σ H .resolution .module)) session
      (give answer stack session) := by
  refine Unposted.asked order (unposted_over rfl) fun ledger hledger => ?_
  rw [← hledger]
  exact .passes ledger

/-- A resolved call has a hit counted if a complete module is served, or a miss if it gets a
record, or neither. -/
theorem Admits.posts {order : LoadOrder} {answer : Except ModuleError Resolution}
    (h : Admits host order stack session answer result) :
    Posts (stack.standing.push (.resolving order : Frame σ H .resolution .module)) session
      result := by
  cases h with
  | unresolved => exact passes_posts order _
  | refused _ => exact passes_posts order _
  | served hserved =>
      cases considers_of_eq hserved with
      | running _ _ _ _ => exact passes_posts order _
      | served _ _ _ _ _ =>
          refine Unposted.asked order (unposted_over rfl) fun ledger hledger => ?_
          show Ledger.Posts _
            ({ session.books with hits := session.books.hits + 1 }.ledger ledger.calls _)
          rw [← hledger]
          exact .hits ledger
  | @begins resolution _ =>
      have hmissed : ∀ ledger : Ledger, ledger.toBooks = session.books →
          Ledger.Posts { ledger with undecided := ledger.undecided + 1 }
            ((session.beginLoad resolution.url resolution.format order.base).2.books.ledger
              ledger.calls ledger.undecided) := by
        intro ledger hledger
        rw [books_beginLoad, ← hledger]
        exact .misses ledger
      exact Unposted.asked order (unposted_under _ rfl (books_congr rfl)) hmissed

/-- A call counts as started before its specifier is resolved. -/
theorem startLoad_posts (host : Host σ H) (mode : LoadMode) (specifier : String) (base : Path)
    (stack : Stack σ H .module n) (session : Session σ H) :
    Posts stack.standing session (session.startLoad host mode specifier base stack) := by
  refine ⟨fun others waiting => ?_, fun _ hentry => hentry⟩
  exact .starts (session.books.ledger (others + stack.standing.calls)
    (waiting + stack.standing.undecided))

theorem books_forget (key : String) (session : Session σ H) :
    (session.forget key).2.books = session.books := by
  obtain ⟨files, cache, hforgotten⟩ := session.forget_eq key
  rw [hforgotten]
  exact Registry.books_invalidate session.loader.registry key

/-- A reload that goes on requires its module. -/
theorem Reloads.posts {reload : Reload} {answer : Except ModuleError Resolution}
    {stack : Stack σ H .reload n} {result : Focus σ H n × Session σ H}
    (h : Reloads host reload stack session answer result) :
    Posts (stack.standing.push (.reloading reload : Frame σ H .resolution .reload)) session
      result := by
  cases h with
  | ends resolved wasCached outcome =>
      exact ⟨fun _ _ => .nothing _, fun _ hentry => List.mem_cons_of_mem _ hentry⟩
  | @begins resolution wasCached _ =>
      have hforgotten := books_forget resolution.url session
      generalize (session.forget resolution.url).2 = middle at hforgotten ⊢
      have hstarted : Posts (stack.standing.push
          (.renewing reload resolution.url wasCached : Frame σ H .module .reload)) middle
            (middle.startLoad host .immediate resolution.url reload.base
              (.cons (.renewing reload resolution.url wasCached) stack)) :=
        startLoad_posts host .immediate resolution.url reload.base
          (.cons (.renewing reload resolution.url wasCached) stack) middle
      refine ⟨fun others waiting => ?_, hstarted.reloads⟩
      rw [← hforgotten]
      exact hstarted.ledger others waiting

/-- What is posted when a value is handed to a frame. -/
theorem resume_posts (host : Host σ H) (frame : Frame σ H k m) (value : Value σ H k)
    (stack : Stack σ H m n) (session : Session σ H) :
    Posts (stack.standing.push frame) session (resume host frame value stack session) := by
  cases frame using Frame.cases_load with
  | asking next => exact (unposted_over rfl).posts
  | counting => exact countOutcome_posts value
  | resolving order => exact (admits host order value stack session).posts
  | loading frame load hf =>
      rw [Standing.push_of_load? hf]
      exact (resume_unposted host value hf).posts
  | reloading reload => exact (reloads host reload value stack session).posts
  | renewing reload key wasCached =>
      exact ⟨fun _ _ => .nothing _, fun _ hentry => List.mem_cons_of_mem _ hentry⟩

/-- The reload a focus is about to begin. -/
def reload? (session : Session σ H) : Focus σ H n → Option Reload
  | ⟨_, .ask (.request (.reload specifier base)) _, _⟩ => some (session.reloadOf specifier base)
  | _ => none

/-- What is posted at a step, and which reloads may have begun. -/
structure PostsStep (focus : Focus σ H n) (session : Session σ H)
    (result : Progress σ H n × Session σ H) : Prop where
  ledger : ∀ others waiting, Ledger.Posts
    (session.books.ledger (others + focus.standing.calls) (waiting + focus.standing.undecided))
    (result.2.books.ledger (others + result.1.standing.calls)
      (waiting + result.1.standing.undecided))
  reloads : ∀ entry ∈ result.1.standing.reloads, entry ∈ focus.standing.reloads ∨
    (session.reload? focus = some entry.1 ∧ entry.2 = focus.standing.calls)

theorem books_perform (session : Session σ H) (operation : Operation σ H) :
    (session.perform operation).2.books = session.books := by
  rcases registry_perform session operation with hsame | rfl
  · exact books_congr hsame
  · exact Registry.books_clear session.loader.registry

/-- What is posted at any step. -/
theorem step_posts (host : Host σ H) (focus : Focus σ H n) (session : Session σ H) :
    PostsStep focus session (session.step host focus) := by
  obtain ⟨kind, work, stack⟩ := focus
  have hsame : ∀ {after : Session σ H} {progress : Progress σ H n},
      after.books = session.books → progress.standing = stack.standing →
        PostsStep ⟨kind, work, stack⟩ session (progress, after) := by
    intro after progress hbooks hstanding
    refine ⟨fun others waiting => ?_, fun entry hentry => Or.inl ?_⟩
    · show Ledger.Posts (session.books.ledger (others + stack.standing.calls) _)
        (after.books.ledger (others + progress.standing.calls) _)
      rw [hstanding, hbooks]
      exact .nothing _
    · have hentry : entry ∈ progress.standing.reloads := hentry
      rw [hstanding] at hentry
      exact hentry
  cases work with
  | done value =>
      cases stack with
      | nil => exact hsame rfl rfl
      | cons frame rest =>
          have hposts := resume_posts host frame value rest session
          exact ⟨hposts.ledger, fun entry hentry => Or.inl (hposts.reloads entry hentry)⟩
  | ask request next =>
      cases request with
      | request request =>
          cases request with
          | operation operation => exact hsame (books_perform session operation) rfl
          | resolve specifier base => exact hsame rfl rfl
          | require specifier base =>
              have hposts := startLoad_posts host .immediate specifier base
                (.cons (.asking next) stack) session
              exact ⟨hposts.ledger, fun entry hentry => Or.inl (hposts.reloads entry hentry)⟩
          | reload specifier base =>
              refine ⟨fun _ _ => .nothing _, fun entry hentry => ?_⟩
              rcases List.mem_cons.mp hentry with rfl | hentry
              · exact Or.inr ⟨rfl, rfl⟩
              · exact Or.inl hentry
      | resolveDefault specifier context => exact hsame rfl rfl
      | loadDefault url context => exact hsame rfl rfl
      | pause =>
          rcases step_pause host next stack session with heq | heq <;> rw [heq]
          · exact hsame rfl rfl
          · exact hsame rfl rfl

end Session

end ScriptModules
