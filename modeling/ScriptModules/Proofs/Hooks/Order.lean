import ScriptModules.Proofs.Hooks.Turns

/-!
# The order in which a chain asks its hooks

Whatever its hooks do, a chain writes a log in which each note is allowed by those before it
(`resolveLogged_tells`, `loadAwaitLogged_tells`).  The proof goes through the chain from the
oldest hook to the newest one: an invocation keeps to the order if those on its behalf do
(`InTurn`).

A reply of a load hook that is pending has a rest of its invocation in it, which is run when the
reply is awaited, if it ever is.  By then other invocations may have been noted, but no more of
this one (`Awaitable`), as a reply is awaited once only.
-/

namespace ScriptModules

open ChainNote
open Program (write)

variable {I : Interface} {σ H A R α β : Type}

/-! ## An invocation -/

section
variable {allowed : List (ChainNote A R) → ChainNote A R → Prop}
  {accept : Nat → Nat → Except ModuleError R → Except ModuleError R} {ids path : List Nat}
  {arguments given : A} {start log : List (ChainNote A R)} {id count : Nat}

/-- What an invocation of a hook gives is what has been noted as its result. -/
def Returns (path : List Nat) (hook : Option Nat) (log : List (ChainNote A R))
    (result : Except ModuleError R) : Prop :=
  ∀ id, hook = some id → ∃ given, .ended path id given result ∈ log

theorem Returns.of_part {hook : Option Nat} {other : List (ChainNote A R)}
    {result : Except ModuleError R} (h : Returns path hook log result)
    (hpart : part path other = part path log) : Returns path hook other result := by
  intro id hid
  obtain ⟨given, hended⟩ := h id hid
  have hmem := mem_part.mpr ⟨hended, List.suffix_refl _⟩
  exact ⟨given, (mem_part.mp (hpart ▸ hmem)).1⟩

/-- An invocation that nothing is noted of yet keeps to the order, when it is its turn. -/
def InTurn (allowed : List (ChainNote A R) → ChainNote A R → Prop) (path : List Nat)
    (hook : Option Nat) (given : A) (invocation : Program (I.noted (ChainNote A R)) α)
    (post : α → List (ChainNote A R) → Prop) : Prop :=
  ∀ log, part path log = [] → allowed log (.entered path hook given) →
    invocation.Safe allowed (fun result after => Grows path log after ∧ post result after) log

/-- A hook goes on, and with what comes of it, it goes on as a program. -/
theorem safe_goesOn {next : Program (I.noted (ChainNote A R)) α}
    {rest : α → Program (I.noted (ChainNote A R)) β} {came : α → List (ChainNote A R) → Prop}
    {post : β → List (ChainNote A R) → Prop} (hopen : Open path id count log)
    (hnext : InTurn (Allowed accept ids arguments) (count :: path) ids[path.length + 1]? given
      next came)
    (hrest : ∀ result after, Grows (count :: path) (log ++ [.wentOn path count given]) after →
      came result after → (rest result).Safe (Allowed accept ids arguments) post after) :
    ((write (.wentOn path count given)).bind fun _ => next.bind rest).Safe
      (Allowed accept ids arguments) post log := by
  have hwent : Allowed accept ids arguments log (.wentOn path count given) := by
    rw [← hopen.calls_eq]
    exact .goesOn hopen.running
  have hfresh : part (count :: path) (log ++ [.wentOn path count given]) = [] := by
    rw [part_snoc_of_not (not_cons_suffix count path), hopen.fresh count (Nat.le_refl count)]
  refine Program.Safe.write_bind hwent (Program.Safe.bind ?_)
  exact (hnext _ hfresh .next).mono fun result after h => hrest result after h.1 h.2

/-- An invocation ends, and gives what becomes of its result. -/
theorem safe_ended {result : Except ModuleError R} (hopen : Open path id count log) :
    ((write (.ended path id result (accept id count result))).bind fun _ =>
      .done (accept id count result) : Program (I.noted (ChainNote A R)) _).Safe
      (Allowed accept ids arguments)
      (fun result after => Grows path log after ∧ Returns path (some id) after result) log := by
  have hended : Allowed accept ids arguments log
      (.ended path id result (accept id count result)) := by
    rw [← hopen.calls_eq]
    exact .ends hopen.running
  refine Program.Safe.write_bind hended (Program.safe_done ⟨grows_snoc log _, ?_⟩)
  rintro _ ⟨⟩
  exact ⟨result, List.mem_append_right _ (List.mem_singleton_self _)⟩

end

/-- The hook of an invocation, in a chain of which the rest is known. -/
theorem drop_hooks {ids rest : List Nat} {id number : Nat} (h : ids.drop number = id :: rest) :
    ids[number]? = some id ∧ ids.drop (number + 1) = rest := by
  constructor
  · rw [← List.head?_drop, h, List.head?_cons]
  · rw [← List.tail_drop, h, List.tail_cons]

/-! ## Resolve hooks -/

abbrev ResolveAllowed (ids : List Nat) (arguments : String × ResolveContext) :=
  Allowed acceptResolution ids arguments

/-- The rest of a chain keeps to the order, for invocations with a path. -/
def ResolvesInTurn (ids : List Nat) (arguments : String × ResolveContext)
    (next : NextResolveLogged σ H) (path : List Nat) : Prop :=
  ∀ specifier context, InTurn (ResolveAllowed ids arguments) path ids[path.length]?
    (specifier, context) (next path specifier context)
    fun result after => Returns path ids[path.length]? after result

section
variable {ids path : List Nat} {arguments : String × ResolveContext} {start log : List ResolveNote}
  {id : Nat} {next : NextResolveLogged σ H}

/-- A request of a resolve hook. -/
theorem safe_answerResolveLogged
    (hnext : ∀ index, ResolvesInTurn ids arguments next (index :: path))
    (request : ResolveRequest σ H) (count : Nat) (log : List ResolveNote)
    (h : Grows path start log ∧ Open path id count log) :
    (answerResolveLogged path next request count).Safe (ResolveAllowed ids arguments)
      (fun answer after => Grows path start after ∧ Open path id answer.2 after) log := by
  obtain ⟨hgrows, hopen⟩ := h
  cases request with
  | request request =>
      exact Program.Safe.bind (Program.safe_lift fun answer => Program.safe_done ⟨hgrows, hopen⟩)
  | next specifier context =>
      refine safe_goesOn hopen (hnext count specifier context) fun result after hafter _ => ?_
      exact Program.safe_done ⟨hgrows.trans hafter.of_wentOn,
        (hopen.wentOn _).grows (Nat.lt_succ_self count) hafter⟩

theorem resolveThroughLogged_inTurn
    (hnext : ∀ index, ResolvesInTurn ids arguments next (index :: path))
    (hook : ResolveProgram σ H) (given : String × ResolveContext) :
    InTurn (ResolveAllowed ids arguments) path (some id) given
      (resolveThroughLogged path id hook given next)
      fun result after => Returns path (some id) after result := by
  intro log hpart hentered
  refine Program.Safe.write_bind hentered (Program.Safe.bind ?_)
  have hwalk := Program.Safe.expand
    (fun count after => Grows path log after ∧ Open path id count after)
    (safe_answerResolveLogged hnext) hook
    ⟨grows_snoc log (.entered path (some id) given), open_entered hpart given⟩
  refine hwalk.mono fun outcome after h => ?_
  exact (safe_ended h.2).mono fun result last hlast => ⟨h.1.trans hlast.1, hlast.2⟩

/-- A chain of resolve hooks keeps to the order. -/
theorem resolveLogged_inTurn (program : H → String → ResolveContext → ResolveProgram σ H)
    (hooks : List (Nat × H)) (last : NextResolve σ H)
    (hhooks : ids.drop path.length = hooks.map (·.1)) :
    ResolvesInTurn ids arguments (resolveLogged program hooks last) path := by
  induction hooks generalizing path with
  | nil =>
      have hnone : ids[path.length]? = none := by rw [← List.head?_drop, hhooks]; rfl
      intro specifier context
      rw [hnone]
      intro log _ hentered
      exact Program.Safe.write_bind hentered (Program.safe_lift fun result =>
        ⟨grows_snoc log _, fun id hid => nomatch hid⟩)
  | cons hook hooks ih =>
      obtain ⟨hsome, hrest⟩ := drop_hooks hhooks
      intro specifier context
      rw [hsome]
      exact resolveThroughLogged_inTurn (fun index => ih hrest) _ _

end

/-- What is noted of a chain of resolve hooks tells that it is asked in order. -/
theorem resolveLogged_tells (program : H → String → ResolveContext → ResolveProgram σ H)
    (hooks : List (Nat × H)) (last : NextResolve σ H) (specifier : String)
    (context : ResolveContext) :
    (resolveLogged program hooks last [] specifier context).Tells
      (dispatchResolve program hooks last specifier context)
      (ResolveAllowed (hooks.map (·.1)) (specifier, context))
      fun result log => Returns [] (hooks.map (·.1))[0]? log result := by
  have hturn : ResolvesInTurn (hooks.map (·.1)) (specifier, context)
      (resolveLogged program hooks last) [] := resolveLogged_inTurn program hooks last rfl
  have hsafe := (hturn specifier context [] rfl .newest).mono fun result after h => h.2
  exact hsafe.tells (erase_resolveLogged program hooks last [] specifier context)

/-! ## Load hooks -/

abbrev LoadAllowed (ids : List Nat) (arguments : String × LoadContext) :=
  Allowed acceptOutput ids arguments

/-- To await a reply keeps to the order, as long as nothing more is noted of its invocation. -/
def Awaitable (ids : List Nat) (arguments : String × LoadContext) (path : List Nat)
    (own : List LoadNote) (reply : LoggedReply σ H) : Prop :=
  ∀ log, part path log = own → reply.await.Safe (LoadAllowed ids arguments)
    (fun result after => Grows path log after ∧ Returns path ids[path.length]? after result) log

/-- The rest of a chain keeps to the order, for invocations with a path. -/
def LoadsInTurn (ids : List Nat) (arguments : String × LoadContext) (next : NextLoadLogged σ H)
    (path : List Nat) : Prop :=
  ∀ url context, InTurn (LoadAllowed ids arguments) path ids[path.length]? (url, context)
    (next path url context) fun reply after => Awaitable ids arguments path (part path after) reply

/-- An invocation of a load hook that is running, with the replies that it can await. -/
structure Held (ids : List Nat) (arguments : String × LoadContext) (path : List Nat) (id : Nat)
    (calls : LoadCalls σ H) (log : List LoadNote) : Prop where
  running : Open path id calls.count log
  distinct : (calls.replies.map (·.1)).Nodup
  made : ∀ reply ∈ calls.replies, reply.1 < calls.count
  awaitable : ∀ reply ∈ calls.replies,
    Awaitable ids arguments (reply.1 :: path) (part (reply.1 :: path) log) reply.2

theorem LoggedReply.await_ofReply (reply : LoadReply σ H) :
    (LoggedReply.ofReply reply).await = reply.await.lift := by
  cases reply <;> rfl

/-- A reply is one of those at hand, which is then no longer there, or none of them. -/
theorem LoggedReply.take_cases (given : LoadReply σ H) (replies : List (Nat × LoggedReply σ H)) :
    (∃ index, ((index, (take given replies).1) :: (take given replies).2).Perm replies) ∨
      take given replies = (ofReply given, replies) := by
  induction replies with
  | nil => exact .inr rfl
  | cons first replies ih =>
      unfold take
      split
      · exact .inl ⟨first.1, .refl _⟩
      · refine ih.imp (Exists.imp fun index hperm => ?_) fun heq => by rw [heq]
        exact (List.Perm.swap ..).trans (hperm.cons first)

section
variable {ids path : List Nat} {arguments : String × LoadContext} {start log : List LoadNote}
  {id : Nat} {calls : LoadCalls σ H} {next : NextLoadLogged σ H}

theorem Held.of_part {other : List LoadNote} (h : Held ids arguments path id calls log)
    (hpart : part path other = part path log) : Held ids arguments path id calls other where
  running := h.running.of_part hpart
  distinct := h.distinct
  made := h.made
  awaitable := by
    intro reply hreply
    rw [← part_part, hpart, part_part]
    exact h.awaitable reply hreply

theorem held_entered (hpart : part path log = []) (given : String × LoadContext) :
    Held ids arguments path id ({} : LoadCalls σ H) (log ++ [.entered path (some id) given]) where
  running := open_entered hpart given
  distinct := List.nodup_nil
  made := List.forall_mem_nil _
  awaitable := List.forall_mem_nil _

/-- A hook has gone on, and has got a reply. -/
theorem Held.wentOn {given : String × LoadContext} {reply : LoggedReply σ H}
    {after : List LoadNote} (h : Held ids arguments path id calls log)
    (hafter : Grows (calls.count :: path) (log ++ [.wentOn path calls.count given]) after)
    (hreply : Awaitable ids arguments (calls.count :: path) (part (calls.count :: path) after)
      reply) :
    Held ids arguments path id ⟨calls.count + 1, (calls.count, reply) :: calls.replies⟩ after := by
  have hother : ∀ reply ∈ calls.replies, reply.1 ≠ calls.count := fun reply hmem =>
    Nat.ne_of_lt (h.made reply hmem)
  constructor
  case running => exact (h.running.wentOn given).grows (Nat.lt_succ_self _) hafter
  case distinct =>
    refine List.nodup_cons.mpr ⟨fun hmem => ?_, h.distinct⟩
    obtain ⟨reply, hmem, heq⟩ := List.mem_map.mp hmem
    exact hother reply hmem heq
  case made =>
    exact List.forall_mem_cons.mpr ⟨Nat.lt_succ_self _, fun reply hmem =>
      Nat.lt_succ_of_lt (h.made reply hmem)⟩
  case awaitable =>
    refine List.forall_mem_cons.mpr ⟨hreply, fun reply hmem => ?_⟩
    rw [hafter.part_eq (hother reply hmem), part_snoc_of_not (not_cons_suffix reply.1 path)]
    exact h.awaitable reply hmem

/-- A hook has awaited one of its replies; the other ones stay. -/
theorem Held.awaited {index : Nat} {reply : LoggedReply σ H}
    {replies : List (Nat × LoggedReply σ H)} {after : List LoadNote}
    (h : Held ids arguments path id calls log)
    (hperm : ((index, reply) :: replies).Perm calls.replies) (hafter : Grows (index :: path) log after) :
    Held ids arguments path id { calls with replies } after := by
  have hkept : ∀ other ∈ replies, other ∈ calls.replies := fun other hmem =>
    hperm.subset (List.mem_cons_of_mem _ hmem)
  have hdistinct := (hperm.map (·.1)).nodup_iff.mpr h.distinct
  rw [List.map_cons, List.nodup_cons] at hdistinct
  constructor
  case running =>
    exact h.running.grows (h.made _ (hperm.subset (List.mem_cons_self ..))) hafter
  case distinct => exact hdistinct.2
  case made => exact fun other hmem => h.made other (hkept other hmem)
  case awaitable =>
    intro other hmem
    have hne : other.1 ≠ index := fun heq => hdistinct.1 (List.mem_map.mpr ⟨other, hmem, heq⟩)
    rw [hafter.part_eq hne]
    exact h.awaitable other (hkept other hmem)

/-- A request of a load hook. -/
theorem safe_answerLoadLogged (hnext : ∀ index, LoadsInTurn ids arguments next (index :: path))
    (request : LoadRequest σ H) (calls : LoadCalls σ H) (log : List LoadNote)
    (h : Grows path start log ∧ Held ids arguments path id calls log) :
    (answerLoadLogged path next request calls).Safe (LoadAllowed ids arguments)
      (fun answer after => Grows path start after ∧ Held ids arguments path id answer.2 after)
      log := by
  obtain ⟨hgrows, hheld⟩ := h
  cases request with
  | request request =>
      exact Program.Safe.bind (Program.safe_lift fun answer => Program.safe_done ⟨hgrows, hheld⟩)
  | next url context =>
      refine safe_goesOn hheld.running (hnext calls.count url context)
        fun reply after hafter hreply => ?_
      exact Program.safe_done ⟨hgrows.trans hafter.of_wentOn, hheld.wentOn hafter hreply⟩

/-- A request of a load hook that has deferred its reply. -/
theorem safe_answerDeferredLogged
    (hnext : ∀ index, LoadsInTurn ids arguments next (index :: path))
    (request : DeferredRequest σ H) (calls : LoadCalls σ H) (log : List LoadNote)
    (h : Grows path start log ∧ Held ids arguments path id calls log) :
    (answerDeferredLogged path next request calls).Safe (LoadAllowed ids arguments)
      (fun answer after => Grows path start after ∧ Held ids arguments path id answer.2 after)
      log := by
  cases request with
  | hook request => exact safe_answerLoadLogged hnext request calls log h
  | pause => exact fun _ => h
  | await reply =>
      obtain ⟨hgrows, hheld⟩ := h
      refine Program.Safe.bind ?_
      rcases LoggedReply.take_cases reply calls.replies with ⟨index, hperm⟩ | heq
      · have hawait := hheld.awaitable _ (hperm.subset (List.mem_cons_self ..)) log rfl
        refine hawait.mono fun result after hafter => ?_
        exact Program.safe_done ⟨hgrows.trans hafter.1.of_cons, hheld.awaited hperm hafter.1⟩
      · rw [heq, LoggedReply.await_ofReply]
        exact Program.safe_lift fun result => Program.safe_done ⟨hgrows, hheld⟩

theorem loadThroughLogged_inTurn (hnext : ∀ index, LoadsInTurn ids arguments next (index :: path))
    (hid : ids[path.length]? = some id) (hook : LoadProgram σ H) (given : String × LoadContext) :
    InTurn (LoadAllowed ids arguments) path (some id) given
      (loadThroughLogged path id hook given next)
      fun reply after => Awaitable ids arguments path (part path after) reply := by
  intro log hpart hentered
  refine Program.Safe.write_bind hentered (Program.Safe.bind ?_)
  have hwalk := Program.Safe.expand
    (fun calls after => Grows path log after ∧ Held ids arguments path id calls after)
    (safe_answerLoadLogged hnext) hook
    ⟨grows_snoc log (.entered path (some id) given), held_entered hpart given⟩
  refine hwalk.mono ?_
  rintro ⟨answer, calls⟩ after ⟨hgrows, hheld⟩
  cases answer with
  | ready given =>
      refine Program.Safe.bind ((safe_ended hheld.running).mono fun result last hlast => ?_)
      refine Program.safe_done ⟨hgrows.trans hlast.1, fun later hlater => ?_⟩
      rw [hid]
      exact Program.safe_done ⟨.refl path later, hlast.2.of_part hlater⟩
  | deferred rest =>
      refine Program.safe_done ⟨hgrows, fun later hlater => Program.Safe.bind ?_⟩
      have hrest := Program.Safe.expand
        (fun calls last => Grows path later last ∧ Held ids arguments path id calls last)
        (safe_answerDeferredLogged hnext) rest ⟨.refl path later, hheld.of_part hlater⟩
      refine hrest.mono fun outcome last h => ?_
      rw [hid]
      exact (safe_ended h.2.running).mono fun result final hfinal =>
        ⟨h.1.trans hfinal.1, hfinal.2⟩

/-- A chain of load hooks keeps to the order. -/
theorem loadLogged_inTurn (program : H → String → LoadContext → LoadProgram σ H)
    (hooks : List (Nat × H)) (last : NextLoad σ H)
    (hhooks : ids.drop path.length = hooks.map (·.1)) :
    LoadsInTurn ids arguments (loadLogged program hooks last) path := by
  induction hooks generalizing path with
  | nil =>
      have hnone : ids[path.length]? = none := by rw [← List.head?_drop, hhooks]; rfl
      intro url context
      rw [hnone]
      intro log _ hentered
      refine Program.Safe.write_bind hentered
        (Program.Safe.bind (Program.safe_lift fun reply => ?_))
      refine Program.safe_done ⟨grows_snoc log _, fun later _ => ?_⟩
      rw [LoggedReply.await_ofReply, hnone]
      exact Program.safe_lift fun result => ⟨.refl path later, fun id hid => nomatch hid⟩
  | cons hook hooks ih =>
      obtain ⟨hsome, hrest⟩ := drop_hooks hhooks
      intro url context
      rw [hsome]
      exact loadThroughLogged_inTurn (fun index => ih hrest) hsome _ _

end

/-- What is noted of a chain of load hooks tells that it is asked in order. -/
theorem loadAwaitLogged_tells (program : H → String → LoadContext → LoadProgram σ H)
    (hooks : List (Nat × H)) (last : NextLoad σ H) (url : String) (context : LoadContext) :
    (loadAwaitLogged program hooks last url context).Tells
      ((dispatchLoad program hooks last url context).bind LoadReply.await)
      (LoadAllowed (hooks.map (·.1)) (url, context))
      fun result log => Returns [] (hooks.map (·.1))[0]? log result := by
  have hturn : LoadsInTurn (hooks.map (·.1)) (url, context) (loadLogged program hooks last) [] :=
    loadLogged_inTurn program hooks last rfl
  have hreply := (hturn url context [] rfl .newest).mono fun reply after h =>
    (h.2 after rfl).mono fun result final hfinal => hfinal.2
  exact (Program.Safe.bind hreply).tells (erase_loadAwaitLogged program hooks last url context)

end ScriptModules
