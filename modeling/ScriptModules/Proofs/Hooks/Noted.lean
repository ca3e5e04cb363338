import ScriptModules.Program

/-!
# Programs that write notes

A program may write notes besides what it asks for.  Nobody answers a note, so the program
without its notes (`erase`) asks for the same things and ends with the same result; whatever a
run of it is, the program with notes has the same run and writes a log meanwhile
(`exists_runs_of_leads`).

What a program may note, and what holds when it ends, is shown by going through it once
(`Safe`): each note has to be allowed by those written before.
-/

namespace ScriptModules

/-- What programs may ask for that write notes, too. -/
def Interface.noted (I : Interface) (N : Type) : Interface where
  Request := I.Request ⊕ N
  Answer
    | .inl request => I.Answer request
    | .inr _ => Unit

/-- A request with its answer. -/
structure Exchange (I : Interface) where
  request : I.Request
  answer : I.Answer request

namespace Program

variable {I J : Interface} {N S α β : Type}

/-- A program can come to another one by an exchange of requests and answers. -/
inductive Leads : Program I α → List (Exchange I) → Program I α → Prop where
  | here (program : Program I α) : Leads program [] program
  | ask {request : I.Request} {next : I.Answer request → Program I α} {answer : I.Answer request}
      {exchanges : List (Exchange I)} {left : Program I α}
      (h : Leads (next answer) exchanges left) :
      Leads (.ask request next) (⟨request, answer⟩ :: exchanges) left

/-- The same for a program that writes notes, with the log it writes. -/
inductive Runs : Program (I.noted N) α → List (Exchange I) → List N →
    Program (I.noted N) α → Prop where
  | here (program : Program (I.noted N) α) : Runs program [] [] program
  | ask {request : I.Request} {next : I.Answer request → Program (I.noted N) α}
      {answer : I.Answer request} {exchanges : List (Exchange I)} {log : List N}
      {left : Program (I.noted N) α} (h : Runs (next answer) exchanges log left) :
      Runs (.ask (.inl request) next) (⟨request, answer⟩ :: exchanges) log left
  | note {note : N} {next : Unit → Program (I.noted N) α} {exchanges : List (Exchange I)}
      {log : List N} {left : Program (I.noted N) α} (h : Runs (next ()) exchanges log left) :
      Runs (.ask (.inr note) next) exchanges (note :: log) left

/-- Writes a note. -/
def write (note : N) : Program (I.noted N) Unit :=
  .ask (.inr note) .done

/-- A program that happens to write no notes. -/
def lift : Program I α → Program (I.noted N) α
  | .done result => .done result
  | .ask request next => .ask (.inl request) fun answer => (next answer).lift

/-- A program without its notes. -/
def erase : Program (I.noted N) α → Program I α
  | .done result => .done result
  | .ask (.inl request) next => .ask request fun answer => (next answer).erase
  | .ask (.inr _) next => (next ()).erase

/-! ## Erasing notes -/

@[simp] theorem erase_done (result : α) :
    (.done result : Program (I.noted N) α).erase = .done result := rfl

@[simp] theorem erase_write (note : N) : (write note : Program (I.noted N) Unit).erase = .done () :=
  rfl

@[simp] theorem erase_lift (program : Program I α) :
    (program.lift : Program (I.noted N) α).erase = program := by
  induction program with
  | done result => rfl
  | ask request next ih =>
      simp only [lift, erase]
      exact congrArg _ (funext ih)

@[simp] theorem erase_bind (program : Program (I.noted N) α) (next : α → Program (I.noted N) β) :
    (program.bind next).erase = program.erase.bind fun result => (next result).erase := by
  induction program with
  | done result => rfl
  | ask request rest ih =>
      cases request with
      | inl request =>
          simp only [bind, erase]
          exact congrArg _ (funext ih)
      | inr note => exact ih ()

/-- A run of a program without its notes is one of the program with its notes, to the end if
it is one to the end. -/
theorem exists_runs_of_leads (program : Program (I.noted N) α) {exchanges : List (Exchange I)}
    {left : Program I α} (h : program.erase.Leads exchanges left) :
    ∃ log rest, program.Runs exchanges log rest ∧ rest.erase = left ∧
      ∀ result, left = .done result → rest = .done result := by
  induction program generalizing exchanges with
  | done result =>
      cases h
      exact ⟨[], .done result, .here _, rfl, fun _ hresult => by cases hresult; rfl⟩
  | ask request next ih =>
      cases request with
      | inl request =>
          cases h with
          | here => exact ⟨[], _, .here _, rfl, fun _ hresult => nomatch hresult⟩
          | ask h =>
              obtain ⟨log, rest, hruns, hrest⟩ := ih _ h
              exact ⟨log, rest, .ask hruns, hrest⟩
      | inr note =>
          obtain ⟨log, rest, hruns, hrest⟩ := ih () h
          exact ⟨note :: log, rest, .note hruns, hrest⟩

/-! ## What may be noted -/

variable {allowed : List N → N → Prop}

/-- Each note of a log is allowed by those before it. -/
inductive Logged (allowed : List N → N → Prop) : List N → Prop where
  | nil : Logged allowed []
  | snoc {log : List N} {note : N} (h : Logged allowed log) (hn : allowed log note) :
      Logged allowed (log ++ [note])

/-- Whatever the answers, a program writes allowed notes only, and when it ends its result and
the log are as they should be. -/
def Safe (allowed : List N → N → Prop) :
    Program (I.noted N) α → (α → List N → Prop) → List N → Prop
  | .done result, post, log => post result log
  | .ask (.inl _) next, post, log => ∀ answer, (next answer).Safe allowed post log
  | .ask (.inr note) next, post, log =>
    allowed log note ∧ (next ()).Safe allowed post (log ++ [note])

variable {post : β → List N → Prop} {log : List N}

theorem safe_done {post : α → List N → Prop} {result : α} (h : post result log) :
    (.done result : Program (I.noted N) α).Safe allowed post log := h

theorem Safe.mono {first last : α → List N → Prop} {program : Program (I.noted N) α}
    (h : program.Safe allowed first log) (hpost : ∀ result log, first result log → last result log) :
    program.Safe allowed last log := by
  induction program generalizing log with
  | done result => exact hpost result log h
  | ask request next ih =>
      cases request with
      | inl request => exact fun answer => ih answer (h answer)
      | inr note => exact ⟨h.1, ih () h.2⟩

theorem Safe.bind {program : Program (I.noted N) α} {next : α → Program (I.noted N) β}
    (h : program.Safe allowed (fun result log => (next result).Safe allowed post log) log) :
    (program.bind next).Safe allowed post log := by
  induction program generalizing log with
  | done result => exact h
  | ask request rest ih =>
      cases request with
      | inl request => exact fun answer => ih answer (h answer)
      | inr note => exact ⟨h.1, ih () h.2⟩

/-- A note, and then the rest. -/
theorem Safe.write_bind {note : N} {next : Unit → Program (I.noted N) β} (hn : allowed log note)
    (h : (next ()).Safe allowed post (log ++ [note])) :
    ((write note).bind next).Safe allowed post log :=
  ⟨hn, h⟩

/-- What writes no notes is safe. -/
theorem safe_lift {program : Program I β} (h : ∀ result, post result log) :
    (program.lift : Program (I.noted N) β).Safe allowed post log := by
  induction program with
  | done result => exact h result
  | ask request next ih => exact fun answer => ih answer

/-- When what replaces each request keeps an invariant, so does the whole program. -/
theorem Safe.expand (invariant : S → List N → Prop)
    {replace : (request : J.Request) → S → Program (I.noted N) (J.Answer request × S)}
    (h : ∀ request state log, invariant state log →
      (replace request state).Safe allowed (fun answer log => invariant answer.2 log) log)
    (program : Program J α) {state : S} (hs : invariant state log) :
    (program.expand replace state).Safe allowed (fun result log => invariant result.2 log) log := by
  induction program generalizing state log with
  | done result => exact hs
  | ask request rest ih =>
      exact Safe.bind ((h request state log hs).mono fun answer log hnext => ih answer.1 hnext)

/-- A run of a safe program. -/
theorem Safe.runs {program left : Program (I.noted N) α} {post : α → List N → Prop}
    {exchanges : List (Exchange I)} {added : List N} (hs : program.Safe allowed post log)
    (hl : Logged allowed log) (h : program.Runs exchanges added left) :
    Logged allowed (log ++ added) ∧ left.Safe allowed post (log ++ added) := by
  induction h generalizing log with
  | here program =>
      rw [List.append_nil]
      exact ⟨hl, hs⟩
  | ask h ih => exact ih (hs _) hl
  | note h ih =>
      rw [List.append_cons]
      exact ih hs.2 (.snoc hl hs.1)

/-- A program with notes tells what a program does: it is that program with notes added, each
run of it writes allowed notes only, and at its end the log agrees with the result. -/
structure Tells (logged : Program (I.noted N) α) (program : Program I α)
    (allowed : List N → N → Prop) (post : α → List N → Prop) : Prop where
  erased : logged.erase = program
  /-- No run of the program is without a log. -/
  told : ∀ exchanges left, program.Leads exchanges left →
    ∃ log rest, logged.Runs exchanges log rest ∧ rest.erase = left ∧
      ∀ result, left = .done result → rest = .done result
  logged : ∀ exchanges log left, logged.Runs exchanges log left →
    Logged allowed log ∧ ∀ result, left = .done result → post result log

/-- A program that is safe tells what it does without its notes. -/
theorem Safe.tells {logged : Program (I.noted N) α} {program : Program I α}
    {post : α → List N → Prop} (hs : logged.Safe allowed post []) (he : logged.erase = program) :
    logged.Tells program allowed post where
  erased := he
  told := by
    rintro exchanges left h
    rw [← he] at h
    exact exists_runs_of_leads logged h
  logged := by
    intro exchanges log left h
    obtain ⟨hlogged, hleft⟩ := hs.runs .nil h
    refine ⟨hlogged, ?_⟩
    rintro result rfl
    exact hleft

end Program

end ScriptModules
