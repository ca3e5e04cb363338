/-!
# Programs

Code that the library does not know — hooks, the compiler, the bodies of modules —
is given as a *program*: it ends with a result, or it asks for something and goes
on with the answer.  What it may ask for, and what kind of answer each request
gets, is its *interface*.

A program is a tree, so on its own it always comes to an end.  It says nothing of
how requests are answered.  Three things can be done with it: it can be followed
by another one (`bind`), its requests can be replaced by programs of another
interface (`expand`), and it can be run against something that answers (`run`).
-/

namespace ScriptModules

/-- What programs may ask for. -/
structure Interface where
  Request : Type
  /-- The kind of answer to a request. -/
  Answer : Request → Type

/-- Code that asks for things and ends with a result. -/
inductive Program (I : Interface) (α : Type) where
  | done (result : α)
  | ask (request : I.Request) (next : I.Answer request → Program I α)

namespace Program

variable {I J : Interface} {α β S : Type}

/-- Goes on with a program that depends on the result. -/
def bind : Program I α → (α → Program I β) → Program I β
  | done result, next => next result
  | ask request rest, next => ask request fun answer => (rest answer).bind next

instance : Monad (Program I) where
  pure := done
  bind := bind

/-- Asks for something and ends with the answer. -/
def perform (request : I.Request) : Program I (I.Answer request) :=
  ask request done

/-- Replaces each request by a program, which also sees and changes a state. -/
def expand (replace : (request : I.Request) → S → Program J (I.Answer request × S)) :
    Program I α → S → Program J (α × S)
  | done result, state => done (result, state)
  | ask request rest, state =>
    (replace request state).bind fun (answer, state) => (rest answer).expand replace state

/-- Replaces each request by a program. -/
def substitute (replace : (request : I.Request) → Program J (I.Answer request)) :
    Program I α → Program J α
  | done result => done result
  | ask request rest => (replace request).bind fun answer => (rest answer).substitute replace

/-- The result of a program when requests are answered from a state. -/
def run (answer : (request : I.Request) → S → I.Answer request × S) : Program I α → S → α × S
  | done result, state => (result, state)
  | ask request rest, state =>
    let (reply, state) := answer request state
    (rest reply).run answer state

/-! ## Laws -/

@[simp] theorem done_bind (result : α) (next : α → Program I β) :
    (done result).bind next = next result := rfl

@[simp] theorem bind_done (program : Program I α) : program.bind done = program := by
  induction program with
  | done result => rfl
  | ask request rest ih => simp only [bind, ih]

theorem bind_assoc {γ : Type} (program : Program I α) (next : α → Program I β)
    (last : β → Program I γ) :
    (program.bind next).bind last = program.bind fun result => (next result).bind last := by
  induction program with
  | done result => rfl
  | ask request rest ih => simp only [bind, ih]

/-- Programs in sequence run one after the other on the same state. -/
theorem run_bind (answer : (request : I.Request) → S → I.Answer request × S)
    (program : Program I α) (next : α → Program I β) (state : S) :
    (program.bind next).run answer state =
      (next (program.run answer state).1).run answer (program.run answer state).2 := by
  induction program generalizing state with
  | done result => rfl
  | ask request rest ih => simp only [bind, run, ih]

end Program

end ScriptModules
