import Mathlib.Data.List.Induction
import Mathlib.Data.List.Nodup
import ScriptModules.Proofs.Loader.Course

/-!
# What the body of a module is told

The body of a module asks for things one at a time, so the replies it got tell how far it has
come, and which modules it has required on the way (`BodyProgram.Hears`).  The ids of those that
were loaded are its dependencies, each where it first came up (`noted`).  This is what the work
that a body is made into keeps: at each request it goes on as the body does, and in the end it
gives what is noted (`BodyProgram.Hears.works`).
-/

namespace ScriptModules

variable {σ H : Type}

/-! ## Replies -/

/-- A reply that the body of a module gets. -/
inductive Reply (σ H : Type) where
  /-- The answer to an operation. -/
  | operated (operation : Operation σ H) (answer : operation.Answer)
  /-- A value of some kind: a module that was loaded, if it is required. -/
  | given (kind : Kind) (value : Value σ H kind)

/-- The reply that a request gets with an answer to it. -/
def Request.reply : (request : Request σ H) → request.Answer → Reply σ H
  | .operation op, answer => .operated op answer
  | .resolve _ _, answer => .given .resolution answer
  | .require _ _, answer => .given .module answer
  | .reload _ _, answer => .given .reload answer

/-! ## Dependencies -/

/-- The ids of the modules that were loaded, each at the place where it first came up. -/
def noted (required : List (Except ModuleError LoadedModule)) : List String :=
  (required.filterMap fun
    | .ok (id, _) => some id
    | .error _ => none).eraseDups

section Noted

variable {required : List (Except ModuleError LoadedModule)} {id : String}

theorem mem_noted : id ∈ noted required ↔ ∃ exports, .ok (id, exports) ∈ required := by
  rw [noted, List.mem_eraseDups, List.mem_filterMap]
  constructor
  · rintro ⟨answer, hmem, hsome⟩
    cases answer with
    | error e => cases hsome
    | ok loaded =>
        cases hsome
        exact ⟨loaded.2, hmem⟩
  · rintro ⟨exports, hmem⟩
    exact ⟨_, hmem, rfl⟩

/-- A module that could not be loaded is not noted. -/
theorem noted_concat_error (required : List (Except ModuleError LoadedModule)) (e : ModuleError) :
    noted (required ++ [.error e]) = noted required := by
  unfold noted
  rw [List.filterMap_append]
  exact congrArg List.eraseDups (List.append_nil _)

/-- One that was loaded is noted unless it already is. -/
theorem noted_concat_ok (required : List (Except ModuleError LoadedModule)) (id : String)
    (exports : Handle) : noted (required ++ [.ok (id, exports)]) =
      if (noted required).contains id then noted required else noted required ++ [id] := by
  unfold noted
  rw [List.filterMap_append, List.eraseDups_append]
  generalize required.filterMap _ = ids
  by_cases hmem : id ∈ ids
  · simp [List.removeAll, hmem]
  · simp [List.removeAll, hmem, List.eraseDups_cons]

theorem nodup_noted (required : List (Except ModuleError LoadedModule)) :
    (noted required).Nodup := by
  induction required using List.reverseRecOn with
  | nil => exact List.nodup_nil
  | append_singleton required answer ih =>
      cases answer with
      | error e =>
          rw [noted_concat_error]
          exact ih
      | ok loaded =>
          rw [noted_concat_ok]
          split
          · exact ih
          · rename_i hnew
            rw [List.contains_iff_mem] at hnew
            rw [← List.concat_eq_append]
            exact List.Nodup.concat hnew ih

end Noted

/-! ## Bodies -/

namespace BodyProgram

/-- How far a body comes with some replies, and what became of the modules it required. -/
inductive Hears (body : BodyProgram σ H) :
    List (Reply σ H) → List (Except ModuleError LoadedModule) → BodyProgram σ H → Prop where
  | begins : Hears body [] [] body
  | answered {replies : List (Reply σ H)} {required : List (Except ModuleError LoadedModule)}
      {request : Request σ H} {next : request.Answer → BodyProgram σ H}
      (h : Hears body replies required (.ask (.request request) next)) (answer : request.Answer) :
      Hears body (replies ++ [request.reply answer]) required (next answer)
  | loaded {replies : List (Reply σ H)} {required : List (Except ModuleError LoadedModule)}
      {specifier : String} {next : Except ModuleError Handle → BodyProgram σ H}
      (h : Hears body replies required (.ask (.dependency specifier) next))
      (answer : Except ModuleError LoadedModule) :
      Hears body (replies ++ [.given .module answer]) (required ++ [answer])
        (next (answer.map (·.2)))
  | listed {replies : List (Reply σ H)} {required : List (Except ModuleError LoadedModule)}
      {next : List String → BodyProgram σ H}
      (h : Hears body replies required (.ask .dependencies next)) :
      Hears body replies required (next (noted required))

variable {body rest : BodyProgram σ H} {replies : List (Reply σ H)}
  {required : List (Except ModuleError LoadedModule)}

/-- What became of a module it required, a body is told. -/
theorem Hears.mem_replies (h : Hears body replies required rest)
    {answer : Except ModuleError LoadedModule} (hmem : answer ∈ required) :
    .given .module answer ∈ replies := by
  induction h with
  | begins => cases hmem
  | answered h _ ih => exact List.mem_append_left _ (ih hmem)
  | loaded h last ih =>
      rcases List.mem_append.mp hmem with hold | hnew
      · exact List.mem_append_left _ (ih hold)
      · rw [List.mem_singleton.mp hnew]
        exact List.mem_concat_self
  | listed h ih => exact ih hmem

/-- The work that is left of a body which has come to a point. -/
def workAt (base : Path) (required : List (Except ModuleError LoadedModule))
    (rest : BodyProgram σ H) : Work σ H (Value σ H .execution) :=
  rest.expand (answerBody base) (noted required)

/-- What work the rest of a body is: it is over and gives what is noted, or it makes a request
and goes on with any answer. -/
inductive Works (base : Path) (body : BodyProgram σ H) (replies : List (Reply σ H)) :
    Work σ H (Value σ H .execution) → Prop where
  | ends {required : List (Except ModuleError LoadedModule)} {result : Except Failure Unit}
      (h : Hears body replies required (.done result)) :
      Works base body replies (.done (result, noted required))
  | asks {request : Request σ H} {next : request.Answer → Work σ H (Value σ H .execution)}
      (h : ∀ answer, ∃ required rest,
        Hears body (replies ++ [request.reply answer]) required rest ∧
          next answer = workAt base required rest) :
      Works base body replies (.ask (.request request) next)

/-- Whatever work is left of a body, it goes on as the body does. -/
theorem Hears.works (base : Path) (h : Hears body replies required rest) :
    Works base body replies (workAt base required rest) := by
  -- Only a look at the list so far makes no request of its own.
  induction rest generalizing required with
  | done result => exact .ends h
  | ask request next ih =>
      cases request with
      | request request => exact .asks fun answer => ⟨required, next answer, h.answered answer, rfl⟩
      | dependency specifier =>
          refine .asks fun (answer : Except ModuleError LoadedModule) => ?_
          refine ⟨_, _, h.loaded answer, ?_⟩
          cases answer with
          | error e =>
              rw [workAt, noted_concat_error]
              rfl
          | ok loaded =>
              obtain ⟨id, exports⟩ := loaded
              rw [workAt, noted_concat_ok]
              rfl
      | dependencies => exact ih _ h.listed

end BodyProgram

end ScriptModules
