/-!
# Outcomes of computations that may fail

What a computation in `Except` that came to a result says of its parts.
-/

namespace ScriptModules.Outcome

variable {ε α β : Type}

/-- The first part of a computation that succeeds has succeeded. -/
theorem of_bind_eq_ok {first : Except ε α} {next : α → Except ε β} {result : β}
    (h : first >>= next = .ok result) : ∃ value, first = .ok value ∧ next value = .ok result := by
  cases first with
  | error e => cases h
  | ok value => exact ⟨value, rfl, h⟩

theorem of_map_eq_ok {first : Except ε α} {change : α → β} {result : β}
    (h : first.map change = .ok result) : ∃ value, first = .ok value ∧ change value = result := by
  cases first with
  | error e => cases h
  | ok value => exact ⟨value, rfl, Except.ok.inj h⟩

theorem of_toOption_eq_some {outcome : Except ε α} {result : α}
    (h : outcome.toOption = some result) : outcome = .ok result := by
  cases outcome with
  | error e => cases h
  | ok value => exact congrArg _ (Option.some.inj h)

/-- A check in front of a computation that succeeds has passed. -/
theorem of_guard_eq_ok {c : Prop} [Decidable c] {e : ε} {rest : Except ε β} {result : β}
    (h : (if c then throw e else rest) = .ok result) : ¬ c ∧ rest = .ok result := by
  split at h
  · cases h
  · rename_i hc
    exact ⟨hc, h⟩

/-- The same of a check that is a statement of its own. -/
theorem of_check_eq_ok {c : Prop} [Decidable c] {e : ε} {next : PUnit → Except ε β}
    {rest : Except ε β} {result : β}
    (h : (if c then (throw e : Except ε PUnit) >>= next else rest) = .ok result) :
    ¬ c ∧ rest = .ok result := by
  split at h
  · cases h
  · rename_i hc
    exact ⟨hc, h⟩

end ScriptModules.Outcome
