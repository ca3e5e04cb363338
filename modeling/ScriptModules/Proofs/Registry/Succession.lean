import ScriptModules.Proofs.Registry.InFlight

/-!
# How records follow one another

An id names one record, which only moves on: its key stays, its exports stay once it has
them, and when it is finished it does not change at all (`ModuleRecord.Becomes`).  A record
that is gone does not come back, since the next record gets an id of its own.

Whatever is done to a registry in one turn comes down to three changes: records are
dropped, one of them moves on, or one is made (`Registry.Turn`).  So a later registry can
be compared with an earlier one id by id (`Registry.Precedes`).
-/

namespace ScriptModules

/-! ## Records -/

namespace ModuleRecord

/-- How a record may change. -/
structure Becomes (before now : ModuleRecord) : Prop where
  key : now.key = before.key
  rank : before.state.rank ≤ now.state.rank
  exports : ∀ {handle}, before.exports = some handle → now.exports = some handle
  finished : before.state.isTerminal = true → now = before

variable {before middle now : ModuleRecord}

theorem Becomes.refl (record : ModuleRecord) : record.Becomes record :=
  ⟨rfl, Nat.le_refl _, fun h => h, fun _ => rfl⟩

theorem Becomes.trans (h₁ : before.Becomes middle) (h₂ : middle.Becomes now) :
    before.Becomes now := by
  refine ⟨h₂.key.trans h₁.key, Nat.le_trans h₁.rank h₂.rank, fun h => h₂.exports (h₁.exports h), ?_⟩
  intro hterminal
  have hsame := h₁.finished hterminal
  subst hsame
  exact h₂.finished hterminal

/-- A record in flight becomes any record of its key that is as far and keeps its exports. -/
theorem Becomes.of_inFlight (ht : before.state.isTerminal = false) (hk : now.key = before.key)
    (hr : before.state.rank ≤ now.state.rank)
    (he : ∀ {handle}, before.exports = some handle → now.exports = some handle) :
    before.Becomes now := by
  refine ⟨hk, hr, he, fun hterminal => ?_⟩
  rw [ht] at hterminal
  cases hterminal

/-- A record gets its exports when its body begins, and a complete one has them. -/
structure IsTabled (record : ModuleRecord) : Prop where
  before : record.state.canAdvance .executing = true → record.exports = none
  complete : record.state = .complete → record.exports.isSome = true

/-- A record whose body has not begun has a table only if it is complete. -/
theorem IsTabled.of_early (he : now.exports = none) (hs : now.state ≠ .complete) : now.IsTabled :=
  ⟨fun _ => he, fun h => absurd h hs⟩

/-- From the start of execution on a record may have a table. -/
theorem IsTabled.of_exports (he : now.exports.isSome = true)
    (hs : now.state.canAdvance .executing = false) : now.IsTabled := by
  refine ⟨fun h => ?_, fun _ => he⟩
  rw [hs] at h
  cases h

theorem IsTabled.of_errored (hs : now.state = .errored) : now.IsTabled := by
  refine ⟨fun h => ?_, fun h => ?_⟩
  · rw [hs] at h
    cases h
  · rw [hs] at h
    cases h

end ModuleRecord

namespace ModuleState

variable {state next last : ModuleState}

/-- What may advance is in flight. -/
theorem isTerminal_of_canAdvance (h : state.canAdvance next = true) : state.isTerminal = false := by
  revert h
  cases state <;> cases next <;> decide

theorem rank_le_of_canAdvance (h : state.canAdvance next = true) : state.rank ≤ next.rank := by
  revert h
  cases state <;> cases next <;> decide

/-- Nothing comes after the last states. -/
theorem rank_le_of_isTerminal (h : next.isTerminal = true) : state.rank ≤ next.rank := by
  revert h
  cases state <;> cases next <;> decide

/-- What a later state may advance to, an earlier one may advance to. -/
theorem canAdvance_of_rank_le (hr : state.rank ≤ next.rank) (h : next.canAdvance last = true) :
    state.canAdvance last = true := by
  revert hr h
  cases state <;> cases next <;> cases last <;> decide

end ModuleState

namespace Registry

variable {registry middle after : Registry} {id : ModuleId}
  {record changed first second : ModuleRecord}

/-! ## Dropping records -/

/-- Records are dropped, and nothing else happens to any. -/
structure Drops (registry after : Registry) : Prop where
  size : after.records.size = registry.records.size
  rest : ∀ {other found}, after.get? other = some found → registry.get? other = some found

theorem Drops.refl (registry : Registry) : Drops registry registry :=
  ⟨rfl, fun h => h⟩

theorem Drops.trans (h₁ : Drops registry middle) (h₂ : Drops middle after) :
    Drops registry after :=
  ⟨h₂.size.trans h₁.size, fun h => h₁.rest (h₂.rest h)⟩

/-- Counters, keys and the order are no records. -/
theorem Drops.of_eq (h : after.records = registry.records) : Drops registry after := by
  refine ⟨congrArg Array.size h, fun {other found} hfound => ?_⟩
  rw [get?, h] at hfound
  exact hfound

theorem size_modify (registry : Registry) (id : ModuleId) (change : ModuleRecord → ModuleRecord) :
    (registry.modify id change).records.size = registry.records.size :=
  Array.size_modify

theorem size_advance (registry : Registry) (id : ModuleId) (next : ModuleState) :
    (registry.advance id next).2.records.size = registry.records.size := by
  unfold advance
  split
  · rfl
  · split
    · exact size_modify ..
    · rfl

theorem size_beginExecution (registry : Registry) (store : ExportTables) (id : ModuleId) :
    (registry.beginExecution store id).2.1.records.size = registry.records.size := by
  have hadvance := size_advance registry id .executing
  unfold beginExecution
  split
  · rename_i heq
    rw [heq] at hadvance
    exact hadvance
  · rename_i heq
    rw [heq] at hadvance
    split
    · exact hadvance
    · exact (size_modify ..).trans hadvance

theorem drops_dropRecord (registry : Registry) (id : ModuleId) :
    Drops registry (registry.dropRecord id) := by
  refine ⟨Array.size_modify, fun {other found} hfound => ?_⟩
  rw [get?_dropRecord] at hfound
  split at hfound
  · cases hfound
  · exact hfound

theorem drops_evict (registry : Registry) (id : ModuleId) : Drops registry (registry.evict id) := by
  unfold evict
  split
  · exact .refl _
  · exact (drops_dropRecord registry id).trans (.of_eq rfl)

theorem drops_invalidate (registry : Registry) (key : String) :
    Drops registry (registry.invalidate key).2 := by
  unfold invalidate
  split
  · exact .refl _
  · exact (drops_dropRecord registry _).trans (.of_eq rfl)

/-- Many drops are a drop. -/
theorem drops_foldl {α : Type} {drop : Registry → α → Registry}
    (h : ∀ registry item, Drops registry (drop registry item)) (items : List α)
    (registry : Registry) : Drops registry (items.foldl drop registry) := by
  induction items generalizing registry with
  | nil => exact .refl _
  | cons item items ih => exact (h registry item).trans (ih _)

theorem drops_evictOverLimit (registry : Registry) (keep : ModuleId) :
    Drops registry (registry.evictOverLimit keep) := by
  have hordered : ∀ order, Drops registry { registry with order } := fun _ => .of_eq rfl
  exact (hordered _).trans (drops_foldl drops_evict _ _)

theorem drops_clear (registry : Registry) : Drops registry registry.clear.2 :=
  drops_foldl (fun registry (pair : String × ModuleId) => drops_invalidate registry pair.1) _ _

theorem get?_foldl_evict {keep : ModuleId} {victims : List ModuleId} (h : keep ∉ victims)
    (registry : Registry) : (victims.foldl evict registry).get? keep = registry.get? keep := by
  induction victims generalizing registry with
  | nil => rfl
  | cons victim victims ih =>
      rw [List.mem_cons, not_or] at h
      rw [List.foldl_cons, ih h.2, get?_evict, if_neg h.1]

/-- The record just finished is not evicted. -/
theorem get?_evictOverLimit (registry : Registry) (keep : ModuleId) :
    (registry.evictOverLimit keep).get? keep = registry.get? keep :=
  get?_foldl_evict (oldest_perm keep _ _).2 _

/-! ## Moving a record on -/

/-- One record becomes another one, and others may be dropped. -/
structure Moves (registry after : Registry) (id : ModuleId) (changed : ModuleRecord) : Prop where
  size : after.records.size = registry.records.size
  own : after.get? id = some changed
  rest : ∀ {other found}, other ≠ id → after.get? other = some found →
    registry.get? other = some found

theorem Moves.trans (h₁ : Moves registry middle id first) (h₂ : Moves middle after id second) :
    Moves registry after id second :=
  ⟨h₂.size.trans h₁.size, h₂.own, fun hne h => h₁.rest hne (h₂.rest hne h)⟩

theorem Moves.drops (h : Moves registry middle id changed) (hd : Drops middle after)
    (hkept : after.get? id = middle.get? id) : Moves registry after id changed :=
  ⟨hd.size.trans h.size, hkept.trans h.own, fun hne hfound => h.rest hne (hd.rest hfound)⟩

theorem Sets.moves (h : Sets registry after id changed)
    (hsize : after.records.size = registry.records.size) : Moves registry after id changed := by
  refine ⟨hsize, h.get_self, fun hne hfound => ?_⟩
  rw [h.get, if_neg hne] at hfound
  exact hfound

theorem moves_modify (hr : registry.get? id = some record)
    (change : ModuleRecord → ModuleRecord) :
    Moves registry (registry.modify id change) id (change record) :=
  (sets_modify hr change).moves (size_modify ..)

theorem moves_advance (hr : registry.get? id = some record) {next : ModuleState}
    (hn : record.state.canAdvance next = true) :
    Moves registry (registry.advance id next).2 id { record with state := next } :=
  (sets_advance hr hn).2.moves (size_advance ..)

/-- A finished record takes its place in the order, and others may be evicted for it. -/
theorem Moves.settle (h : Moves registry after id changed) :
    Moves registry ((after.touch id).evictOverLimit id) id changed := by
  have htouched : Drops after (after.touch id) := .of_eq rfl
  exact (h.drops htouched rfl).drops (drops_evictOverLimit _ _) (get?_evictOverLimit _ _)

theorem moves_complete (hr : registry.get? id = some record)
    (ht : record.state.isTerminal = false) :
    Moves registry (registry.complete id) id { record with state := .complete } := by
  have hcan : record.state.canAdvance .complete = true := canAdvance_of_isTerminal ht rfl
  have hadvance := (sets_advance hr hcan).1
  unfold complete
  rw [hadvance]
  exact (moves_advance hr hcan).settle

theorem moves_fail (hr : registry.get? id = some record) (ht : record.state.isTerminal = false)
    (message : String) :
    Moves registry (registry.fail id message) id
      { record with state := .errored, error := some message } := by
  have hcan : record.state.canAdvance .errored = true := canAdvance_of_isTerminal ht rfl
  have hadvance := (sets_advance hr hcan).1
  have hmoved := moves_advance hr hcan
  unfold fail
  rw [hadvance]
  exact (hmoved.trans (moves_modify hmoved.own _)).settle

theorem Sets.refl (hr : registry.get? id = some record) : Sets registry registry id record := by
  refine ⟨fun other => ?_, rfl, rfl⟩
  split
  · rename_i heq
    rw [heq, hr]
  · rfl

/-- Execution begins on a new, empty table for a record that has none. -/
theorem sets_beginExecution_new (store : ExportTables) (hr : registry.get? id = some record)
    (hn : record.state.canAdvance .executing = true) (he : record.exports = none) :
    (registry.beginExecution store id).1 = some (store.make []).1 ∧
      (registry.beginExecution store id).2.2 = (store.make []).2 ∧
        Sets registry (registry.beginExecution store id).2.1 id
          { record with state := .executing, exports := some (store.make []).1 } := by
  obtain ⟨hadvance, hsets⟩ := sets_advance hr hn
  unfold beginExecution
  rw [hadvance]
  simp only [hsets.get_self, he, Option.bind_eq_bind, Option.bind_some]
  exact ⟨trivial, trivial, hsets.trans (sets_modify hsets.get_self _)⟩

/-! ## Turns -/

/-- What is done to records in one turn. -/
inductive Turn (registry after : Registry) : Prop where
  | drops (h : Drops registry after)
  | moves {id : ModuleId} {record changed : ModuleRecord} (hr : registry.get? id = some record)
      (h : Moves registry after id changed) (hb : record.Becomes changed)
      (ht : changed.IsTabled)
  /-- The record gets the next id. -/
  | makes {record : ModuleRecord} (size : after.records.size = registry.records.size + 1)
      (rest : ∀ {other found}, after.get? other = some found →
        (other = ⟨registry.records.size⟩ ∧ found = record) ∨ registry.get? other = some found)
      (ht : record.IsTabled)

theorem Turn.of_eq (h : after.records = registry.records) : Turn registry after :=
  .drops (.of_eq h)

theorem get?_congr (h : after.records = registry.records) (id : ModuleId) :
    after.get? id = registry.get? id := by
  rw [get?, get?, h]

/-- What is counted meanwhile does not matter. -/
theorem Turn.congr {first last : Registry} (h : Turn registry after)
    (hf : first.records = registry.records) (hl : last.records = after.records) :
    Turn first last := by
  have hfirst : ∀ id, first.get? id = registry.get? id := get?_congr hf
  have hlast : ∀ id, last.get? id = after.get? id := get?_congr hl
  cases h with
  | drops h =>
      refine .drops ⟨by rw [hl, hf, h.size], fun {other found} hfound => ?_⟩
      rw [hfirst]
      exact h.rest ((hlast other).symm.trans hfound)
  | moves hr h hb ht =>
      refine .moves ((hfirst _).trans hr) ⟨by rw [hl, hf, h.size], (hlast _).trans h.own, ?_⟩ hb ht
      intro other found hne hfound
      rw [hfirst]
      exact h.rest hne ((hlast other).symm.trans hfound)
  | makes size rest ht =>
      refine .makes (by rw [hl, hf, size]) (fun {other found} hfound => ?_) ht
      rw [hfirst, hf]
      exact rest ((hlast other).symm.trans hfound)

theorem index_lt (h : registry.get? id = some record) : id.index < registry.records.size := by
  obtain ⟨hlt, -⟩ := Array.getElem?_eq_some_iff.mp (Option.join_eq_some_iff.mp h)
  exact hlt

theorem get?_insert (registry : Registry) (key : String) (format : ModuleFormat)
    (other : ModuleId) : (registry.insert key format).2.get? other =
      if other = (registry.insert key format).1 then some { key, format }
      else (registry.invalidate key).2.get? other := by
  obtain ⟨place⟩ := other
  unfold insert get?
  simp only [Array.getElem?_push, ModuleId.mk.injEq]
  split <;> rfl

/-- The record of a load gets the next id. -/
theorem index_insert (registry : Registry) (key : String) (format : ModuleFormat) :
    (registry.insert key format).1 = ⟨registry.records.size⟩ := by
  unfold insert
  simp only [(drops_invalidate registry key).size]

theorem lookup?_insert (registry : Registry) (key : String) (format : ModuleFormat) :
    (registry.insert key format).2.lookup? key = some (registry.insert key format).1 := by
  unfold insert lookup?
  simp only [List.lookup_cons, beq_self_eq_true]

theorem lookup?_advance (registry : Registry) (id : ModuleId) (next : ModuleState) (key : String) :
    (registry.advance id next).2.lookup? key = registry.lookup? key := by
  unfold advance
  split
  · rfl
  · split <;> rfl

/-- A record is made for a load and moves on to resolving at once. -/
theorem turn_insert (registry : Registry) (key : String) (format : ModuleFormat) :
    Turn registry ((registry.insert key format).2.advance (registry.insert key format).1
        .resolving).2 ∧
      ((registry.insert key format).2.advance (registry.insert key format).1 .resolving).2.get?
        ⟨registry.records.size⟩ = some { key, format, state := .resolving } := by
  have hindex := index_insert registry key format
  have hget := get?_insert registry key format
  have hown : (registry.insert key format).2.get? ⟨registry.records.size⟩ = some { key, format } := by
    rw [hget, if_pos hindex.symm]
  have hnew : ModuleState.unresolved.canAdvance .resolving = true := rfl
  have hmoved := moves_advance hown hnew
  have hsize : (registry.insert key format).2.records.size = registry.records.size + 1 := by
    unfold insert
    simp only [Array.size_push, (drops_invalidate registry key).size]
  rw [hindex]
  have htabled : ModuleRecord.IsTabled { key, format, state := .resolving } :=
    .of_early rfl fun h => nomatch h
  refine ⟨.makes (hmoved.size.trans hsize) ?_ htabled, hmoved.own⟩
  intro other found hfound
  by_cases hother : other = ⟨registry.records.size⟩
  · subst hother
    rw [hmoved.own] at hfound
    exact Or.inl ⟨rfl, (Option.some.inj hfound).symm⟩
  · have hbefore := hmoved.rest hother hfound
    rw [hget, hindex, if_neg hother] at hbefore
    exact Or.inr ((drops_invalidate registry key).rest hbefore)

/-- Dropping a module leaves those under other keys. -/
theorem Sound.get?_invalidate (h : Sound registry) {key : String}
    (hr : registry.get? id = some record) (hk : record.key ≠ key) :
    (registry.invalidate key).2.get? id = some record := by
  unfold invalidate
  split
  · exact hr
  · rename_i dropped hl
    obtain ⟨found, hfound, hkey, -⟩ := h.of_lookup hl
    have hne : id ≠ dropped := by
      rintro rfl
      rw [hr] at hfound
      cases hfound
      exact hk hkey
    exact (get?_dropRecord registry dropped id).trans ((if_neg hne).trans hr)

/-- So does making one. -/
theorem Sound.get?_insert (h : Sound registry) {key : String} (format : ModuleFormat)
    (hr : registry.get? id = some record) (hk : record.key ≠ key) :
    ((registry.insert key format).2.advance (registry.insert key format).1 .resolving).2.get? id =
      some record := by
  have hindex := index_insert registry key format
  have hget := Registry.get?_insert registry key format
  have hown : (registry.insert key format).2.get? (registry.insert key format).1 =
      some { key, format } := by
    rw [hget, if_pos rfl]
  have hne : id ≠ (registry.insert key format).1 := by
    rw [hindex]
    rintro rfl
    exact absurd (index_lt hr) (Nat.lt_irrefl _)
  have hnew : ModuleState.unresolved.canAdvance .resolving = true := rfl
  rw [(sets_advance hown hnew).2.get, if_neg hne, hget, if_neg hne]
  exact h.get?_invalidate hr hk

/-! ## Tables -/

/-- Every record has its table when it should. -/
def Tabled (registry : Registry) : Prop :=
  ∀ {id record}, registry.get? id = some record → record.IsTabled

theorem tabled_empty (maxSize : Nat) : Tabled { maxSize } := by
  intro id record hr
  simp [get?] at hr

theorem Turn.tabled (h : Turn registry after) (ht : registry.Tabled) : after.Tabled := by
  intro other found hfound
  cases h with
  | drops h => exact ht (h.rest hfound)
  | @moves id _ _ _ h _ hchanged =>
      by_cases heq : other = id
      · subst heq
        rw [h.own] at hfound
        cases hfound
        exact hchanged
      · exact ht (h.rest heq hfound)
  | makes _ rest hmade =>
      rcases rest hfound with ⟨-, rfl⟩ | hbefore
      · exact hmade
      · exact ht hbefore

/-! ## Later registries -/

/-- A later registry gives out new ids, and what stands under an id that was given out
before comes from the record it named. -/
structure Precedes (registry after : Registry) : Prop where
  size : registry.records.size ≤ after.records.size
  origin : ∀ {id now}, after.get? id = some now → id.index < registry.records.size →
    ∃ before, registry.get? id = some before ∧ before.Becomes now

theorem Precedes.refl (registry : Registry) : Precedes registry registry :=
  ⟨Nat.le_refl _, fun h _ => ⟨_, h, .refl _⟩⟩

theorem Precedes.trans (h₁ : Precedes registry middle) (h₂ : Precedes middle after) :
    Precedes registry after := by
  refine ⟨Nat.le_trans h₁.size h₂.size, fun {id now} hnow hlt => ?_⟩
  obtain ⟨between, hbetween, hlast⟩ := h₂.origin hnow (Nat.lt_of_lt_of_le hlt h₁.size)
  obtain ⟨before, hbefore, hfirst⟩ := h₁.origin hbetween hlt
  exact ⟨before, hbefore, hfirst.trans hlast⟩

theorem Turn.precedes (h : Turn registry after) : Precedes registry after := by
  cases h with
  | drops h => exact ⟨Nat.le_of_eq h.size.symm, fun hnow _ => ⟨_, h.rest hnow, .refl _⟩⟩
  | @moves id record _ hr h hb _ =>
      refine ⟨Nat.le_of_eq h.size.symm, fun {other now} hnow _ => ?_⟩
      by_cases heq : other = id
      · subst heq
        rw [h.own] at hnow
        cases hnow
        exact ⟨record, hr, hb⟩
      · exact ⟨now, h.rest heq hnow, .refl _⟩
  | makes size rest _ =>
      refine ⟨by omega, fun {other now} hnow hlt => ?_⟩
      rcases rest hnow with ⟨rfl, -⟩ | hbefore
      · exact absurd hlt (Nat.lt_irrefl _)
      · exact ⟨now, hbefore, .refl _⟩

/-- A finished record that is still there is as it was. -/
theorem Precedes.eq_of_finished (h : Precedes registry after) (hr : registry.get? id = some record)
    (ht : record.state.isTerminal = true) {now : ModuleRecord} (hn : after.get? id = some now) :
    now = record := by
  obtain ⟨before, hbefore, hbecomes⟩ := h.origin hn (index_lt hr)
  rw [hr] at hbefore
  cases hbefore
  exact hbecomes.finished ht

/-! ## Modules that are there -/

/-- A module is there, or its body is running, with known exports. -/
def Holds (registry : Registry) (key : String) (handle : Handle) : Prop :=
  ∃ id record, registry.lookup? key = some id ∧ registry.get? id = some record ∧
    record.exports = some handle ∧ (record.state = .executing ∨ record.state = .complete)

theorem Holds.congr {key : String} {handle : Handle} (h : Holds registry key handle)
    (hrecords : after.records = registry.records) (hids : after.ids = registry.ids) :
    Holds after key handle := by
  obtain ⟨id, record, hl, hr, hrest⟩ := h
  refine ⟨id, record, ?_, (get?_congr hrecords id).trans hr, hrest⟩
  rw [lookup?, hids]
  exact hl

end Registry

end ScriptModules
