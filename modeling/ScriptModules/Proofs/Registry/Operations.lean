import ScriptModules.Proofs.Registry.Succession

/-!
# Any sequence of operations on a registry

Loads use a registry in a certain order, but the registry does not rely on it.  Its
operations may be done in any order and with any ids: of finished records, of records in
flight, of records that are gone, and with ids that were never given out.

Whatever is done, the table of keys and the arena of records stay inverse to each other
(`Regular`), and what an id names only moves on (`Follows`): a record that is gone does not
come back, a state is followed by states of higher rank only, and the last states by none.
Ids are given out in order, so none is given out twice.
-/

namespace ScriptModules

namespace ModuleState

variable {state next last : ModuleState}

/-- A state stays as it is or, unless it is one of the last, moves on to one of higher rank. -/
def Reaches (state next : ModuleState) : Prop :=
  state = next ∨ (state.isTerminal = false ∧ state.rank < next.rank)

theorem Reaches.refl (state : ModuleState) : state.Reaches state :=
  Or.inl rfl

theorem Reaches.trans (h₁ : state.Reaches next) (h₂ : next.Reaches last) : state.Reaches last := by
  rcases h₁ with rfl | ⟨ht, hfirst⟩
  · exact h₂
  · rcases h₂ with rfl | ⟨-, hlast⟩
    · exact Or.inr ⟨ht, hfirst⟩
    · exact Or.inr ⟨ht, Nat.lt_trans hfirst hlast⟩

theorem Reaches.of_canAdvance (h : state.canAdvance next = true) : state.Reaches next := by
  right
  revert h
  cases state <;> cases next <;> decide

end ModuleState

/-! ## Operations -/

/-- An operation that may change a registry. -/
inductive RegistryAction where
  | insert (key : String) (format : ModuleFormat)
  | advance (id : ModuleId) (next : ModuleState)
  /-- A new table of exports comes from the tables given. -/
  | beginExecution (store : ExportTables) (id : ModuleId)
  | setExports (id : ModuleId) (exports : Handle)
  | setCompiled (id : ModuleId) (fingerprint : Option Fingerprint) (sourceLength : Nat)
  | setFormat (id : ModuleId) (format : ModuleFormat)
  | setDependencies (id : ModuleId) (dependencies : List String)
  | complete (id : ModuleId)
  | fail (id : ModuleId) (message : String)
  | touch (id : ModuleId)
  | invalidate (key : String)
  | clear
  | countStarted
  | countSucceeded
  | countFailed
  | countHit
  | countMiss

namespace Registry

/-- The registry after an operation. -/
def perform (registry : Registry) : RegistryAction → Registry
  | .insert key format => (registry.insert key format).2
  | .advance id next => (registry.advance id next).2
  | .beginExecution store id => (registry.beginExecution store id).2.1
  | .setExports id exports => registry.setExports id exports
  | .setCompiled id fingerprint sourceLength => registry.setCompiled id fingerprint sourceLength
  | .setFormat id format => registry.setFormat id format
  | .setDependencies id dependencies => registry.setDependencies id dependencies
  | .complete id => registry.complete id
  | .fail id message => registry.fail id message
  | .touch id => registry.touch id
  | .invalidate key => (registry.invalidate key).2
  | .clear => registry.clear.2
  | .countStarted => registry.countStarted
  | .countSucceeded => registry.countSucceeded
  | .countFailed => registry.countFailed
  | .countHit => registry.countHit
  | .countMiss => registry.countMiss

/-- The registry after operations, one after the other. -/
def performAll (registry : Registry) (actions : List RegistryAction) : Registry :=
  actions.foldl perform registry

/-- The id an operation gives out. -/
def issue? (registry : Registry) : RegistryAction → Option ModuleId
  | .insert key format => some (registry.insert key format).1
  | _ => none

/-- The ids that operations give out, in order. -/
def issued (registry : Registry) : List RegistryAction → List ModuleId
  | [] => []
  | action :: actions => (registry.issue? action).toList ++ (registry.perform action).issued actions

/-- The ids that name a record. -/
def liveIds (registry : Registry) : List ModuleId :=
  ((List.range registry.records.size).map ModuleId.mk).filter fun id => (registry.get? id).isSome

variable {registry middle after : Registry} {id : ModuleId} {record : ModuleRecord}

/-! ## What an operation with an id comes to -/

/-- A record advances, or nothing happens. -/
theorem advance_cases (registry : Registry) (id : ModuleId) (next : ModuleState) :
    registry.advance id next = (false, registry) ∨
      ∃ record, registry.get? id = some record ∧ record.state.canAdvance next = true := by
  unfold advance
  cases hr : registry.get? id with
  | none => exact Or.inl rfl
  | some record =>
      by_cases hn : record.state.canAdvance next = true
      · exact Or.inr ⟨record, rfl, hn⟩
      · exact Or.inl (if_neg hn)

theorem beginExecution_cases (registry : Registry) (store : ExportTables) (id : ModuleId) :
    (registry.beginExecution store id).2.1 = registry ∨
      ∃ record, registry.get? id = some record ∧ record.state.canAdvance .executing = true := by
  rcases advance_cases registry id .executing with hsame | hadvances
  · left
    unfold beginExecution
    rw [hsame]
  · exact Or.inr hadvances

theorem complete_cases (registry : Registry) (id : ModuleId) : registry.complete id = registry ∨
    ∃ record, registry.get? id = some record ∧ record.state.canAdvance .complete = true := by
  rcases advance_cases registry id .complete with hsame | hadvances
  · left
    unfold complete
    rw [hsame]
  · exact Or.inr hadvances

theorem fail_cases (registry : Registry) (id : ModuleId) (message : String) :
    registry.fail id message = registry ∨
      ∃ record, registry.get? id = some record ∧ record.state.canAdvance .errored = true := by
  rcases advance_cases registry id .errored with hsame | hadvances
  · left
    unfold fail
    rw [hsame]
  · exact Or.inr hadvances

theorem get?_modify_of_none (hr : registry.get? id = none)
    (change : ModuleRecord → ModuleRecord) (other : ModuleId) :
    (registry.modify id change).get? other = registry.get? other := by
  rw [get?_modify, hr]
  split
  · rename_i heq
    rw [heq, hr]
    rfl
  · rfl

/-! ## Regular registries -/

/-- Arena and table belong together, and nothing stands in the order twice. -/
structure Regular (registry : Registry) : Prop extends Keyed registry where
  order_nodup : registry.order.Nodup

theorem regular_empty (maxSize : Nat) : Regular { maxSize } :=
  ⟨keyed_empty maxSize, List.nodup_nil⟩

theorem Regular.sets (h : Regular registry) {changed : ModuleRecord}
    (hr : registry.get? id = some record) (hs : Sets registry after id changed)
    (hkey : changed.key = record.key) : Regular after :=
  ⟨h.toKeyed.sets hr hs hkey, hs.order ▸ h.order_nodup⟩

theorem Regular.modify (h : Regular registry) (id : ModuleId)
    {change : ModuleRecord → ModuleRecord} (hkey : ∀ record, (change record).key = record.key) :
    Regular (registry.modify id change) := by
  cases hr : registry.get? id with
  | none => exact ⟨h.toKeyed.congr (get?_modify_of_none hr change) rfl, h.order_nodup⟩
  | some record => exact h.sets hr (sets_modify hr change) (hkey record)

theorem Regular.advance (h : Regular registry) (id : ModuleId) (next : ModuleState) :
    Regular (registry.advance id next).2 := by
  rcases advance_cases registry id next with hsame | ⟨record, hr, hn⟩
  · rw [hsame]
    exact h
  · exact h.sets hr (sets_advance hr hn).2 rfl

theorem Regular.beginExecution (h : Regular registry) (store : ExportTables) (id : ModuleId) :
    Regular (registry.beginExecution store id).2.1 := by
  rcases beginExecution_cases registry store id with hsame | ⟨record, hr, hn⟩
  · rw [hsame]
    exact h
  · obtain ⟨handle, -, -, hsets⟩ := sets_beginExecution store hr hn
    exact h.sets hr hsets rfl

theorem Regular.touch (h : Regular registry) (id : ModuleId) : Regular (registry.touch id) :=
  ⟨h.toKeyed.congr (fun _ => rfl) rfl, nodup_touch h.order_nodup id⟩

theorem Regular.evict (h : Regular registry) (id : ModuleId) : Regular (registry.evict id) := by
  have hget := get?_evict registry id
  unfold Registry.evict at hget ⊢
  split at hget
  · exact h
  · rename_i record hr
    exact ⟨h.toKeyed.drop hr hget rfl, h.order_nodup⟩

theorem Regular.evictOverLimit (h : Regular registry) (keep : ModuleId) :
    Regular (registry.evictOverLimit keep) := by
  have hfold : ∀ (victims : List ModuleId) {registry : Registry}, Regular registry →
      Regular (victims.foldl Registry.evict registry) := by
    intro victims
    induction victims with
    | nil => exact fun h => h
    | cons victim victims ih => exact fun h => ih (h.evict victim)
  obtain ⟨hperm, -⟩ := oldest_perm keep (registry.order.length - registry.maxSize) registry.order
  have hnodup := hperm.nodup_iff.mpr h.order_nodup
  have hordered : Regular { registry with
      order := (oldest keep (registry.order.length - registry.maxSize) registry.order).2 } :=
    ⟨h.toKeyed.congr (fun _ => rfl) rfl, (List.nodup_append.mp hnodup).2.1⟩
  exact hfold _ hordered

theorem Regular.complete (h : Regular registry) (id : ModuleId) :
    Regular (registry.complete id) := by
  rcases complete_cases registry id with hsame | ⟨record, hr, hn⟩
  · rw [hsame]
    exact h
  · unfold Registry.complete
    rw [(sets_advance hr hn).1]
    exact ((h.advance id .complete).touch id).evictOverLimit id

theorem Regular.fail (h : Regular registry) (id : ModuleId) (message : String) :
    Regular (registry.fail id message) := by
  rcases fail_cases registry id message with hsame | ⟨record, hr, hn⟩
  · rw [hsame]
    exact h
  · unfold Registry.fail
    rw [(sets_advance hr hn).1]
    have hnoted : Regular ((registry.advance id .errored).2.modify id fun record =>
        { record with error := some message }) := (h.advance id .errored).modify id fun _ => rfl
    exact (hnoted.touch id).evictOverLimit id

theorem Regular.invalidate (h : Regular registry) (key : String) :
    Regular (registry.invalidate key).2 := by
  unfold Registry.invalidate
  split
  · exact h
  · rename_i id hl
    obtain ⟨record, hr, hk⟩ := h.lookup?_eq_some_iff.mp hl
    subst hk
    exact ⟨h.toKeyed.drop hr (get?_dropRecord registry id) rfl,
      h.order_nodup.sublist List.filter_sublist⟩

theorem Regular.insert (h : Regular registry) (key : String) (format : ModuleFormat) :
    Regular (registry.insert key format).2 := by
  have hdropped := h.invalidate key
  have hfree := get?_size (registry.invalidate key).2
  exact ⟨hdropped.toKeyed.add (lookup?_invalidate registry key) hfree
    (get?_insert registry key format) rfl, hdropped.order_nodup⟩

theorem Regular.clear (h : Regular registry) : Regular registry.clear.2 := by
  have hfold : ∀ (finished : List (String × ModuleId)) {registry : Registry}, Regular registry →
      Regular (finished.foldl (fun registry pair => (registry.invalidate pair.1).2) registry) := by
    intro finished
    induction finished with
    | nil => exact fun h => h
    | cons pair finished ih => exact fun h => ih (h.invalidate pair.1)
  exact hfold _ h

/-- Every operation keeps a registry regular. -/
theorem Regular.perform (h : Regular registry) (action : RegistryAction) :
    Regular (registry.perform action) := by
  have hcounted : ∀ {after : Registry}, after.records = registry.records →
      after.ids = registry.ids → after.order = registry.order → Regular after := by
    intro after hrecords hids horder
    exact ⟨h.toKeyed.congr (get?_congr hrecords) hids, horder ▸ h.order_nodup⟩
  cases action with
  | insert key format => exact h.insert key format
  | advance id next => exact h.advance id next
  | beginExecution store id => exact h.beginExecution store id
  | setExports id exports => exact h.modify id fun _ => rfl
  | setCompiled id fingerprint sourceLength => exact h.modify id fun _ => rfl
  | setFormat id format => exact h.modify id fun _ => rfl
  | setDependencies id dependencies => exact h.modify id fun _ => rfl
  | complete id => exact h.complete id
  | fail id message => exact h.fail id message
  | touch id => exact h.touch id
  | invalidate key => exact h.invalidate key
  | clear => exact h.clear
  | countStarted => exact hcounted rfl rfl rfl
  | countSucceeded => exact hcounted rfl rfl rfl
  | countFailed => exact hcounted rfl rfl rfl
  | countHit => exact hcounted rfl rfl rfl
  | countMiss => exact hcounted rfl rfl rfl

theorem Regular.performAll (h : Regular registry) (actions : List RegistryAction) :
    Regular (registry.performAll actions) := by
  induction actions generalizing registry with
  | nil => exact h
  | cons action actions ih => exact ih (h.perform action)

theorem mem_liveIds : id ∈ registry.liveIds ↔ ∃ record, registry.get? id = some record := by
  rw [liveIds, List.mem_filter, List.mem_map, Option.isSome_iff_exists]
  constructor
  · exact fun h => h.2
  · rintro ⟨record, hr⟩
    exact ⟨⟨_, List.mem_range.mpr (index_lt hr), rfl⟩, record, hr⟩

/-- There are as many keys as records. -/
theorem Keyed.size_eq (h : Keyed registry) : registry.size = registry.liveIds.length := by
  have hids : (registry.ids.map (·.2)).Nodup := by
    have hkeys := h.nodup
    rw [List.Nodup, List.pairwise_map] at hkeys ⊢
    refine hkeys.imp_of_mem ?_
    intro first second hfirst hsecond hne heq
    obtain ⟨record, hr, hk⟩ := h.get_id hfirst
    obtain ⟨found, hf, hk'⟩ := h.get_id hsecond
    rw [heq, hf] at hr
    cases hr
    exact hne (hk.symm.trans hk')
  have hlive : registry.liveIds.Nodup := by
    refine List.Pairwise.sublist List.filter_sublist
      (List.pairwise_map.mpr (List.nodup_range.imp ?_))
    intro first second hne heq
    exact hne (congrArg ModuleId.index heq)
  have hperm : (registry.ids.map (·.2)).Perm registry.liveIds := by
    rw [List.perm_ext_iff_of_nodup hids hlive]
    intro id
    rw [List.mem_map, mem_liveIds]
    constructor
    · rintro ⟨⟨key, other⟩, hmem, rfl⟩
      obtain ⟨record, hr, -⟩ := h.get_id hmem
      exact ⟨record, hr⟩
    · rintro ⟨record, hr⟩
      exact ⟨(record.key, id), Association.mem_of_lookup (h.lookup_key hr), rfl⟩
  rw [size, ← hperm.length_eq, List.length_map]

/-! ## Later registries -/

/-- A registry from another one: so many ids were given out since, and what stands under an id
given out before was there already, in a state that leads to the one it has now. -/
structure Follows (registry : Registry) (made : Nat) (after : Registry) : Prop where
  size : after.records.size = registry.records.size + made
  origin : ∀ {id now}, after.get? id = some now → id.index < registry.records.size →
    ∃ before, registry.get? id = some before ∧ before.state.Reaches now.state

theorem Follows.trans {made more : Nat} (h₁ : Follows registry made middle)
    (h₂ : Follows middle more after) : Follows registry (made + more) after := by
  have hsize := h₁.size
  refine ⟨by rw [h₂.size, h₁.size, Nat.add_assoc], fun {id now} hnow hlt => ?_⟩
  obtain ⟨between, hbetween, hlast⟩ := h₂.origin hnow (by omega)
  obtain ⟨before, hbefore, hfirst⟩ := h₁.origin hbetween hlt
  exact ⟨before, hbefore, hfirst.trans hlast⟩

theorem Drops.follows (h : Drops registry after) : Follows registry 0 after :=
  ⟨h.size, fun hnow _ => ⟨_, h.rest hnow, .refl _⟩⟩

theorem Moves.follows {changed : ModuleRecord} (h : Moves registry after id changed)
    (hr : registry.get? id = some record) (hs : record.state.Reaches changed.state) :
    Follows registry 0 after := by
  refine ⟨h.size, fun {other now} hnow _ => ?_⟩
  by_cases heq : other = id
  · subst heq
    rw [h.own] at hnow
    cases hnow
    exact ⟨record, hr, hs⟩
  · exact ⟨now, h.rest heq hnow, .refl _⟩

theorem follows_modify (registry : Registry) (id : ModuleId)
    {change : ModuleRecord → ModuleRecord} (hstate : ∀ record, (change record).state = record.state) :
    Follows registry 0 (registry.modify id change) := by
  cases hr : registry.get? id with
  | none =>
      refine ⟨size_modify .., fun {other now} hnow _ => ?_⟩
      rw [get?_modify_of_none hr] at hnow
      exact ⟨now, hnow, .refl _⟩
  | some record =>
      have hsame : record.state.Reaches (change record).state := Or.inl (hstate record).symm
      exact (moves_modify hr change).follows hr hsame

theorem follows_advance (registry : Registry) (id : ModuleId) (next : ModuleState) :
    Follows registry 0 (registry.advance id next).2 := by
  rcases advance_cases registry id next with hsame | ⟨record, hr, hn⟩
  · rw [hsame]
    exact (Drops.refl registry).follows
  · exact (moves_advance hr hn).follows hr (.of_canAdvance hn)

theorem follows_beginExecution (registry : Registry) (store : ExportTables) (id : ModuleId) :
    Follows registry 0 (registry.beginExecution store id).2.1 := by
  rcases beginExecution_cases registry store id with hsame | ⟨record, hr, hn⟩
  · rw [hsame]
    exact (Drops.refl registry).follows
  · obtain ⟨handle, -, -, hsets⟩ := sets_beginExecution store hr hn
    exact (hsets.moves (size_beginExecution ..)).follows hr (.of_canAdvance hn)

theorem follows_complete (registry : Registry) (id : ModuleId) :
    Follows registry 0 (registry.complete id) := by
  rcases complete_cases registry id with hsame | ⟨record, hr, hn⟩
  · rw [hsame]
    exact (Drops.refl registry).follows
  · have hmoves := moves_complete hr (ModuleState.isTerminal_of_canAdvance hn)
    exact hmoves.follows hr (.of_canAdvance hn)

theorem follows_fail (registry : Registry) (id : ModuleId) (message : String) :
    Follows registry 0 (registry.fail id message) := by
  rcases fail_cases registry id message with hsame | ⟨record, hr, hn⟩
  · rw [hsame]
    exact (Drops.refl registry).follows
  · have hmoves := moves_fail hr (ModuleState.isTerminal_of_canAdvance hn) message
    exact hmoves.follows hr (.of_canAdvance hn)

theorem follows_insert (registry : Registry) (key : String) (format : ModuleFormat) :
    Follows registry 1 (registry.insert key format).2 := by
  have hdrops := drops_invalidate registry key
  refine ⟨?_, fun {id now} hnow hlt => ?_⟩
  · unfold insert
    simp only [Array.size_push, hdrops.size]
  · have hne : id ≠ (registry.insert key format).1 := by
      rw [index_insert]
      rintro rfl
      exact Nat.lt_irrefl _ hlt
    rw [get?_insert, if_neg hne] at hnow
    exact ⟨now, hdrops.rest hnow, .refl _⟩

/-- What one operation does to the records there were. -/
theorem follows_perform (registry : Registry) (action : RegistryAction) :
    Follows registry (registry.issue? action).toList.length (registry.perform action) := by
  have hsame : ∀ {after : Registry}, after.records = registry.records → Follows registry 0 after :=
    fun hrecords => (Drops.of_eq hrecords).follows
  cases action with
  | insert key format => exact follows_insert registry key format
  | advance id next => exact follows_advance registry id next
  | beginExecution store id => exact follows_beginExecution registry store id
  | setExports id exports => exact follows_modify registry id fun _ => rfl
  | setCompiled id fingerprint sourceLength => exact follows_modify registry id fun _ => rfl
  | setFormat id format => exact follows_modify registry id fun _ => rfl
  | setDependencies id dependencies => exact follows_modify registry id fun _ => rfl
  | complete id => exact follows_complete registry id
  | fail id message => exact follows_fail registry id message
  | touch id => exact hsame rfl
  | invalidate key => exact (drops_invalidate registry key).follows
  | clear => exact (drops_clear registry).follows
  | countStarted => exact hsame rfl
  | countSucceeded => exact hsame rfl
  | countFailed => exact hsame rfl
  | countHit => exact hsame rfl
  | countMiss => exact hsame rfl

theorem follows_performAll (registry : Registry) (actions : List RegistryAction) :
    Follows registry (registry.issued actions).length (registry.performAll actions) := by
  induction actions generalizing registry with
  | nil => exact (Drops.refl registry).follows
  | cons action actions ih =>
      rw [issued, List.length_append]
      exact (follows_perform registry action).trans (ih _)

/-! ## Ids -/

/-- The next id is the number of ids given out so far. -/
theorem issue?_eq {action : RegistryAction} (h : registry.issue? action = some id) :
    id = ⟨registry.records.size⟩ := by
  cases action with
  | insert key format =>
      rw [← index_insert registry key format]
      exact (Option.some.inj h).symm
  | _ => cases h

/-- Ids are given out one after the other. -/
theorem issued_eq (registry : Registry) (actions : List RegistryAction) :
    registry.issued actions =
      (List.range' registry.records.size (registry.issued actions).length).map ModuleId.mk := by
  induction actions generalizing registry with
  | nil => rfl
  | cons action actions ih =>
      have hsize := (follows_perform registry action).size
      rw [issued]
      cases hissue : registry.issue? action with
      | none =>
          rw [hissue] at hsize
          rw [Option.toList_none, List.nil_append]
          rw [ih, hsize]
          simp
      | some id =>
          rw [hissue] at hsize
          rw [issue?_eq hissue, Option.toList_some, List.singleton_append, List.length_cons,
            List.range'_succ, List.map_cons]
          congr 1
          rw [ih, hsize]
          simp

/-- No id is given out twice. -/
theorem nodup_issued (registry : Registry) (actions : List RegistryAction) :
    (registry.issued actions).Nodup := by
  rw [issued_eq]
  refine List.pairwise_map.mpr ((List.pairwise_lt_range' 1).imp fun hlt heq => ?_)
  exact Nat.ne_of_lt hlt (congrArg ModuleId.index heq)

theorem index_lt_of_mem_issued (maxSize : Nat) {actions : List RegistryAction}
    (h : id ∈ issued { maxSize } actions) : id.index < (issued { maxSize } actions).length := by
  rw [issued_eq, List.mem_map] at h
  obtain ⟨index, hmem, rfl⟩ := h
  have hlt := List.mem_range'_1.mp hmem
  simpa using hlt

/-! ## Any sequence of operations -/

theorem performAll_append (registry : Registry) (earlier later : List RegistryAction) :
    registry.performAll (earlier ++ later) = (registry.performAll earlier).performAll later :=
  List.foldl_append

/-- A record that was there and is gone does not come back. -/
theorem get?_performAll_of_none (registry : Registry) (actions : List RegistryAction)
    (hlt : id.index < registry.records.size) (hgone : registry.get? id = none) :
    (registry.performAll actions).get? id = none := by
  rw [Option.eq_none_iff_forall_ne_some]
  intro now hnow
  obtain ⟨before, hbefore, -⟩ := (follows_performAll registry actions).origin hnow hlt
  rw [hgone] at hbefore
  cases hbefore

/-- What any sequence of operations makes of a new registry. -/
structure KeepsRecords (maxSize : Nat) : Prop where
  /-- A key leads to an id exactly if the id names a record of the key. -/
  inverse : ∀ (actions : List RegistryAction) (key : String) (id : ModuleId),
    (performAll { maxSize } actions).lookup? key = some id ↔
      ∃ record, (performAll { maxSize } actions).get? id = some record ∧ record.key = key
  size : ∀ actions : List RegistryAction,
    (performAll { maxSize } actions).size = (performAll { maxSize } actions).liveIds.length
  /-- No id is given out twice. -/
  issued_nodup : ∀ actions : List RegistryAction, (issued { maxSize } actions).Nodup
  /-- An id is a number below that of all records made. -/
  index_lt : ∀ (actions : List RegistryAction), ∀ id ∈ issued { maxSize } actions,
    id.index < (issued { maxSize } actions).length
  /-- An id whose record is gone names nothing any more. -/
  gone : ∀ (earlier later : List RegistryAction), ∀ id ∈ issued { maxSize } earlier,
    (performAll { maxSize } earlier).get? id = none →
      (performAll { maxSize } (earlier ++ later)).get? id = none ∧
        ∀ key, (performAll { maxSize } (earlier ++ later)).lookup? key ≠ some id
  /-- The states under an id are of ever higher rank, and the last states stay. -/
  state : ∀ (earlier later : List RegistryAction) {id : ModuleId} {before now : ModuleRecord},
    (performAll { maxSize } earlier).get? id = some before →
      (performAll { maxSize } (earlier ++ later)).get? id = some now →
        before.state.Reaches now.state
  order_nodup : ∀ actions : List RegistryAction, (performAll { maxSize } actions).order.Nodup

/-- Whatever is done with a new registry, in any order and with any ids. -/
theorem keepsRecords (maxSize : Nat) : KeepsRecords maxSize := by
  have hregular : ∀ actions, Regular (performAll { maxSize } actions) :=
    (regular_empty maxSize).performAll
  constructor
  case inverse => exact fun actions key id => (hregular actions).lookup?_eq_some_iff
  case size => exact fun actions => (hregular actions).size_eq
  case issued_nodup => exact nodup_issued { maxSize }
  case index_lt => exact fun actions id => index_lt_of_mem_issued maxSize
  case gone =>
    intro earlier later id hmem hgone
    have hlt : id.index < (performAll { maxSize } earlier).records.size := by
      rw [(follows_performAll { maxSize } earlier).size]
      exact Nat.lt_add_left _ (index_lt_of_mem_issued maxSize hmem)
    have hnone : (performAll { maxSize } (earlier ++ later)).get? id = none := by
      rw [performAll_append]
      exact get?_performAll_of_none _ later hlt hgone
    refine ⟨hnone, fun key hl => ?_⟩
    obtain ⟨now, hnow, -⟩ := (hregular _).lookup?_eq_some_iff.mp hl
    rw [hnone] at hnow
    cases hnow
  case state =>
    intro earlier later id before now hbefore hnow
    rw [performAll_append] at hnow
    obtain ⟨found, hfound, hreaches⟩ :=
      (follows_performAll _ later).origin hnow (Registry.index_lt hbefore)
    rw [hbefore] at hfound
    cases hfound
    exact hreaches
  case order_nodup => exact fun actions => (hregular actions).order_nodup

end Registry

end ScriptModules
