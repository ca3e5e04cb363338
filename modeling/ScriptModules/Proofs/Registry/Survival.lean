import Mathlib.Data.List.Induction
import ScriptModules.Proofs.Registry.Operations

/-!
# Records in flight

Only finished records are meant to be dropped to make room.  Eviction does not look at the
state of a record, though: it drops what stands first in the order of finished records.  An id
gets into that order when its record is finished, but also when it is touched, and then nobody
asks what it names.

So a record in flight leaves by an operation on its key, as it should, or it has been touched
(`KeepsInFlight`).  In the order it is as good as lost: enough loads of other modules, none of
which has to do with it, drop it (`exists_loads_dropping`).
-/

namespace ScriptModules

namespace RegistryAction

/-- The id an operation is given. -/
def id? : RegistryAction → Option ModuleId
  | .advance id _ | .beginExecution _ id | .setExports id _ | .setCompiled id _ _
  | .setFormat id _ | .setDependencies id _ | .complete id | .fail id _ | .touch id => some id
  | .insert .. | .invalidate _ | .clear | .countStarted | .countSucceeded | .countFailed
  | .countHit | .countMiss => none

/-- The key an operation is given. -/
def key? : RegistryAction → Option String
  | .insert key _ | .invalidate key => some key
  | _ => none

/-- The id of the record an operation finishes, if that can be finished. -/
def finishes? : RegistryAction → Option ModuleId
  | .complete id | .fail id _ => some id
  | _ => none

/-- An operation that has nothing to do with a record, by its id or by its key. -/
structure Spares (id : ModuleId) (key : String) (action : RegistryAction) : Prop where
  id_ne : action.id? ≠ some id
  key_ne : action.key? ≠ some key

end RegistryAction

namespace Registry

open RegistryAction (Spares)

variable {registry after : Registry} {id keep : ModuleId} {record : ModuleRecord}

/-! ## What eviction takes -/

theorem get?_foldl_evict_of_mem {victims : List ModuleId} (h : id ∈ victims)
    (registry : Registry) : (victims.foldl evict registry).get? id = none := by
  induction victims generalizing registry with
  | nil => cases h
  | cons victim victims ih =>
      rw [List.foldl_cons]
      by_cases hrest : id ∈ victims
      · exact ih hrest _
      · obtain rfl : id = victim := (List.mem_cons.mp h).resolve_right hrest
        rw [get?_foldl_evict hrest, get?_evict, if_pos rfl]

/-- What an eviction leaves as it is, so do many. -/
theorem foldl_evict_eq {α : Type} (part : Registry → α)
    (h : ∀ registry victim, part (evict registry victim) = part registry)
    (victims : List ModuleId) (registry : Registry) :
    part (victims.foldl evict registry) = part registry := by
  induction victims generalizing registry with
  | nil => rfl
  | cons victim victims ih => rw [List.foldl_cons, ih, h]

theorem order_evict (registry : Registry) (victim : ModuleId) :
    (evict registry victim).order = registry.order := by
  unfold evict
  split <;> rfl

theorem maxSize_evict (registry : Registry) (victim : ModuleId) :
    (evict registry victim).maxSize = registry.maxSize := by
  unfold evict
  split <;> rfl

/-- The ids that are evicted for one that is kept. -/
def victims (registry : Registry) (keep : ModuleId) : List ModuleId :=
  (oldest keep (registry.order.length - registry.maxSize) registry.order).1

theorem get?_evictOverLimit_of_mem (h : id ∈ registry.victims keep) :
    (registry.evictOverLimit keep).get? id = none :=
  get?_foldl_evict_of_mem h _

theorem get?_evictOverLimit_of_notMem (h : id ∉ registry.victims keep) :
    (registry.evictOverLimit keep).get? id = registry.get? id :=
  get?_foldl_evict h _

theorem order_evictOverLimit (registry : Registry) (keep : ModuleId) :
    (registry.evictOverLimit keep).order =
      (oldest keep (registry.order.length - registry.maxSize) registry.order).2 :=
  foldl_evict_eq (·.order) order_evict _ _

theorem mem_order_of_mem_victims (h : id ∈ registry.victims keep) : id ∈ registry.order :=
  (oldest_perm keep _ registry.order).1.subset (List.mem_append_left _ h)

theorem mem_order_of_mem_evictOverLimit (h : id ∈ (registry.evictOverLimit keep).order) :
    id ∈ registry.order := by
  rw [order_evictOverLimit] at h
  exact (oldest_perm keep _ registry.order).1.subset (List.mem_append_right _ h)

/-- What stays in the order is not evicted. -/
theorem notMem_victims_of_mem (hn : registry.order.Nodup)
    (h : id ∈ (registry.evictOverLimit keep).order) : id ∉ registry.victims keep := by
  rw [order_evictOverLimit] at h
  have hnodup := (oldest_perm keep (registry.order.length - registry.maxSize)
    registry.order).1.nodup_iff.mpr hn
  exact fun hvictim => (List.nodup_append.mp hnodup).2.2 id hvictim id h rfl

theorem mem_order_touch {other : ModuleId} (h : id ∈ (registry.touch other).order)
    (hne : id ≠ other) : id ∈ registry.order := by
  rcases List.mem_append.mp h with hold | hnew
  · exact (List.mem_filter.mp hold).1
  · exact absurd (List.mem_singleton.mp hnew) hne

/-! ## One operation and one record -/

theorem get?_invalidate (h : Keyed registry) {key : String} (hr : registry.get? id = some record)
    (hkey : key ≠ record.key) : (registry.invalidate key).2.get? id = some record := by
  unfold invalidate
  split
  · exact hr
  · rename_i other hl
    have hne : id ≠ other := by
      rintro rfl
      obtain ⟨found, hfound, rfl⟩ := h.lookup?_eq_some_iff.mp hl
      rw [hr] at hfound
      cases hfound
      exact hkey rfl
    exact (get?_dropRecord registry other id).trans ((if_neg hne).trans hr)

theorem get?_insert_of_ne (h : Keyed registry) {key : String} (format : ModuleFormat)
    (hr : registry.get? id = some record) (hkey : key ≠ record.key) :
    (registry.insert key format).2.get? id = some record := by
  have hne : id ≠ (registry.insert key format).1 := by
    rw [index_insert]
    rintro rfl
    exact Nat.lt_irrefl _ (index_lt hr)
  rw [get?_insert, if_neg hne]
  exact get?_invalidate h hr hkey

/-- Clearing leaves a record in flight where it is. -/
theorem get?_clear (h : Regular registry) (hr : registry.get? id = some record)
    (hflight : record.state.isTerminal = false) : registry.clear.2.get? id = some record := by
  have hfold : ∀ (finished : List (String × ModuleId)) {registry : Registry}, Regular registry →
      registry.get? id = some record → (∀ pair ∈ finished, pair.1 ≠ record.key) →
      (finished.foldl (fun registry pair => (registry.invalidate pair.1).2) registry).get? id =
        some record := by
    intro finished
    induction finished with
    | nil => exact fun _ hr _ => hr
    | cons pair finished ih =>
        intro registry h hr hkeys
        rw [List.forall_mem_cons] at hkeys
        exact ih (h.invalidate pair.1) (get?_invalidate h.toKeyed hr hkeys.1) hkeys.2
  refine hfold _ h hr ?_
  rintro ⟨key, other⟩ hpair rfl
  obtain ⟨hmem, hterminal⟩ := List.mem_filter.mp hpair
  obtain ⟨found, hfound, hkey⟩ := h.get_id hmem
  obtain rfl : other = id := h.id_inj hfound hr hkey
  simp [hr, hflight] at hterminal

/-- A change of one record leaves the others alone. -/
theorem get?_modify_cases (hr : registry.get? id = some record) (other : ModuleId)
    (change : ModuleRecord → ModuleRecord) :
    ∃ now, (registry.modify other change).get? id = some now ∧ (other ≠ id → now = record) := by
  rw [get?_modify]
  split
  · rename_i heq
    subst heq
    exact ⟨change record, by rw [hr]; rfl, fun hne => absurd rfl hne⟩
  · exact ⟨record, hr, fun _ => rfl⟩

theorem get?_advance_cases (hr : registry.get? id = some record) (other : ModuleId)
    (next : ModuleState) : ∃ now, (registry.advance other next).2.get? id = some now ∧
      (other ≠ id → now = record) := by
  unfold advance
  split
  · exact ⟨record, hr, fun _ => rfl⟩
  · split
    · exact get?_modify_cases hr other _
    · exact ⟨record, hr, fun _ => rfl⟩

theorem get?_beginExecution_cases (hr : registry.get? id = some record) (other : ModuleId)
    (store : ExportTables) : ∃ now, (registry.beginExecution store other).2.1.get? id = some now ∧
      (other ≠ id → now = record) := by
  rcases beginExecution_cases registry store other with hsame | ⟨found, hfound, hn⟩
  · rw [hsame]
    exact ⟨record, hr, fun _ => rfl⟩
  · obtain ⟨handle, -, -, hsets⟩ := sets_beginExecution store hfound hn
    rw [hsets.get]
    split
    · rename_i heq
      exact ⟨_, rfl, fun hne => absurd heq.symm hne⟩
    · exact ⟨record, hr, fun _ => rfl⟩

/-- When another record takes its place in the order, one that does not stand there stays. -/
theorem get?_settle_cases {other : ModuleId} (hr : registry.get? id = some record)
    (ho : id ∉ registry.order ∨ other = id) :
    ((registry.touch other).evictOverLimit other).get? id = some record := by
  have hkept : id ∉ (registry.touch other).victims other := by
    intro hvictim
    have hne : id ≠ other := by
      rintro rfl
      exact (oldest_perm id _ _).2 hvictim
    have hmem := mem_order_touch (mem_order_of_mem_victims hvictim) hne
    exact ho.elim (fun hnone => hnone hmem) fun heq => hne heq.symm
  rw [get?_evictOverLimit_of_notMem hkept]
  exact hr

/-- A record moves on without a change of the order. -/
theorem order_advance (registry : Registry) (id : ModuleId) (next : ModuleState) :
    (registry.advance id next).2.order = registry.order := by
  rcases advance_cases registry id next with hsame | ⟨record, hr, hn⟩
  · rw [hsame]
  · exact (sets_advance hr hn).2.order

theorem get?_complete_cases {other : ModuleId} (hr : registry.get? id = some record)
    (ho : id ∉ registry.order ∨ other = id) : ∃ now, (registry.complete other).get? id = some now ∧
      (other ≠ id → now = record) := by
  rcases complete_cases registry other with hsame | ⟨found, hfound, hn⟩
  · rw [hsame]
    exact ⟨record, hr, fun _ => rfl⟩
  · obtain ⟨now, hnow, hrest⟩ := get?_advance_cases hr other .complete
    unfold complete
    rw [(sets_advance hfound hn).1]
    exact ⟨now, get?_settle_cases hnow (by rwa [order_advance]), hrest⟩

theorem get?_fail_cases {other : ModuleId} (hr : registry.get? id = some record)
    (ho : id ∉ registry.order ∨ other = id) (message : String) :
    ∃ now, (registry.fail other message).get? id = some now ∧ (other ≠ id → now = record) := by
  rcases fail_cases registry other message with hsame | ⟨found, hfound, hn⟩
  · rw [hsame]
    exact ⟨record, hr, fun _ => rfl⟩
  · obtain ⟨now, hnow, hrest⟩ := get?_advance_cases hr other .errored
    obtain ⟨last, hlast, hkept⟩ := get?_modify_cases hnow other
      fun record => { record with error := some message }
    unfold fail
    rw [(sets_advance hfound hn).1]
    have horder : ((registry.advance other .errored).2.modify other
        fun record => { record with error := some message }).order = registry.order :=
      order_advance registry other .errored
    exact ⟨last, get?_settle_cases hlast (by rwa [horder]),
      fun hne => (hkept hne).trans (hrest hne)⟩

/-- A record in flight that does not stand in the order stays where it is, whatever is done but
an operation on its key.  So does one that does stand there, unless another record is
finished. -/
theorem get?_perform (h : Regular registry) (hr : registry.get? id = some record)
    (hflight : record.state.isTerminal = false) {action : RegistryAction}
    (hkey : action.key? ≠ some record.key)
    (ho : id ∉ registry.order ∨ ∀ other, action.finishes? = some other → other = id) :
    ∃ now, (registry.perform action).get? id = some now ∧
      (action.id? ≠ some id → now = record) := by
  have hstays : ∀ {after : Registry}, after.get? id = some record →
      ∃ now, after.get? id = some now ∧ (action.id? ≠ some id → now = record) :=
    fun hafter => ⟨record, hafter, fun _ => rfl⟩
  have hgiven : ∀ {other : ModuleId} {now : ModuleRecord}, action.id? = some other →
      (other ≠ id → now = record) → action.id? ≠ some id → now = record := by
    intro other now hid hsame hne
    exact hsame fun heq => hne (heq ▸ hid)
  have hchanges : ∀ {other : ModuleId} (change : ModuleRecord → ModuleRecord),
      action.id? = some other → ∃ now, (registry.modify other change).get? id = some now ∧
        (action.id? ≠ some id → now = record) := by
    intro other change hid
    obtain ⟨now, hnow, hsame⟩ := get?_modify_cases hr other change
    exact ⟨now, hnow, hgiven hid hsame⟩
  cases action with
  | insert key format =>
      exact hstays (get?_insert_of_ne h.toKeyed format hr fun heq => hkey (congrArg some heq))
  | advance other next =>
      obtain ⟨now, hnow, hsame⟩ := get?_advance_cases hr other next
      exact ⟨now, hnow, hgiven rfl hsame⟩
  | beginExecution store other =>
      obtain ⟨now, hnow, hsame⟩ := get?_beginExecution_cases hr other store
      exact ⟨now, hnow, hgiven rfl hsame⟩
  | setExports other exports => exact hchanges _ rfl
  | setCompiled other fingerprint sourceLength => exact hchanges _ rfl
  | setFormat other format => exact hchanges _ rfl
  | setDependencies other dependencies => exact hchanges _ rfl
  | complete other =>
      obtain ⟨now, hnow, hsame⟩ := get?_complete_cases hr (ho.imp_right fun h => h other rfl)
      exact ⟨now, hnow, hgiven rfl hsame⟩
  | fail other message =>
      obtain ⟨now, hnow, hsame⟩ :=
        get?_fail_cases hr (ho.imp_right fun h => h other rfl) message
      exact ⟨now, hnow, hgiven rfl hsame⟩
  | touch other => exact hstays hr
  | invalidate key =>
      exact hstays (get?_invalidate h.toKeyed hr fun heq => hkey (congrArg some heq))
  | clear => exact hstays (get?_clear h hr hflight)
  | countStarted => exact hstays hr
  | countSucceeded => exact hstays hr
  | countFailed => exact hstays hr
  | countHit => exact hstays hr
  | countMiss => exact hstays hr

/-! ## What stands in the order -/

/-- An id names a finished record. -/
def Finished (registry : Registry) (id : ModuleId) : Prop :=
  ∃ record, registry.get? id = some record ∧ record.state.isTerminal = true

/-- How an id comes to stand in the order after an operation: it has been there and names what
it named, it is touched, or its record is finished. -/
inductive Enters (registry : Registry) (action : RegistryAction) (id : ModuleId) : Prop where
  | stays (h : id ∈ registry.order)
      (hr : ∀ {record}, registry.get? id = some record →
        ∃ now, (registry.perform action).get? id = some now)
  | touched (h : action = .touch id)
  | finished (h : (registry.perform action).Finished id)

theorem of_mem_order_invalidate {key : String} (h : id ∈ (registry.invalidate key).2.order) :
    id ∈ registry.order ∧ (registry.invalidate key).2.get? id = registry.get? id := by
  unfold invalidate at h ⊢
  split at h
  · exact ⟨h, rfl⟩
  · rename_i other _
    obtain ⟨hmem, hne⟩ := List.mem_filter.mp h
    exact ⟨hmem, (get?_dropRecord registry other id).trans (if_neg (of_decide_eq_true hne))⟩

theorem of_mem_order_clear (h : id ∈ registry.clear.2.order) :
    id ∈ registry.order ∧ registry.clear.2.get? id = registry.get? id := by
  have hfold : ∀ (finished : List (String × ModuleId)) {registry : Registry},
      id ∈ (finished.foldl (fun registry pair => (registry.invalidate pair.1).2) registry).order →
      id ∈ registry.order ∧ (finished.foldl (fun registry pair =>
        (registry.invalidate pair.1).2) registry).get? id = registry.get? id := by
    intro finished
    induction finished with
    | nil => exact fun h => ⟨h, rfl⟩
    | cons pair finished ih =>
        intro registry h
        obtain ⟨hmem, hget⟩ := ih h
        obtain ⟨hold, hsame⟩ := of_mem_order_invalidate hmem
        exact ⟨hold, hget.trans hsame⟩
  exact hfold _ h

/-- One that stays in the order when another record takes its place there names what it named. -/
theorem of_mem_order_settle {other : ModuleId} (hn : registry.order.Nodup) (hne : id ≠ other)
    (h : id ∈ ((registry.touch other).evictOverLimit other).order) :
    id ∈ registry.order ∧
      ((registry.touch other).evictOverLimit other).get? id = registry.get? id := by
  have hkept := notMem_victims_of_mem (nodup_touch hn other) h
  exact ⟨mem_order_touch (mem_order_of_mem_evictOverLimit h) hne,
    get?_evictOverLimit_of_notMem hkept⟩

theorem enters_complete (h : Regular registry) {other : ModuleId}
    (hmem : id ∈ (registry.complete other).order) : Enters registry (.complete other) id := by
  rcases complete_cases registry other with hsame | ⟨record, hr, hn⟩
  · rw [hsame] at hmem
    exact .stays hmem fun {record} hr => ⟨record, by rw [perform, hsame, hr]⟩
  · by_cases heq : id = other
    · subst heq
      have hmoves := moves_complete hr (ModuleState.isTerminal_of_canAdvance hn)
      exact .finished ⟨_, hmoves.own, rfl⟩
    · have hregular := h.advance other .complete
      unfold complete at hmem
      rw [(sets_advance hr hn).1] at hmem
      obtain ⟨hold, hget⟩ := of_mem_order_settle hregular.order_nodup heq hmem
      rw [order_advance] at hold
      refine .stays hold fun {found} hfound => ?_
      obtain ⟨now, hnow, -⟩ := get?_advance_cases hfound other .complete
      refine ⟨now, ?_⟩
      rw [perform, complete, (sets_advance hr hn).1]
      exact hget.trans hnow

theorem enters_fail (h : Regular registry) {other : ModuleId} {message : String}
    (hmem : id ∈ (registry.fail other message).order) :
    Enters registry (.fail other message) id := by
  rcases fail_cases registry other message with hsame | ⟨record, hr, hn⟩
  · rw [hsame] at hmem
    exact .stays hmem fun {record} hr => ⟨record, by rw [perform, hsame, hr]⟩
  · by_cases heq : id = other
    · subst heq
      have hmoves := moves_fail hr (ModuleState.isTerminal_of_canAdvance hn) message
      exact .finished ⟨_, hmoves.own, rfl⟩
    · have hregular : Regular ((registry.advance other .errored).2.modify other
          fun record => { record with error := some message }) :=
        (h.advance other .errored).modify other fun _ => rfl
      unfold fail at hmem
      rw [(sets_advance hr hn).1] at hmem
      obtain ⟨hold, hget⟩ := of_mem_order_settle hregular.order_nodup heq hmem
      have hbefore : id ∈ registry.order := order_advance registry other .errored ▸ hold
      refine .stays hbefore fun {found} hfound => ?_
      obtain ⟨now, hnow, -⟩ := get?_advance_cases hfound other .errored
      obtain ⟨last, hlast, -⟩ := get?_modify_cases hnow other
        fun record => { record with error := some message }
      refine ⟨last, ?_⟩
      rw [perform, fail, (sets_advance hr hn).1]
      exact hget.trans hlast

theorem enters_perform (h : Regular registry) {action : RegistryAction}
    (hmem : id ∈ (registry.perform action).order) : Enters registry action id := by
  have hkept : ∀ {after : Registry}, registry.perform action = after →
      id ∈ registry.order → after.get? id = registry.get? id → Enters registry action id := by
    intro after hafter hold hget
    refine .stays hold fun {record} hr => ⟨record, ?_⟩
    rw [hafter, hget, hr]
  have hchanges : ∀ {other : ModuleId} {change : ModuleRecord → ModuleRecord},
      registry.perform action = registry.modify other change → id ∈ registry.order →
        Enters registry action id := by
    intro other change hafter hold
    refine .stays hold fun hr => ?_
    obtain ⟨now, hnow, -⟩ := get?_modify_cases hr other change
    exact ⟨now, hafter ▸ hnow⟩
  cases action with
  | insert key format =>
      obtain ⟨hold, hget⟩ := of_mem_order_invalidate hmem
      refine .stays hold fun {record} hr => ?_
      have hne : id ≠ (registry.insert key format).1 := by
        rw [index_insert]
        rintro rfl
        exact Nat.lt_irrefl _ (index_lt hr)
      exact ⟨record, (get?_insert registry key format id).trans
        ((if_neg hne).trans (hget.trans hr))⟩
  | advance other next =>
      refine .stays (order_advance registry other next ▸ hmem) fun hr => ?_
      obtain ⟨now, hnow, -⟩ := get?_advance_cases hr other next
      exact ⟨now, hnow⟩
  | beginExecution store other =>
      rcases beginExecution_cases registry store other with hsame | ⟨found, hfound, hn⟩
      · exact hkept hsame (hsame ▸ hmem) rfl
      · obtain ⟨handle, -, -, hsets⟩ := sets_beginExecution store hfound hn
        refine .stays (hsets.order ▸ hmem) fun hr => ?_
        obtain ⟨now, hnow, -⟩ := get?_beginExecution_cases hr other store
        exact ⟨now, hnow⟩
  | setExports other exports => exact hchanges rfl hmem
  | setCompiled other fingerprint sourceLength => exact hchanges rfl hmem
  | setFormat other format => exact hchanges rfl hmem
  | setDependencies other dependencies => exact hchanges rfl hmem
  | complete other => exact enters_complete h hmem
  | fail other message => exact enters_fail h hmem
  | touch other =>
      by_cases heq : id = other
      · exact .touched (congrArg RegistryAction.touch heq.symm)
      · exact hkept rfl (mem_order_touch hmem heq) rfl
  | invalidate key =>
      obtain ⟨hold, hget⟩ := of_mem_order_invalidate hmem
      exact hkept rfl hold hget
  | clear =>
      obtain ⟨hold, hget⟩ := of_mem_order_clear hmem
      exact hkept rfl hold hget
  | countStarted => exact hkept rfl hmem rfl
  | countSucceeded => exact hkept rfl hmem rfl
  | countFailed => exact hkept rfl hmem rfl
  | countHit => exact hkept rfl hmem rfl
  | countMiss => exact hkept rfl hmem rfl

/-- An id that stands in the order has been touched or is finished.  The induction is on the
operations, from the last one: what is finished stays so, and stays in the order as it is. -/
theorem touched_or_finished (maxSize : Nat) (actions : List RegistryAction)
    (hmem : id ∈ (performAll { maxSize } actions).order) :
    .touch id ∈ actions ∨ (performAll { maxSize } actions).Finished id := by
  induction actions using List.reverseRecOn with
  | nil => cases hmem
  | append_singleton actions action ih =>
      have hregular := (regular_empty maxSize).performAll actions
      rw [performAll_append] at hmem ⊢
      cases enters_perform hregular hmem with
      | touched h => exact Or.inl (List.mem_append_right _ (List.mem_singleton.mpr h.symm))
      | finished h => exact Or.inr h
      | stays h hr =>
          refine (ih h).imp (List.mem_append_left _) ?_
          rintro ⟨record, hfound, hterminal⟩
          obtain ⟨now, hnow⟩ := hr hfound
          refine ⟨now, hnow, ?_⟩
          obtain ⟨before, hbefore, hreaches⟩ :=
            (follows_perform _ action).origin hnow (index_lt hfound)
          rw [hfound] at hbefore
          cases hbefore
          rcases hreaches with hsame | ⟨hflight, -⟩
          · rw [← hsame]
            exact hterminal
          · rw [hterminal] at hflight
            cases hflight

/-! ## Loads that drop a record in flight -/

/-- The ids after one that is not evicted stay in the order. -/
theorem oldest_of_notMem {younger : List ModuleId} (hne : id ≠ keep) (n : Nat)
    (older : List ModuleId) (h : id ∉ (oldest keep n (older ++ id :: younger)).1) :
    ∃ left, (oldest keep n (older ++ id :: younger)).2 = left ++ id :: younger := by
  induction older generalizing n with
  | nil =>
      cases n with
      | zero => exact ⟨[], by simp [oldest]⟩
      | succ n =>
          rw [List.nil_append, oldest, if_neg hne] at h
          exact absurd List.mem_cons_self h
  | cons first older ih =>
      cases n with
      | zero => exact ⟨first :: older, by simp [oldest]⟩
      | succ n =>
          rw [List.cons_append, oldest] at h ⊢
          split at h
          · obtain ⟨left, hleft⟩ := ih (n + 1) h
            rw [if_pos ‹_›]
            exact ⟨first :: left, congrArg (first :: ·) hleft⟩
          · rw [if_neg ‹_›]
            exact ih n fun hmem => h (List.mem_cons_of_mem first hmem)

/-- As many ids are evicted as asked for, unless only the one that is kept is left. -/
theorem length_oldest (keep : ModuleId) (n : Nat) (order : List ModuleId) :
    (oldest keep n order).2.length + n ≤ max order.length (n + order.count keep) := by
  induction order generalizing n with
  | nil => cases n <;> simp [oldest]
  | cons first order ih =>
      cases n with
      | zero => exact Nat.le_max_left ..
      | succ n =>
          rw [oldest]
          split
          · rename_i heq
            have hrest := ih (n + 1)
            simp only [List.length_cons, List.count_cons, heq, beq_self_eq_true, if_true]
            omega
          · rename_i hne
            have hrest := ih n
            simp only [List.length_cons, List.count_cons, beq_iff_eq, hne, if_false]
            omega

/-- After an eviction no more finished modules are left than may be kept, or only the one just
finished. -/
theorem length_order_evictOverLimit (h : registry.order.Nodup) (keep : ModuleId) :
    (registry.evictOverLimit keep).order.length ≤ max registry.maxSize 1 := by
  have hlength := length_oldest keep (registry.order.length - registry.maxSize) registry.order
  have hcount : registry.order.count keep ≤ 1 := List.nodup_iff_count.mp h keep
  rw [order_evictOverLimit]
  omega

/-- There is always another key. -/
theorem exists_lookup?_eq_none (registry : Registry) : ∃ key, registry.lookup? key = none := by
  have hbound : ∃ bound, ∀ pair ∈ registry.ids, pair.1.length < bound := by
    induction registry.ids with
    | nil => exact ⟨0, fun _ hmem => (nomatch hmem)⟩
    | cons pair ids ih =>
        obtain ⟨bound, hids⟩ := ih
        refine ⟨max bound (pair.1.length + 1), List.forall_mem_cons.mpr ⟨by omega, ?_⟩⟩
        intro other hmem
        have hlt := hids other hmem
        omega
  obtain ⟨bound, hids⟩ := hbound
  refine ⟨String.ofList (List.replicate bound 'm'), List.lookup_eq_none_iff.mpr fun pair hmem => ?_⟩
  rw [bne_iff_ne]
  intro heq
  have hlt := hids pair hmem
  rw [← heq] at hlt
  simp at hlt

/-- A load of another module: its record is made and completed. -/
def loadOf (registry : Registry) (key : String) : List RegistryAction :=
  [.insert key .script, .complete ⟨registry.records.size⟩]

/-- The ids that were given out and stand in an order. -/
def countGiven (registry : Registry) (order : List ModuleId) : Nat :=
  order.countP fun id => decide (id.index < registry.records.size)

theorem countGiven_le (registry : Registry) (order : List ModuleId) :
    registry.countGiven order ≤ order.length :=
  List.countP_le_length

theorem insert_of_lookup?_eq_none {key : String} (h : registry.lookup? key = none)
    (format : ModuleFormat) : (registry.insert key format).2 = { registry with
      records := registry.records.push (some { key, format })
      ids := (key, ⟨registry.records.size⟩) :: registry.ids } := by
  unfold insert invalidate
  rw [h]

/-- The order after a load under a key that has no record. -/
theorem order_loadOf {key : String} (hkey : registry.lookup? key = none) :
    ∃ before : Registry, before.order = (registry.touch ⟨registry.records.size⟩).order ∧
      before.maxSize = registry.maxSize ∧
      registry.performAll (registry.loadOf key) = before.evictOverLimit ⟨registry.records.size⟩ := by
  have hnew : (registry.insert key .script).2.get? ⟨registry.records.size⟩ =
      some { key, format := .script } := by
    rw [get?_insert, index_insert, if_pos rfl]
  have hcan : (ModuleState.unresolved).canAdvance .complete = true := by decide
  refine ⟨((registry.insert key .script).2.advance ⟨registry.records.size⟩ .complete).2.touch
    ⟨registry.records.size⟩, ?_, ?_, ?_⟩
  · show _ ++ _ = _ ++ _
    rw [order_advance, insert_of_lookup?_eq_none hkey]
  · show (Registry.advance _ _ _).2.maxSize = _
    unfold advance
    rw [hnew, insert_of_lookup?_eq_none hkey]
    split
    · rfl
    · split <;> rfl
  · show (registry.insert key .script).2.complete ⟨registry.records.size⟩ = _
    unfold complete
    rw [(sets_advance hnew hcan).1]

theorem maxSize_evictOverLimit (registry : Registry) (keep : ModuleId) :
    (registry.evictOverLimit keep).maxSize = registry.maxSize :=
  foldl_evict_eq (·.maxSize) maxSize_evict _ _

theorem size_loadOf (registry : Registry) (key : String) :
    (registry.performAll (registry.loadOf key)).records.size = registry.records.size + 1 :=
  (follows_performAll registry (registry.loadOf key)).size

/-- A load of another module leaves nothing under an id but what was there. -/
theorem eq_of_get?_loadOf (h : Regular registry) {key : String}
    (hr : registry.get? id = some record) (hkey : key ≠ record.key) {now : ModuleRecord}
    (hnow : (registry.performAll (registry.loadOf key)).get? id = some now) : now = record := by
  have hmade := get?_insert_of_ne h.toKeyed .script hr hkey
  have hne : id ≠ ⟨registry.records.size⟩ := by
    rintro rfl
    exact Nat.lt_irrefl _ (index_lt hr)
  have hnew : (registry.insert key .script).2.get? ⟨registry.records.size⟩ =
      some { key, format := .script } := by
    rw [get?_insert, index_insert, if_pos rfl]
  have hbefore := (moves_complete hnew rfl).rest hne hnow
  rw [hmade] at hbefore
  exact (Option.some.inj hbefore).symm

/-- What is counted of the ids after a load. -/
theorem countGiven_loadOf (registry : Registry) (key : String) (younger : List ModuleId) :
    (registry.performAll (registry.loadOf key)).countGiven
        (younger.filter (· ≠ ⟨registry.records.size⟩) ++ [⟨registry.records.size⟩]) =
      registry.countGiven younger + 1 := by
  unfold countGiven
  rw [size_loadOf, List.countP_append, List.countP_filter, List.countP_singleton,
    if_pos (decide_eq_true (Nat.lt_succ_self _))]
  congr 1
  refine List.countP_congr fun other _ => ?_
  obtain ⟨index⟩ := other
  simp only [Bool.and_eq_true, decide_eq_true_eq, ne_eq, ModuleId.mk.injEq]
  omega

/-- A load of another module drops a record that stands in the order, or one more id stands
behind it then. -/
theorem loadOf_cases (hr : registry.get? id = some record) {older younger : List ModuleId}
    (ho : registry.order = older ++ id :: younger) {key : String}
    (hkey : registry.lookup? key = none) :
    (registry.performAll (registry.loadOf key)).get? id = none ∨
      ∃ left later, (registry.performAll (registry.loadOf key)).order = left ++ id :: later ∧
        (registry.performAll (registry.loadOf key)).countGiven later =
          registry.countGiven younger + 1 := by
  have hne : id ≠ ⟨registry.records.size⟩ := by
    rintro rfl
    exact Nat.lt_irrefl _ (index_lt hr)
  obtain ⟨before, hbefore, -, heq⟩ := order_loadOf hkey
  have hsplit : before.order = older.filter (· ≠ ⟨registry.records.size⟩) ++
      id :: (younger.filter (· ≠ ⟨registry.records.size⟩) ++ [⟨registry.records.size⟩]) := by
    rw [hbefore]
    show registry.order.filter _ ++ _ = _
    rw [ho, List.filter_append, List.filter_cons_of_pos (by simpa using hne)]
    simp
  have hcount := countGiven_loadOf registry key younger
  rw [heq] at hcount ⊢
  by_cases hvictim : id ∈ before.victims ⟨registry.records.size⟩
  · exact Or.inl (get?_evictOverLimit_of_mem hvictim)
  · unfold victims at hvictim
    rw [hsplit] at hvictim
    obtain ⟨left, hleft⟩ := oldest_of_notMem hne _ _ hvictim
    refine Or.inr ⟨left, _, ?_, hcount⟩
    rw [order_evictOverLimit, hsplit]
    exact hleft

/-- A load under a new key leaves no more in the order than may stand there. -/
theorem length_order_loadOf (h : Regular registry) {key : String}
    (hkey : registry.lookup? key = none) :
    (registry.performAll (registry.loadOf key)).order.length ≤ max registry.maxSize 1 ∧
      (registry.performAll (registry.loadOf key)).maxSize = registry.maxSize := by
  obtain ⟨before, hbefore, hmax, heq⟩ := order_loadOf hkey
  have hnodup : before.order.Nodup := hbefore ▸ nodup_touch h.order_nodup _
  rw [heq, maxSize_evictOverLimit, hmax, ← hmax]
  exact ⟨length_order_evictOverLimit hnodup _, rfl⟩

theorem spares_loadOf (h : Keyed registry) (hr : registry.get? id = some record) {key : String}
    (hkey : registry.lookup? key = none) :
    key ≠ record.key ∧ ∀ action ∈ registry.loadOf key, action.Spares id record.key := by
  have hne : key ≠ record.key := by
    rintro rfl
    rw [h.lookup_key hr] at hkey
    cases hkey
  refine ⟨hne, List.forall_mem_cons.mpr ⟨⟨nofun, fun heq => hne (Option.some.inj heq)⟩,
    List.forall_mem_singleton.mpr ⟨?_, nofun⟩⟩⟩
  intro heq
  have hlt := index_lt hr
  rw [← Option.some.inj heq] at hlt
  exact Nat.lt_irrefl _ hlt

/-- What stands in the order can be dropped by loads of other modules.  The induction is on the
places that are left behind the id: a load takes one of them or drops the record. -/
theorem exists_loads_dropping (h : Regular registry) (hr : registry.get? id = some record)
    (hmem : id ∈ registry.order) : ∃ actions : List RegistryAction,
      (∀ action ∈ actions, action.Spares id record.key) ∧
        (registry.performAll actions).get? id = none := by
  have hloads : ∀ (room : Nat) {registry : Registry} {older younger : List ModuleId},
      Regular registry → registry.get? id = some record →
      registry.order = older ++ id :: younger →
      max registry.maxSize 1 ≤ registry.countGiven younger + room →
      ∃ actions : List RegistryAction, (∀ action ∈ actions, action.Spares id record.key) ∧
        (registry.performAll actions).get? id = none := by
    intro room
    induction room with
    | zero =>
        intro registry older younger h hr ho hroom
        obtain ⟨key, hkey⟩ := exists_lookup?_eq_none registry
        refine ⟨registry.loadOf key, (spares_loadOf h.toKeyed hr hkey).2, ?_⟩
        rcases loadOf_cases hr ho hkey with hgone | ⟨left, later, horder, hcount⟩
        · exact hgone
        · have hlength := (length_order_loadOf h hkey).1
          have hle := countGiven_le (registry.performAll (registry.loadOf key)) later
          rw [horder, List.length_append, List.length_cons] at hlength
          omega
    | succ room ih =>
        intro registry older younger h hr ho hroom
        obtain ⟨key, hkey⟩ := exists_lookup?_eq_none registry
        obtain ⟨hne, hspares⟩ := spares_loadOf h.toKeyed hr hkey
        cases hnow : (registry.performAll (registry.loadOf key)).get? id with
        | none => exact ⟨registry.loadOf key, hspares, hnow⟩
        | some now =>
            obtain rfl := eq_of_get?_loadOf h hr hne hnow
            rcases loadOf_cases hr ho hkey with hgone | ⟨left, later, horder, hcount⟩
            · exact ⟨registry.loadOf key, hspares, hgone⟩
            · have hmax := (length_order_loadOf h hkey).2
              obtain ⟨actions, hothers, hgone⟩ :=
                ih (h.performAll _) hnow horder (by rw [hmax, hcount]; omega)
              refine ⟨registry.loadOf key ++ actions, ?_, performAll_append .. ▸ hgone⟩
              exact List.forall_mem_append.mpr ⟨hspares, hothers⟩
  obtain ⟨older, younger, ho⟩ := List.append_of_mem hmem
  exact hloads (max registry.maxSize 1) h hr ho (Nat.le_add_left _ _)

/-- What does not stand in the order is not lost by operations that have nothing to do with it.
Nor does it come to stand there. -/
theorem get?_performAll_of_spares (h : Regular registry) (hr : registry.get? id = some record)
    (hflight : record.state.isTerminal = false) (ho : id ∉ registry.order)
    {actions : List RegistryAction} (hs : ∀ action ∈ actions, action.Spares id record.key) :
    (registry.performAll actions).get? id = some record := by
  induction actions generalizing registry with
  | nil => exact hr
  | cons action actions ih =>
      rw [List.forall_mem_cons] at hs
      obtain ⟨now, hnow, hsame⟩ := get?_perform h hr hflight hs.1.key_ne (Or.inl ho)
      obtain rfl := hsame hs.1.id_ne
      refine ih (h.perform action) hnow (fun hmem => ?_) hs.2
      cases enters_perform h hmem with
      | stays hold => exact ho hold
      | touched heq => exact hs.1.id_ne (heq ▸ rfl)
      | finished hfinished =>
          obtain ⟨found, hfound, hterminal⟩ := hfinished
          rw [hnow] at hfound
          cases hfound
          rw [hflight] at hterminal
          cases hterminal

/-! ## Any sequence of operations -/

/-- What becomes of records in flight in any sequence of operations on a new registry. -/
structure KeepsInFlight (maxSize : Nat) : Prop where
  /-- A record in flight leaves by an operation on its key, or it stands in the order of finished
  records as another one is finished. -/
  leaves : ∀ (actions : List RegistryAction) (action : RegistryAction) {id : ModuleId}
    {record : ModuleRecord}, (performAll { maxSize } actions).get? id = some record →
      record.state.isTerminal = false →
      (performAll { maxSize } (actions ++ [action])).get? id = none →
        action.key? = some record.key ∨
          (id ∈ (performAll { maxSize } actions).order ∧
            ∃ other, action.finishes? = some other ∧ other ≠ id)
  /-- It stands in the order only if its id was touched. -/
  touched : ∀ (actions : List RegistryAction) {id : ModuleId} {record : ModuleRecord},
    (performAll { maxSize } actions).get? id = some record → record.state.isTerminal = false →
      id ∈ (performAll { maxSize } actions).order → .touch id ∈ actions
  /-- If it stands there, and only then, it can be lost by operations that have nothing to do
  with it. -/
  lost : ∀ (actions : List RegistryAction) {id : ModuleId} {record : ModuleRecord},
    (performAll { maxSize } actions).get? id = some record → record.state.isTerminal = false →
      (id ∈ (performAll { maxSize } actions).order ↔ ∃ later : List RegistryAction,
        (∀ action ∈ later, action.Spares id record.key) ∧
          (performAll { maxSize } (actions ++ later)).get? id = none)

/-- Whatever is done with a new registry, a record in flight is lost only if it was touched. -/
theorem keepsInFlight (maxSize : Nat) : KeepsInFlight maxSize := by
  have hregular : ∀ actions, Regular (performAll { maxSize } actions) :=
    (regular_empty maxSize).performAll
  constructor
  case leaves =>
    intro actions action id record hr hflight hgone
    by_contra hnever
    rw [not_or, not_and] at hnever
    obtain ⟨hkey, hother⟩ := hnever
    have ho : id ∉ (performAll { maxSize } actions).order ∨
        ∀ other, action.finishes? = some other → other = id := by
      refine (Classical.em _).symm.imp_right fun hmem other hfinishes => ?_
      by_contra hne
      exact hother hmem ⟨other, hfinishes, hne⟩
    obtain ⟨now, hnow, -⟩ := get?_perform (hregular actions) hr hflight hkey ho
    rw [performAll_append] at hgone
    exact Option.some_ne_none now (hnow.symm.trans hgone)
  case touched =>
    intro actions id record hr hflight hmem
    refine (touched_or_finished maxSize actions hmem).resolve_right ?_
    rintro ⟨found, hfound, hterminal⟩
    rw [hr] at hfound
    cases hfound
    rw [hflight] at hterminal
    cases hterminal
  case lost =>
    intro actions id record hr hflight
    constructor
    · intro hmem
      obtain ⟨later, hspares, hgone⟩ := exists_loads_dropping (hregular actions) hr hmem
      exact ⟨later, hspares, performAll_append .. ▸ hgone⟩
    · rintro ⟨later, hspares, hgone⟩
      by_contra ho
      have hkept := get?_performAll_of_spares (hregular actions) hr hflight ho hspares
      rw [performAll_append, hkept] at hgone
      cases hgone

/-- It is not so that records in flight leave by an operation on their key only: one that was
touched is dropped when the only place is taken by another module. -/
theorem not_leaves_by_key : ¬ ∀ (maxSize : Nat) (actions : List RegistryAction)
    (action : RegistryAction) (id : ModuleId) (record : ModuleRecord),
      (performAll { maxSize } actions).get? id = some record →
      record.state.isTerminal = false →
      (performAll { maxSize } (actions ++ [action])).get? id = none →
        action.key? = some record.key := by
  intro h
  have hkey := h 1 [.insert "p" .script, .touch ⟨0⟩, .insert "q" .script] (.complete ⟨1⟩) ⟨0⟩
    { key := "p", format := .script } rfl rfl rfl
  cases hkey

end Registry

end ScriptModules
