import ScriptModules.Proofs.Registry.Survival

/-!
# Finished records by their last use

A finished record is *used* when its load finishes it and whenever it is served again.  The order
of a registry lists the finished records, and nothing else, by their last use (`Ranked`).

Seen by the finished records, a turn of the registry is one of three things (`Shifts`).  Some are
dropped (`Sheds`), one is used again (`Serves`), or a load finishes one, for which those used
longest ago make room (`Finishes`).  The journal of uses grows by the one that was used.
-/

namespace ScriptModules.Registry

/-- A use of a finished record. -/
inductive Use where
  | finished (id : ModuleId)
  | served (id : ModuleId)

/-- The record that is used. -/
def Use.id : Use → ModuleId
  | .finished id | .served id => id

variable {registry middle after : Registry} {id : ModuleId} {record changed : ModuleRecord}
  {journal : List ModuleId} {use : Option Use}

/-! ## Uses -/

/-- The last use of one record lies before a use of another. -/
def UsedBefore (journal : List ModuleId) (id other : ModuleId) : Prop :=
  ∃ earlier later, journal = earlier ++ later ∧ id ∉ later ∧ other ∈ later

/-- Uses of others change nothing about the last use of a record. -/
theorem UsedBefore.concat {other : ModuleId} (h : UsedBefore journal id other) {next : ModuleId}
    (hne : id ≠ next) : UsedBefore (journal ++ [next]) id other := by
  obtain ⟨earlier, later, rfl, hnot, hmem⟩ := h
  refine ⟨earlier, later ++ [next], List.append_assoc .., ?_, List.mem_append_left _ hmem⟩
  rw [List.mem_append, List.mem_singleton]
  exact not_or.mpr ⟨hnot, hne⟩

/-- What is used now is used after everything else. -/
theorem usedBefore_concat {next : ModuleId} (journal : List ModuleId) (hne : id ≠ next) :
    UsedBefore (journal ++ [next]) id next :=
  ⟨journal, [next], rfl, fun hmem => hne (List.mem_singleton.mp hmem), List.mem_singleton_self _⟩

/-- The finished records of a registry stand in its order by their last use, and are no more than
may be kept. -/
structure Ranked (journal : List ModuleId) (registry : Registry) : Prop where
  nodup : registry.order.Nodup
  mem_order_iff : ∀ id, id ∈ registry.order ↔ registry.Finished id
  used : ∀ id ∈ registry.order, id ∈ journal
  pairwise : registry.order.Pairwise (UsedBefore journal)
  length_le : registry.order.length ≤ max 1 registry.maxSize

theorem ranked_empty (maxSize : Nat) : Ranked [] { maxSize } := by
  refine ⟨List.nodup_nil, fun id => ⟨fun hnever => (nomatch hnever), ?_⟩,
    fun _ hnever => (nomatch hnever), List.Pairwise.nil, Nat.zero_le _⟩
  rintro ⟨record, hr, -⟩
  simp [get?] at hr

/-! ## Turns as finished records see them -/

/-- Only finished records that are kept stay. -/
structure Sheds (registry after : Registry) : Prop where
  maxSize : after.maxSize = registry.maxSize
  kept : ∃ keep : ModuleId → Bool, after.order = registry.order.filter keep ∧
    ∀ id, after.Finished id ↔ registry.Finished id ∧ keep id = true

/-- A finished record is used again. -/
structure Serves (registry after : Registry) (id : ModuleId) : Prop where
  maxSize : after.maxSize = registry.maxSize
  finished : registry.Finished id
  order : after.order = registry.order.filter (· ≠ id) ++ [id]
  get : ∀ other, after.get? other = registry.get? other

/-- How many finished records have to go when one more is finished. -/
def surplus (registry : Registry) : Nat :=
  registry.order.length + 1 - registry.maxSize

/-- A record is finished, and those used longest ago are dropped for it. -/
structure Finishes (registry after : Registry) (id : ModuleId) : Prop where
  maxSize : after.maxSize = registry.maxSize
  fresh : ¬ registry.Finished id
  finished : after.Finished id
  order : after.order = registry.order.drop registry.surplus ++ [id]
  get : ∀ other, other ≠ id → after.get? other =
    if other ∈ registry.order.take registry.surplus then none else registry.get? other

/-- What a turn does to the finished records, by the use that it makes. -/
inductive Shifts (registry after : Registry) : Option Use → Prop where
  | sheds (h : Sheds registry after) : Shifts registry after none
  | serves {id : ModuleId} (h : Serves registry after id) :
      Shifts registry after (some (.served id))
  | finishes {id : ModuleId} (h : Finishes registry after id) :
      Shifts registry after (some (.finished id))

theorem Shifts.maxSize (h : Shifts registry after use) : after.maxSize = registry.maxSize := by
  cases h with
  | sheds h => exact h.maxSize
  | serves h => exact h.maxSize
  | finishes h => exact h.maxSize

theorem finished_congr (h : after.get? id = registry.get? id) :
    after.Finished id ↔ registry.Finished id := by
  rw [Finished, Finished, h]

theorem Sheds.of_get (hmaxSize : after.maxSize = registry.maxSize)
    (horder : after.order = registry.order)
    (hfinished : ∀ id, after.Finished id ↔ registry.Finished id) : Sheds registry after := by
  refine ⟨hmaxSize, fun _ => true, ?_, fun id => ?_⟩
  · rw [horder, List.filter_eq_self.mpr fun _ _ => rfl]
  · rw [hfinished, and_iff_left rfl]

/-- Counters are no records. -/
theorem Sheds.of_eq (hrecords : after.records = registry.records)
    (horder : after.order = registry.order) (hmaxSize : after.maxSize = registry.maxSize) :
    Sheds registry after :=
  .of_get hmaxSize horder fun id => finished_congr (get?_congr hrecords id)

theorem Sheds.refl (registry : Registry) : Sheds registry registry :=
  .of_eq rfl rfl rfl

theorem Sheds.trans (h₁ : Sheds registry middle) (h₂ : Sheds middle after) :
    Sheds registry after := by
  obtain ⟨keep, horder, hfinished⟩ := h₁.kept
  obtain ⟨keep', horder', hfinished'⟩ := h₂.kept
  refine ⟨h₂.maxSize.trans h₁.maxSize, fun id => keep id && keep' id, ?_, fun id => ?_⟩
  · rw [horder', horder, List.filter_filter]
    refine List.filter_congr fun id _ => ?_
    rw [Bool.and_comm]
  · rw [hfinished', hfinished, Bool.and_eq_true, and_assoc]

/-! ## Turns that drop finished records, or none -/

theorem sheds_invalidate (registry : Registry) (key : String) :
    Sheds registry (registry.invalidate key).2 := by
  unfold invalidate
  split
  · exact .refl registry
  · rename_i id _
    refine ⟨rfl, (· ≠ id), rfl, fun other => ?_⟩
    show (registry.dropRecord id).Finished other ↔ _
    rw [Finished, get?_dropRecord, decide_eq_true_eq]
    split
    · simp [*]
    · simp [Finished, *]

theorem sheds_clear (registry : Registry) : Sheds registry registry.clear.2 := by
  have hfold : ∀ (finished : List (String × ModuleId)) (registry : Registry), Sheds registry
      (finished.foldl (fun registry pair => (registry.invalidate pair.1).2) registry) := by
    intro finished
    induction finished with
    | nil => exact .refl
    | cons pair finished ih => exact fun registry => (sheds_invalidate registry pair.1).trans (ih _)
  exact hfold _ registry

/-- What is made for a load is not finished. -/
theorem sheds_insert (registry : Registry) (key : String) (format : ModuleFormat) :
    Sheds registry (registry.insert key format).2 := by
  refine (sheds_invalidate registry key).trans (.of_get rfl rfl fun other => ?_)
  rw [Finished, get?_insert]
  split
  · rename_i heq
    have hfresh : (registry.invalidate key).2.get? other = none := by
      rw [heq]
      exact get?_size _
    simp [Finished, hfresh, ModuleState.isTerminal]
  · rfl

theorem maxSize_advance (registry : Registry) (id : ModuleId) (next : ModuleState) :
    (registry.advance id next).2.maxSize = registry.maxSize := by
  unfold advance
  split
  · rfl
  · split <;> rfl

/-- A record that may move on is not finished; nor is it when it has moved on, but not to the
end. -/
theorem sheds_advance (registry : Registry) (id : ModuleId) {next : ModuleState}
    (hn : next.isTerminal = false) : Sheds registry (registry.advance id next).2 := by
  rcases advance_cases registry id next with hsame | ⟨record, hr, hcan⟩
  · rw [hsame]
    exact .refl registry
  · have hsets := (sets_advance hr hcan).2
    refine .of_get (maxSize_advance registry id next) hsets.order fun other => ?_
    rw [Finished, hsets.get]
    split
    · rename_i heq
      subst heq
      simp [Finished, hr, hn, ModuleState.isTerminal_of_canAdvance hcan]
    · rfl

/-! ## Records under way -/

/-- A record that is not finished, and that does not stand among those that are. -/
structure Underway (registry : Registry) (id : ModuleId) : Prop where
  unfinished : ∃ record, registry.get? id = some record ∧ record.state.isTerminal = false
  notMem : id ∉ registry.order

theorem Underway.not_finished (h : registry.Underway id) : ¬ registry.Finished id := by
  obtain ⟨record, hr, hflight⟩ := h.unfinished
  rintro ⟨found, hfound, hterminal⟩
  rw [hr] at hfound
  cases hfound
  rw [hflight] at hterminal
  cases hterminal

/-- A record under way is changed and stays under way; nothing happens to others. -/
structure Progresses (registry after : Registry) (id : ModuleId) : Prop where
  maxSize : after.maxSize = registry.maxSize
  order : after.order = registry.order
  underway : after.Underway id
  get : ∀ other, other ≠ id → after.get? other = registry.get? other

theorem Progresses.refl (h : registry.Underway id) : Progresses registry registry id :=
  ⟨rfl, rfl, h, fun _ _ => rfl⟩

theorem Progresses.trans (h₁ : Progresses registry middle id) (h₂ : Progresses middle after id) :
    Progresses registry after id :=
  ⟨h₂.maxSize.trans h₁.maxSize, h₂.order.trans h₁.order, h₂.underway,
    fun other hne => (h₂.get other hne).trans (h₁.get other hne)⟩

theorem Progresses.sheds (h : Progresses registry after id) (hu : registry.Underway id) :
    Sheds registry after := by
  refine .of_get h.maxSize h.order fun other => ?_
  by_cases heq : other = id
  · subst heq
    exact iff_of_false h.underway.not_finished hu.not_finished
  · exact finished_congr (h.get other heq)

theorem Progresses.of_sets (h : registry.Underway id) (hs : Sets registry after id changed)
    (hflight : changed.state.isTerminal = false) (hmaxSize : after.maxSize = registry.maxSize) :
    Progresses registry after id := by
  refine ⟨hmaxSize, hs.order, ⟨⟨changed, hs.get_self, hflight⟩, ?_⟩, fun other hne => ?_⟩
  · rw [hs.order]
    exact h.notMem
  · rw [hs.get, if_neg hne]

theorem maxSize_beginExecution (registry : Registry) (store : ExportTables) (id : ModuleId) :
    (registry.beginExecution store id).2.1.maxSize = registry.maxSize := by
  have hadvance := maxSize_advance registry id .executing
  unfold beginExecution
  split
  · rename_i heq
    rw [heq] at hadvance
    exact hadvance
  · rename_i heq
    rw [heq] at hadvance
    split
    · exact hadvance
    · exact hadvance

theorem progresses_modify (h : registry.Underway id) {change : ModuleRecord → ModuleRecord}
    (hstate : ∀ record, (change record).state = record.state) :
    Progresses registry (registry.modify id change) id := by
  obtain ⟨record, hr, hflight⟩ := h.unfinished
  exact .of_sets h (sets_modify hr change) ((congrArg _ (hstate record)).trans hflight) rfl

theorem progresses_advance (h : registry.Underway id) {next : ModuleState}
    (hn : next.isTerminal = false) : Progresses registry (registry.advance id next).2 id := by
  rcases advance_cases registry id next with hsame | ⟨record, hr, hcan⟩
  · rw [hsame]
    exact .refl h
  · exact .of_sets h (sets_advance hr hcan).2 hn (maxSize_advance registry id next)

theorem progresses_beginExecution (h : registry.Underway id) (store : ExportTables) :
    Progresses registry (registry.beginExecution store id).2.1 id := by
  rcases beginExecution_cases registry store id with hsame | ⟨record, hr, hcan⟩
  · rw [hsame]
    exact .refl h
  · obtain ⟨handle, -, -, hsets⟩ := sets_beginExecution store hr hcan
    exact .of_sets h hsets rfl (maxSize_beginExecution registry store id)

/-! ## Finishing a record -/

/-- The oldest ids are the first ones, if the one that is kept is the last. -/
theorem oldest_concat {keep : ModuleId} {order : List ModuleId} (h : keep ∉ order) (n : Nat) :
    oldest keep n (order ++ [keep]) = (order.take n, order.drop n ++ [keep]) := by
  induction order generalizing n with
  | nil => cases n <;> simp [oldest]
  | cons first order ih =>
      rw [List.mem_cons, not_or] at h
      cases n with
      | zero => rfl
      | succ n =>
          rw [List.cons_append, oldest, if_neg (Ne.symm h.1), ih h.2]
          rfl

/-- What was done to a record under way does not show when it is finished. -/
theorem Progresses.finishes (h : Progresses registry middle id) (hu : registry.Underway id)
    (hf : Finishes middle after id) : Finishes registry after id := by
  have hsurplus : middle.surplus = registry.surplus := by
    rw [surplus, surplus, h.order, h.maxSize]
  refine ⟨hf.maxSize.trans h.maxSize, hu.not_finished, hf.finished, ?_, fun other hne => ?_⟩
  · rw [hf.order, hsurplus, h.order]
  · rw [hf.get other hne, hsurplus, h.order, h.get other hne]

/-- A record in a last state takes its place in the order. -/
theorem finishes_settle (h : registry.Underway id) (hs : Sets registry after id changed)
    (hterminal : changed.state.isTerminal = true) (hmaxSize : after.maxSize = registry.maxSize) :
    Finishes registry ((after.touch id).evictOverLimit id) id := by
  have htouched : (after.touch id).order = registry.order ++ [id] := by
    show after.order.filter (· ≠ id) ++ [id] = registry.order ++ [id]
    rw [hs.order, List.filter_eq_self.mpr]
    rintro other hmem
    rw [decide_eq_true_eq]
    rintro rfl
    exact h.notMem hmem
  have hover : (after.touch id).order.length - (after.touch id).maxSize = registry.surplus := by
    rw [htouched, List.length_append, List.length_singleton]
    show _ - after.maxSize = _
    rw [hmaxSize, surplus]
  have hsplit := oldest_concat h.notMem registry.surplus
  have hvictims : (after.touch id).victims id = registry.order.take registry.surplus := by
    rw [victims, hover, htouched, hsplit]
  refine ⟨?_, h.not_finished, ⟨changed, ?_, hterminal⟩, ?_, fun other hne => ?_⟩
  · exact (foldl_evict_eq (·.maxSize) maxSize_evict _ _).trans hmaxSize
  · exact (get?_evictOverLimit (after.touch id) id).trans hs.get_self
  · rw [order_evictOverLimit, hover, htouched, hsplit]
  · rw [← hvictims]
    split
    · rename_i hvictim
      exact get?_evictOverLimit_of_mem hvictim
    · rename_i hkept
      refine (get?_evictOverLimit_of_notMem hkept).trans ?_
      show after.get? other = _
      rw [hs.get, if_neg hne]

theorem finishes_complete (h : registry.Underway id) :
    Finishes registry (registry.complete id) id := by
  obtain ⟨record, hr, hflight⟩ := h.unfinished
  have hcan : record.state.canAdvance .complete = true := canAdvance_of_isTerminal hflight rfl
  obtain ⟨hadvance, hsets⟩ := sets_advance hr hcan
  unfold complete
  rw [hadvance]
  exact finishes_settle h hsets rfl (maxSize_advance registry id .complete)

theorem finishes_fail (h : registry.Underway id) (message : String) :
    Finishes registry (registry.fail id message) id := by
  obtain ⟨record, hr, hflight⟩ := h.unfinished
  have hcan : record.state.canAdvance .errored = true := canAdvance_of_isTerminal hflight rfl
  obtain ⟨hadvance, hsets⟩ := sets_advance hr hcan
  have hnoted := hsets.trans
    (sets_modify hsets.get_self fun record => { record with error := some message })
  unfold fail
  rw [hadvance]
  exact finishes_settle h hnoted rfl (maxSize_advance registry id .errored)

/-! ## What keeps the ranking -/

theorem Ranked.sheds (h : Ranked journal registry) (hs : Sheds registry after) :
    Ranked journal after := by
  obtain ⟨keep, horder, hfinished⟩ := hs.kept
  have hsub : after.order.Sublist registry.order := horder ▸ List.filter_sublist
  refine ⟨h.nodup.sublist hsub, fun id => ?_, fun id hmem => h.used id (hsub.subset hmem),
    h.pairwise.sublist hsub, ?_⟩
  · rw [horder, List.mem_filter, hfinished, h.mem_order_iff]
  · rw [hs.maxSize]
    exact Nat.le_trans hsub.length_le h.length_le

/-- What is used goes to the end, behind some of those that stood before it. -/
theorem pairwise_concat {kept : List ModuleId} (h : registry.order.Pairwise (UsedBefore journal))
    (hsub : kept.Sublist registry.order) (hne : ∀ other ∈ kept, other ≠ id) :
    (kept ++ [id]).Pairwise (UsedBefore (journal ++ [id])) := by
  rw [List.pairwise_append]
  refine ⟨(h.sublist hsub).imp_of_mem ?_, List.pairwise_singleton _ _, ?_⟩
  · exact fun hfirst _ hbefore => hbefore.concat (hne _ hfirst)
  · intro first hfirst second hsecond
    rw [List.mem_singleton.mp hsecond]
    exact usedBefore_concat journal (hne first hfirst)

theorem Ranked.serves (h : Ranked journal registry) (hs : Serves registry after id) :
    Ranked (journal ++ [id]) after := by
  have hmem : id ∈ registry.order := (h.mem_order_iff id).mpr hs.finished
  have hmoved : ∀ other, other ∈ after.order ↔ other ∈ registry.order := by
    intro other
    rw [hs.order, List.mem_append, List.mem_filter, List.mem_singleton, decide_eq_true_eq]
    by_cases heq : other = id
    · simp [heq, hmem]
    · simp [heq]
  have hnodup : after.order.Nodup := by
    rw [hs.order]
    exact nodup_touch h.nodup id
  refine ⟨hnodup, fun other => ?_, fun other hother => ?_, ?_, ?_⟩
  · rw [hmoved, h.mem_order_iff, finished_congr (hs.get other)]
  · exact List.mem_append_left _ (h.used other ((hmoved other).mp hother))
  · rw [hs.order]
    refine pairwise_concat h.pairwise List.filter_sublist fun other hother => ?_
    exact of_decide_eq_true (List.mem_filter.mp hother).2
  · have hsame : after.order.Perm registry.order :=
      (List.perm_ext_iff_of_nodup hnodup h.nodup).mpr hmoved
    rw [hsame.length_eq, hs.maxSize]
    exact h.length_le

/-- Of the finished records there were, those used longest ago are no longer finished. -/
theorem Ranked.finished_iff (h : Ranked journal registry) (hs : Finishes registry after id)
    {other : ModuleId} (hne : other ≠ id) :
    after.Finished other ↔ other ∈ registry.order.drop registry.surplus := by
  have hsplit := List.take_append_drop registry.surplus registry.order
  have hnodup := h.nodup
  rw [← hsplit, List.nodup_append] at hnodup
  rw [Finished, hs.get other hne]
  split
  · rename_i htaken
    refine iff_of_false (fun hnever => ?_) fun hmem => hnodup.2.2 other htaken other hmem rfl
    obtain ⟨record, hr, -⟩ := hnever
    cases hr
  · rename_i hnot
    rw [← Finished, ← h.mem_order_iff]
    refine ⟨fun hmem => ?_, List.mem_of_mem_drop⟩
    rw [← hsplit, List.mem_append] at hmem
    exact hmem.resolve_left hnot

theorem Ranked.finishes (h : Ranked journal registry) (hs : Finishes registry after id) :
    Ranked (journal ++ [id]) after := by
  have hsub : (registry.order.drop registry.surplus).Sublist registry.order :=
    List.drop_sublist _ _
  have hne : ∀ other ∈ registry.order.drop registry.surplus, other ≠ id := by
    rintro other hmem rfl
    exact hs.fresh ((h.mem_order_iff other).mp (hsub.subset hmem))
  have hpairwise := pairwise_concat h.pairwise hsub hne
  refine ⟨?_, fun other => ?_, fun other hother => ?_, hs.order ▸ hpairwise, ?_⟩
  · rw [hs.order, List.nodup_append]
    refine ⟨h.nodup.sublist hsub, List.pairwise_singleton _ _, ?_⟩
    intro first hfirst second hsecond
    rw [List.mem_singleton.mp hsecond]
    exact hne first hfirst
  · rw [hs.order, List.mem_append, List.mem_singleton]
    by_cases heq : other = id
    · simp [heq, hs.finished]
    · rw [or_iff_left heq, h.finished_iff hs heq]
  · rw [hs.order] at hother
    rcases List.mem_append.mp hother with hold | hown
    · exact List.mem_append_left _ (h.used other (hsub.subset hold))
    · exact List.mem_append_right _ hown
  · rw [hs.order, hs.maxSize, List.length_append, List.length_drop, List.length_singleton, surplus]
    omega

/-- A ranking outlasts every turn, if the use that is made goes into the journal. -/
theorem Ranked.shifts (h : Ranked journal registry) (hs : Shifts registry after use) :
    Ranked (journal ++ (use.map Use.id).toList) after := by
  cases hs with
  | sheds hs =>
      rw [Option.map_none, Option.toList_none, List.append_nil]
      exact h.sheds hs
  | serves hs => exact h.serves hs
  | finishes hs => exact h.finishes hs

/-! ## What is kept -/

/-- When a record is finished, of the finished records those used last are kept, the one just
finished among them, and as many as may be.  No other record is dropped. -/
structure KeepsLatest (journal : List ModuleId) (registry after : Registry) (id : ModuleId) :
    Prop where
  own : id ∈ after.order
  kept : ∀ other ∈ after.order, other ≠ id →
    other ∈ registry.order ∧ after.get? other = registry.get? other
  length : after.order.length = min (registry.order.length + 1) (max 1 registry.maxSize)
  dropped : ∀ other ∈ registry.order, other ∉ after.order →
    after.get? other = none ∧ ∀ kept ∈ after.order, UsedBefore journal other kept
  spared : ∀ other ∉ registry.order, other ≠ id → after.get? other = registry.get? other

theorem Ranked.keepsLatest (h : Ranked journal registry) (hs : Finishes registry after id) :
    KeepsLatest (journal ++ [id]) registry after id := by
  have hsplit := List.take_append_drop registry.surplus registry.order
  have hnodup := h.nodup
  have hpairwise := h.pairwise
  rw [← hsplit, List.nodup_append] at hnodup
  rw [← hsplit, List.pairwise_append] at hpairwise
  have hnew : ∀ other ∈ registry.order, other ≠ id := by
    rintro other hmem rfl
    exact hs.fresh ((h.mem_order_iff other).mp hmem)
  have hstays : ∀ other, other ∉ registry.order.take registry.surplus → other ≠ id →
      after.get? other = registry.get? other := by
    intro other hnot hne
    rw [hs.get other hne, if_neg hnot]
  refine ⟨?_, fun other hmem hne => ?_, ?_, fun other hmem hgone => ?_, fun other hnot hne => ?_⟩
  · rw [hs.order]
    exact List.mem_append_right _ (List.mem_singleton_self id)
  · rw [hs.order, List.mem_append, List.mem_singleton, or_iff_left hne] at hmem
    exact ⟨List.mem_of_mem_drop hmem,
      hstays other (fun htaken => hnodup.2.2 other htaken other hmem rfl) hne⟩
  · have hbound := h.length_le
    rw [hs.order, List.length_append, List.length_drop, List.length_singleton, surplus]
    omega
  · rw [hs.order, List.mem_append, not_or] at hgone
    have htaken : other ∈ registry.order.take registry.surplus := by
      rw [← hsplit, List.mem_append] at hmem
      exact hmem.resolve_right hgone.1
    have hne := hnew other hmem
    refine ⟨by rw [hs.get other hne, if_pos htaken], fun kept hkept => ?_⟩
    rw [hs.order] at hkept
    rcases List.mem_append.mp hkept with hold | hown
    · exact (hpairwise.2.2 other htaken kept hold).concat hne
    · rw [List.mem_singleton.mp hown]
      exact usedBefore_concat journal hne
  · exact hstays other (fun htaken => hnot (List.mem_of_mem_take htaken)) hne

end ScriptModules.Registry
