import ScriptModules.Proofs.Association
import ScriptModules.Registry.Basic

/-!
# How a registry keeps its records

A registry is an arena of records with a table of keys beside it.  The two belong
together (`Sound`): a record stands under its own key, and every key of the table
is that of a record.  Every operation comes down to four changes: a record is changed
in its place, is dropped with its key, is added under a new key, or the order of finished
records is changed.  Each of them keeps a registry sound.
-/

namespace ScriptModules.Registry

variable {registry after : Registry} {id : ModuleId} {record : ModuleRecord}

/-! ## Looking up after a change -/

theorem get?_modify (registry : Registry) (id : ModuleId) (change : ModuleRecord → ModuleRecord)
    (other : ModuleId) :
    (registry.modify id change).get? other =
      if other = id then (registry.get? id).map change else registry.get? other := by
  obtain ⟨index⟩ := id
  obtain ⟨place⟩ := other
  unfold get? modify
  simp only [Array.getElem?_modify, ModuleId.mk.injEq]
  by_cases heq : index = place
  · subst heq
    cases registry.records[index]? with
    | none => simp
    | some slot => cases slot <;> simp
  · rw [if_neg heq, if_neg (Ne.symm heq)]

theorem get?_dropRecord (registry : Registry) (id other : ModuleId) :
    (registry.dropRecord id).get? other = if other = id then none else registry.get? other := by
  obtain ⟨index⟩ := id
  obtain ⟨place⟩ := other
  unfold get? dropRecord
  simp only [Array.getElem?_modify, ModuleId.mk.injEq]
  by_cases heq : index = place
  · subst heq
    cases registry.records[index]? <;> simp
  · rw [if_neg heq, if_neg (Ne.symm heq)]

/-- Ids that are still to be given name nothing. -/
theorem get?_size (registry : Registry) : registry.get? ⟨registry.records.size⟩ = none := by
  unfold get?
  simp

/-! ## Setting a record -/

/-- One record becomes another, and nothing else is changed. -/
structure Sets (registry after : Registry) (id : ModuleId) (record : ModuleRecord) : Prop where
  get : ∀ other, after.get? other = if other = id then some record else registry.get? other
  ids : after.ids = registry.ids
  order : after.order = registry.order

theorem Sets.get_self {changed : ModuleRecord} (h : Sets registry after id changed) :
    after.get? id = some changed := by
  rw [h.get, if_pos rfl]

theorem Sets.trans {middle : Registry} {first second : ModuleRecord}
    (h₁ : Sets registry middle id first) (h₂ : Sets middle after id second) :
    Sets registry after id second := by
  refine ⟨fun other => ?_, h₂.ids.trans h₁.ids, h₂.order.trans h₁.order⟩
  rw [h₂.get, h₁.get]
  by_cases heq : other = id
  · rw [if_pos heq, if_pos heq]
  · rw [if_neg heq, if_neg heq, if_neg heq]

theorem sets_modify (hr : registry.get? id = some record)
    (change : ModuleRecord → ModuleRecord) :
    Sets registry (registry.modify id change) id (change record) := by
  refine ⟨fun other => ?_, rfl, rfl⟩
  rw [get?_modify, hr]
  rfl

/-- A record moves on to any state it can advance to. -/
theorem sets_advance (hr : registry.get? id = some record) {next : ModuleState}
    (hn : record.state.canAdvance next = true) :
    registry.advance id next = (true, (registry.advance id next).2) ∧
      Sets registry (registry.advance id next).2 id { record with state := next } := by
  have heq : registry.advance id next =
      (true, registry.modify id fun record => { record with state := next }) := by
    rw [advance, hr]
    exact if_pos hn
  rw [heq]
  exact ⟨rfl, sets_modify hr _⟩

/-- Execution begins wherever a record can advance to it: the record keeps its table of
exports or gets a new one. -/
theorem sets_beginExecution (store : ExportTables) (hr : registry.get? id = some record)
    (hn : record.state.canAdvance .executing = true) :
    ∃ handle, (registry.beginExecution store id).1 = some handle ∧
      (∀ kept, record.exports = some kept → handle = kept) ∧
      Sets registry (registry.beginExecution store id).2.1 id
        { record with state := .executing, exports := some handle } := by
  obtain ⟨hadvance, hsets⟩ := sets_advance hr hn
  unfold beginExecution
  rw [hadvance]
  simp only [hsets.get_self, Option.bind_eq_bind, Option.bind_some]
  cases hexports : record.exports with
  | some kept =>
      refine ⟨kept, rfl, fun _ heq => Option.some.inj heq, ?_⟩
      have hsame : { record with state := ModuleState.executing } =
          { record with state := ModuleState.executing, exports := some kept } := by
        rw [← hexports]
      rw [← hsame]
      exact hsets
  | none =>
      refine ⟨(store.make []).1, rfl, fun _ hnever => (by cases hnever), ?_⟩
      exact hsets.trans (sets_modify hsets.get_self _)

/-- A module that is used moves to the end of the order. -/
theorem nodup_touch (h : registry.order.Nodup) (id : ModuleId) :
    (registry.touch id).order.Nodup := by
  show (registry.order.filter (· ≠ id) ++ [id]).Nodup
  rw [List.nodup_append]
  refine ⟨h.sublist List.filter_sublist, by simp, ?_⟩
  intro first hfirst second hsecond
  rw [List.mem_singleton.mp hsecond]
  exact of_decide_eq_true (List.mem_filter.mp hfirst).2

/-! ## Arena and table -/

/-- Arena and table belong together: a record stands under its own key, and every key is that
of a record. -/
structure Keyed (registry : Registry) : Prop where
  lookup_key : ∀ {id record}, registry.get? id = some record →
    registry.lookup? record.key = some id
  get_id : ∀ {key id}, (key, id) ∈ registry.ids →
    ∃ record, registry.get? id = some record ∧ record.key = key
  nodup : (registry.ids.map (·.1)).Nodup

/-- A key leads to an id exactly if the id names a record of the key. -/
theorem Keyed.lookup?_eq_some_iff (h : Keyed registry) {key : String} :
    registry.lookup? key = some id ↔
      ∃ record, registry.get? id = some record ∧ record.key = key := by
  constructor
  · exact fun hl => h.get_id (Association.mem_of_lookup hl)
  · rintro ⟨record, hr, rfl⟩
    exact h.lookup_key hr

/-- Two records do not stand under one key. -/
theorem Keyed.id_inj (h : Keyed registry) {other : ModuleId} {found : ModuleRecord}
    (hr : registry.get? id = some record) (ho : registry.get? other = some found)
    (hk : record.key = found.key) : id = other := by
  have hid := h.lookup_key hr
  rw [hk, h.lookup_key ho] at hid
  exact (Option.some.inj hid).symm

theorem keyed_empty (maxSize : Nat) : Keyed { maxSize } := by
  refine ⟨fun {id record} hr => ?_, fun hmem => (nomatch hmem), List.nodup_nil⟩
  simp [get?] at hr

/-- Records and keys stay as they are. -/
theorem Keyed.congr (h : Keyed registry) (hget : ∀ other, after.get? other = registry.get? other)
    (hids : after.ids = registry.ids) : Keyed after := by
  refine ⟨fun {other found} hfound => ?_, fun {key other} hmem => ?_, hids ▸ h.nodup⟩
  · rw [lookup?, hids]
    exact h.lookup_key ((hget other).symm.trans hfound)
  · obtain ⟨found, hfound, hk⟩ := h.get_id (hids ▸ hmem)
    exact ⟨found, (hget other).trans hfound, hk⟩

/-- A record is changed in its place, but keeps its key. -/
theorem Keyed.sets (h : Keyed registry) {changed : ModuleRecord}
    (hr : registry.get? id = some record) (hs : Sets registry after id changed)
    (hkey : changed.key = record.key) : Keyed after := by
  refine ⟨?_, ?_, hs.ids ▸ h.nodup⟩
  · intro other found hfound
    rw [lookup?, hs.ids]
    rw [hs.get] at hfound
    split at hfound
    · rename_i heq
      cases hfound
      rw [hkey, heq]
      exact h.lookup_key hr
    · exact h.lookup_key hfound
  · intro key other hmem
    rw [hs.ids] at hmem
    obtain ⟨found, hfound, hk⟩ := h.get_id hmem
    by_cases heq : other = id
    · subst heq
      rw [hr] at hfound
      cases hfound
      exact ⟨changed, hs.get_self, hkey.trans hk⟩
    · exact ⟨found, by rw [hs.get, if_neg heq, hfound], hk⟩

/-- A record is dropped with its key. -/
theorem Keyed.drop (h : Keyed registry) (hr : registry.get? id = some record)
    (hget : ∀ other, after.get? other = if other = id then none else registry.get? other)
    (hids : after.ids = registry.ids.filter (·.1 ≠ record.key)) : Keyed after := by
  refine ⟨?_, ?_, ?_⟩
  · intro other found hfound
    rw [hget] at hfound
    split at hfound
    · cases hfound
    · rename_i hne
      have hkey : found.key ≠ record.key := fun hk => hne (h.id_inj hfound hr hk)
      rw [lookup?, hids,
        Association.lookup_filter registry.ids (fun key => decide (key ≠ record.key)),
        if_pos (by simpa using hkey)]
      exact h.lookup_key hfound
  · intro key other hmem
    rw [hids, List.mem_filter] at hmem
    obtain ⟨found, hfound, hk⟩ := h.get_id hmem.1
    have hne : other ≠ id := by
      intro heq
      rw [heq, hr] at hfound
      cases hfound
      exact (of_decide_eq_true hmem.2) hk.symm
    exact ⟨found, by rw [hget, if_neg hne, hfound], hk⟩
  · rw [hids]
    exact Association.nodup_filter _ h.nodup

/-- A record is added under a key that has none. -/
theorem Keyed.add (h : Keyed registry) (hn : registry.lookup? record.key = none)
    (hf : registry.get? id = none)
    (hget : ∀ other, after.get? other = if other = id then some record else registry.get? other)
    (hids : after.ids = (record.key, id) :: registry.ids) : Keyed after := by
  have hnew : ∀ {key other}, (key, other) ∈ registry.ids → key ≠ record.key := by
    intro key other hmem heq
    have hne := List.lookup_eq_none_iff.mp hn _ hmem
    rw [bne_iff_ne] at hne
    exact hne heq.symm
  refine ⟨?_, ?_, ?_⟩
  · intro other found hfound
    rw [lookup?, hids, List.lookup_cons]
    rw [hget] at hfound
    split at hfound
    · rename_i heq
      cases hfound
      rw [beq_self_eq_true, heq]
    · have hl := h.lookup_key hfound
      rw [beq_eq_false_iff_ne.mpr (hnew (Association.mem_of_lookup hl))]
      exact hl
  · intro key other hmem
    rw [hids] at hmem
    cases hmem with
    | head => exact ⟨record, by rw [hget, if_pos rfl], rfl⟩
    | tail _ hmem =>
        obtain ⟨found, hfound, hk⟩ := h.get_id hmem
        refine ⟨found, ?_, hk⟩
        rw [hget, if_neg, hfound]
        rintro rfl
        rw [hf] at hfound
        cases hfound
  · rw [hids, List.map_cons, List.nodup_cons]
    refine ⟨?_, h.nodup⟩
    intro hmem
    obtain ⟨⟨key, other⟩, hpair, heq⟩ := List.mem_map.mp hmem
    exact hnew hpair heq

/-! ## Sound registries -/

/-- Arena and table belong together, finished records stand in the order, each once, and
a record whose body is running has its exports. -/
structure Sound (registry : Registry) : Prop where
  lookup_key : ∀ {id record}, registry.get? id = some record →
    registry.lookup? record.key = some id
  get_id : ∀ {key id}, (key, id) ∈ registry.ids →
    ∃ record, registry.get? id = some record ∧ record.key = key
  nodup : (registry.ids.map (·.1)).Nodup
  order_nodup : registry.order.Nodup
  finished : ∀ {id}, id ∈ registry.order →
    ∃ record, registry.get? id = some record ∧ record.state.isTerminal = true
  exports : ∀ {id record}, registry.get? id = some record → record.state = .executing →
    record.exports.isSome = true

theorem Sound.keyed (h : Sound registry) : Keyed registry :=
  ⟨h.lookup_key, h.get_id, h.nodup⟩

/-- Two records do not stand under one key. -/
theorem Sound.id_inj (h : Sound registry) {other : ModuleId} {found : ModuleRecord}
    (hr : registry.get? id = some record) (ho : registry.get? other = some found)
    (hk : record.key = found.key) : id = other :=
  h.keyed.id_inj hr ho hk

/-- What stands under a key is a record of that key. -/
theorem Sound.of_lookup (h : Sound registry) {key : String}
    (hl : registry.lookup? key = some id) : ∃ record, registry.get? id = some record ∧
      record.key = key ∧ registry.find? key = some record := by
  obtain ⟨record, hr, hk⟩ := h.get_id (Association.mem_of_lookup hl)
  refine ⟨record, hr, hk, ?_⟩
  rw [find?, hl]
  exact hr

theorem Sound.find?_eq_some_iff (h : Sound registry) {key : String} :
    registry.find? key = some record ↔ ∃ id, registry.get? id = some record ∧ record.key = key := by
  constructor
  · intro hf
    obtain ⟨id, hl, hr⟩ := Option.bind_eq_some_iff.mp hf
    obtain ⟨found, hfound, hk, -⟩ := h.of_lookup hl
    rw [hr] at hfound
    cases hfound
    exact ⟨id, hr, hk⟩
  · rintro ⟨id, hr, rfl⟩
    rw [find?, h.lookup_key hr]
    exact hr

theorem sound_empty (maxSize : Nat) : Sound { maxSize } := by
  obtain ⟨hlookup, hget, hnodup⟩ := keyed_empty maxSize
  refine ⟨hlookup, hget, hnodup, List.nodup_nil, fun hmem => (nomatch hmem), ?_⟩
  intro id record hr
  simp [get?] at hr

/-! ## Changes that keep a registry sound -/

/-- A record is changed in its place, but keeps its key. -/
theorem Sound.sets (h : Sound registry) {changed : ModuleRecord}
    (hr : registry.get? id = some record) (hs : Sets registry after id changed)
    (hkey : changed.key = record.key)
    (hfinished : record.state.isTerminal = true → changed.state.isTerminal = true)
    (hexports : changed.state = .executing → changed.exports.isSome = true) : Sound after := by
  obtain ⟨hlookup, hget, hnodup⟩ := h.keyed.sets hr hs hkey
  refine ⟨hlookup, hget, hnodup, hs.order ▸ h.order_nodup, ?_, ?_⟩
  · intro other hmem
    rw [hs.order] at hmem
    obtain ⟨found, hfound, hterminal⟩ := h.finished hmem
    by_cases heq : other = id
    · subst heq
      rw [hr] at hfound
      cases hfound
      exact ⟨changed, hs.get_self, hfinished hterminal⟩
    · exact ⟨found, by rw [hs.get, if_neg heq, hfound], hterminal⟩
  · intro other found hfound
    rw [hs.get] at hfound
    split at hfound
    · cases hfound
      exact hexports
    · exact h.exports hfound

/-- A record is dropped with its key. -/
theorem Sound.drop (h : Sound registry) (hr : registry.get? id = some record)
    (hget : ∀ other, after.get? other = if other = id then none else registry.get? other)
    (hids : after.ids = registry.ids.filter (·.1 ≠ record.key))
    (hnodup : after.order.Nodup)
    (horder : ∀ other ∈ after.order, other ∈ registry.order ∧ other ≠ id) : Sound after := by
  obtain ⟨hlookup, hid, hkeys⟩ := h.keyed.drop hr hget hids
  refine ⟨hlookup, hid, hkeys, hnodup, ?_, ?_⟩
  · intro other hmem
    obtain ⟨hbefore, hne⟩ := horder other hmem
    obtain ⟨found, hfound, hterminal⟩ := h.finished hbefore
    exact ⟨found, by rw [hget, if_neg hne, hfound], hterminal⟩
  · intro other found hfound
    rw [hget] at hfound
    split at hfound
    · cases hfound
    · exact h.exports hfound

/-- A record is added under a key that has none. -/
theorem Sound.add (h : Sound registry) (hn : registry.lookup? record.key = none)
    (hf : registry.get? id = none) (hs : record.state ≠ .executing)
    (hget : ∀ other, after.get? other = if other = id then some record else registry.get? other)
    (hids : after.ids = (record.key, id) :: registry.ids) (horder : after.order = registry.order) :
    Sound after := by
  obtain ⟨hlookup, hid, hkeys⟩ := h.keyed.add hn hf hget hids
  refine ⟨hlookup, hid, hkeys, horder ▸ h.order_nodup, ?_, ?_⟩
  · intro other hmem
    rw [horder] at hmem
    obtain ⟨found, hfound, hterminal⟩ := h.finished hmem
    refine ⟨found, ?_, hterminal⟩
    rw [hget, if_neg, hfound]
    rintro rfl
    rw [hf] at hfound
    cases hfound
  · intro other found hfound
    rw [hget] at hfound
    split at hfound
    · cases hfound
      exact fun heq => absurd heq hs
    · exact h.exports hfound

/-- The order of finished records becomes another. -/
theorem Sound.reorder (h : Sound registry) (hget : ∀ other, after.get? other = registry.get? other)
    (hids : after.ids = registry.ids) (hnodup : after.order.Nodup)
    (horder : ∀ {other}, other ∈ after.order →
      ∃ found, registry.get? other = some found ∧ found.state.isTerminal = true) :
    Sound after := by
  obtain ⟨hlookup, hid, hkeys⟩ := h.keyed.congr hget hids
  refine ⟨hlookup, hid, hkeys, hnodup, ?_, ?_⟩
  · intro other hmem
    obtain ⟨found, hfound, hterminal⟩ := horder hmem
    exact ⟨found, (hget other).trans hfound, hterminal⟩
  · intro other found hfound
    exact h.exports ((hget other).symm.trans hfound)

end ScriptModules.Registry
