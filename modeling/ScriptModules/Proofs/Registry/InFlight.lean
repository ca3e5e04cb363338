import ScriptModules.Proofs.Registry.Representation

/-!
# Records in flight

A load that has a record relies on the registry to keep it: the record stays under
its key, and moves on only as this load does.  What a load relies on is its *claim*.  A
registry honors a list of claims (`InFlight`) when it carries the record of each, no
two claims share a record, and every record in flight is claimed.

Whatever drops records drops finished ones only.  So all claims outlast it.
-/

namespace ScriptModules.Registry

/-- What a load under way knows of its record. -/
structure Claim where
  id : ModuleId
  /-- The canonical id of the module. -/
  key : String
  state : ModuleState
  /-- The exports its body fills, once it runs. -/
  exports : Option Handle := none

/-- The registry holds what is claimed, and its loading is not over. -/
def Carries (registry : Registry) (claim : Claim) : Prop :=
  ∃ record, registry.get? claim.id = some record ∧ record.key = claim.key ∧
    record.state = claim.state ∧ record.state.isTerminal = false ∧
      ∀ exports, claim.exports = some exports → record.exports = some exports

/-- A sound registry that honors claims. -/
structure InFlight (registry : Registry) (claims : List Claim) : Prop where
  sound : registry.Sound
  carried : ∀ claim ∈ claims, registry.Carries claim
  nodup : (claims.map (·.id)).Nodup
  /-- No record in flight is left alone. -/
  claimed : ∀ {id record}, registry.get? id = some record → record.state.isTerminal = false →
    ∃ claim ∈ claims, claim.id = id

variable {registry after : Registry} {id : ModuleId} {record : ModuleRecord} {claim : Claim}
  {claims others : List Claim}

theorem inFlight_empty (maxSize : Nat) : InFlight { maxSize } [] := by
  refine ⟨sound_empty maxSize, fun _ hclaim => (nomatch hclaim), List.nodup_nil, ?_⟩
  intro id record hr
  simp [get?] at hr

/-- The order of claims does not matter. -/
theorem InFlight.perm (h : InFlight registry claims) (hp : claims.Perm others) :
    InFlight registry others := by
  refine ⟨h.sound, fun claim hclaim => h.carried claim (hp.mem_iff.mpr hclaim), ?_, ?_⟩
  · exact (hp.map (·.id)).nodup_iff.mp h.nodup
  · intro id record hr hs
    obtain ⟨claim, hclaim, hid⟩ := h.claimed hr hs
    exact ⟨claim, hp.mem_iff.mp hclaim, hid⟩

/-- Claims are for different modules. -/
theorem InFlight.keys_nodup (h : InFlight registry claims) : (claims.map (·.key)).Nodup := by
  have hids := h.nodup
  rw [List.Nodup, List.pairwise_map] at hids ⊢
  refine hids.imp_of_mem ?_
  intro first second hfirst hsecond hne heq
  obtain ⟨record, hr, hk, -⟩ := h.carried first hfirst
  obtain ⟨found, hf, hk', -⟩ := h.carried second hsecond
  exact hne (h.sound.id_inj hr hf (hk.trans (heq.trans hk'.symm)))

/-- A claim that is carried is found under its key. -/
theorem InFlight.find? (h : InFlight registry claims) (hc : claim ∈ claims) :
    ∃ record, registry.lookup? claim.key = some claim.id ∧
      registry.find? claim.key = some record ∧ registry.get? claim.id = some record ∧
        record.state = claim.state ∧ record.state.isTerminal = false ∧
          ∀ exports, claim.exports = some exports → record.exports = some exports := by
  obtain ⟨record, hr, hk, hs, ht, he⟩ := h.carried claim hc
  refine ⟨record, ?_, ?_, hr, hs, ht, he⟩
  · rw [← hk]
    exact h.sound.lookup_key hr
  · exact h.sound.find?_eq_some_iff.mpr ⟨claim.id, hr, hk⟩

/-- A finished record is not claimed. -/
theorem InFlight.ne_of_terminal (h : InFlight registry claims) (hr : registry.get? id = some record)
    (ht : record.state.isTerminal = true) (hc : claim ∈ claims) : claim.id ≠ id := by
  obtain ⟨found, hf, -, -, hflight, -⟩ := h.carried claim hc
  intro heq
  rw [heq, hr] at hf
  cases hf
  rw [ht] at hflight
  cases hflight

/-! ## Changes -/

/-- Claims last while records and keys do. -/
theorem InFlight.reorder (h : InFlight registry claims)
    (hget : ∀ other, after.get? other = registry.get? other) (hs : after.Sound) :
    InFlight after claims := by
  refine ⟨hs, ?_, h.nodup, ?_⟩
  · intro claim hclaim
    obtain ⟨record, hr, hrest⟩ := h.carried claim hclaim
    exact ⟨record, (hget _).trans hr, hrest⟩
  · intro id record hr
    exact h.claimed ((hget id).symm.trans hr)

/-- Counting changes no records. -/
theorem InFlight.of_eq (h : InFlight registry claims) (hr : after.records = registry.records)
    (hi : after.ids = registry.ids) (ho : after.order = registry.order) : InFlight after claims := by
  have hget : ∀ other, after.get? other = registry.get? other := by
    intro other
    rw [get?, get?, hr]
  refine h.reorder hget (h.sound.reorder hget hi (ho ▸ h.sound.order_nodup) ?_)
  intro other hmem
  exact h.sound.finished (ho ▸ hmem)

/-- Claims outlast the drop of a finished record. -/
theorem InFlight.drop (h : InFlight registry claims) (hr : registry.get? id = some record)
    (ht : record.state.isTerminal = true)
    (hget : ∀ other, after.get? other = if other = id then none else registry.get? other)
    (hs : after.Sound) : InFlight after claims := by
  refine ⟨hs, ?_, h.nodup, ?_⟩
  · intro claim hclaim
    obtain ⟨found, hf, hrest⟩ := h.carried claim hclaim
    refine ⟨found, ?_, hrest⟩
    rw [hget, if_neg (h.ne_of_terminal hr ht hclaim), hf]
  · intro other found hf
    rw [hget] at hf
    split at hf
    · cases hf
    · exact h.claimed hf

/-- A record that is made is claimed. -/
theorem InFlight.add (h : InFlight registry claims) (hf : registry.get? claim.id = none)
    (hget : ∀ other, after.get? other = if other = claim.id then some record else registry.get? other)
    (hk : record.key = claim.key) (hstate : record.state = claim.state)
    (ht : record.state.isTerminal = false) (he : claim.exports = none) (hs : after.Sound) :
    InFlight after (claim :: claims) := by
  have hne : ∀ other ∈ claims, other.id ≠ claim.id := by
    intro other hother heq
    obtain ⟨found, hfound, -⟩ := h.carried other hother
    rw [heq, hf] at hfound
    cases hfound
  refine ⟨hs, ?_, ?_, ?_⟩
  · intro other hother
    rcases List.mem_cons.mp hother with rfl | hold
    · refine ⟨record, by rw [hget, if_pos rfl], hk, hstate, ht, fun _ heq => ?_⟩
      rw [he] at heq
      cases heq
    · obtain ⟨found, hfound, hrest⟩ := h.carried other hold
      exact ⟨found, by rw [hget, if_neg (hne other hold), hfound], hrest⟩
  · rw [List.map_cons, List.nodup_cons]
    refine ⟨?_, h.nodup⟩
    intro hmem
    obtain ⟨other, hother, heq⟩ := List.mem_map.mp hmem
    exact hne other hother heq
  · intro other found hfound hflight
    rw [hget] at hfound
    split at hfound
    · rename_i heq
      exact ⟨claim, List.mem_cons_self, heq.symm⟩
    · obtain ⟨found, hmem, heq⟩ := h.claimed hfound hflight
      exact ⟨found, List.mem_cons_of_mem _ hmem, heq⟩

theorem InFlight.head_ne (h : InFlight registry (claim :: others)) {other : Claim}
    (ho : other ∈ others) : other.id ≠ claim.id := by
  have hnodup := h.nodup
  rw [List.map_cons, List.nodup_cons] at hnodup
  intro heq
  exact hnodup.1 (List.mem_map.mpr ⟨other, ho, heq⟩)

/-- A record moves on with the load that claims it. -/
theorem InFlight.sets (h : InFlight registry (claim :: others)) {moved : Claim}
    (hs : Sets registry after claim.id record) (hid : moved.id = claim.id)
    (hk : record.key = claim.key) (hmoved : moved.key = claim.key)
    (hstate : record.state = moved.state) (ht : record.state.isTerminal = false)
    (hrunning : record.state = .executing → record.exports.isSome = true)
    (he : ∀ exports, moved.exports = some exports → record.exports = some exports) :
    InFlight after (moved :: others) := by
  obtain ⟨before, hbefore, hkey, -, hflight, -⟩ := h.carried claim List.mem_cons_self
  refine ⟨h.sound.sets hbefore hs (hk.trans hkey.symm) ?_ hrunning, ?_, ?_, ?_⟩
  · intro hterminal
    rw [hterminal] at hflight
    cases hflight
  · intro other hother
    rcases List.mem_cons.mp hother with rfl | hold
    · exact ⟨record, hid ▸ hs.get_self, hk.trans hmoved.symm, hstate, ht, he⟩
    · obtain ⟨found, hfound, hrest⟩ := h.carried other (List.mem_cons_of_mem _ hold)
      refine ⟨found, ?_, hrest⟩
      rw [hs.get, if_neg (h.head_ne hold), hfound]
  · rw [List.map_cons, hid]
    exact h.nodup
  · intro other found hfound hother
    rw [hs.get] at hfound
    split at hfound
    · rename_i heq
      exact ⟨moved, List.mem_cons_self, hid.trans heq.symm⟩
    · rename_i hne
      obtain ⟨found, hmem, heq⟩ := h.claimed hfound hother
      rcases List.mem_cons.mp hmem with rfl | hold
      · exact absurd heq.symm hne
      · exact ⟨found, List.mem_cons_of_mem _ hold, heq⟩

/-- A load that is over gives up its claim. -/
theorem InFlight.release (h : InFlight registry (claim :: others))
    (hs : Sets registry after claim.id record) (hk : record.key = claim.key)
    (ht : record.state.isTerminal = true) : InFlight after others := by
  obtain ⟨before, hbefore, hkey, -⟩ := h.carried claim List.mem_cons_self
  have hnodup := h.nodup
  rw [List.map_cons, List.nodup_cons] at hnodup
  refine ⟨h.sound.sets hbefore hs (hk.trans hkey.symm) (fun _ => ht) ?_, ?_, hnodup.2, ?_⟩
  · intro hrunning
    rw [hrunning] at ht
    cases ht
  · intro other hother
    obtain ⟨found, hfound, hrest⟩ := h.carried other (List.mem_cons_of_mem _ hother)
    refine ⟨found, ?_, hrest⟩
    rw [hs.get, if_neg (h.head_ne hother), hfound]
  · intro other found hfound hflight
    rw [hs.get] at hfound
    split at hfound
    · cases hfound
      rw [ht] at hflight
      cases hflight
    · rename_i hne
      obtain ⟨found, hmem, heq⟩ := h.claimed hfound hflight
      rcases List.mem_cons.mp hmem with rfl | hold
      · exact absurd heq.symm hne
      · exact ⟨found, hold, heq⟩

/-! ## Dropping a module -/

/-- A record that is found after a module was dropped was found before. -/
theorem of_find?_invalidate {key other : String}
    (hf : (registry.invalidate key).2.find? other = some record) :
    registry.find? other = some record := by
  unfold invalidate at hf
  split at hf
  · exact hf
  · rename_i id hl
    obtain ⟨found, hlookup, hget⟩ := Option.bind_eq_some_iff.mp hf
    rw [lookup?, Association.lookup_filter registry.ids fun key' => decide (key' ≠ key)] at hlookup
    split at hlookup
    · have hdropped := get?_dropRecord registry id found
      split at hdropped
      · rw [show (registry.dropRecord id).get? found = some record from hget] at hdropped
        cases hdropped
      · rw [find?, lookup?, hlookup]
        exact hdropped.symm.trans hget
    · cases hlookup

theorem lookup?_invalidate (registry : Registry) (key : String) :
    (registry.invalidate key).2.lookup? key = none := by
  unfold invalidate
  split
  · assumption
  · rw [lookup?, Association.lookup_filter registry.ids fun key' => decide (key' ≠ key)]
    simp

/-- A module that is not being loaded may be dropped. -/
theorem InFlight.invalidate (h : InFlight registry claims) {key : String}
    (ht : ∀ record, registry.find? key = some record → record.state.isTerminal = true) :
    InFlight (registry.invalidate key).2 claims := by
  unfold Registry.invalidate
  split
  · exact h
  · rename_i id hl
    obtain ⟨record, hr, hk, hf⟩ := h.sound.of_lookup hl
    subst hk
    refine h.drop hr (ht record hf) (get?_dropRecord registry id) (h.sound.drop hr
      (get?_dropRecord registry id) rfl (h.sound.order_nodup.sublist List.filter_sublist) ?_)
    intro other hother
    obtain ⟨hmem, hne⟩ := List.mem_filter.mp hother
    exact ⟨hmem, of_decide_eq_true hne⟩

/-- Clearing drops finished modules only. -/
theorem InFlight.clear (h : InFlight registry claims) : InFlight registry.clear.2 claims := by
  have hfold : ∀ (finished : List (String × ModuleId)) (registry : Registry),
      InFlight registry claims →
      (∀ pair ∈ finished, ∀ record, registry.find? pair.1 = some record →
        record.state.isTerminal = true) →
      InFlight (finished.foldl (fun registry pair => (registry.invalidate pair.1).2) registry)
        claims := by
    intro finished
    induction finished with
    | nil => exact fun _ h _ => h
    | cons pair finished ih =>
        intro registry h hterminal
        refine ih _ (h.invalidate (hterminal pair List.mem_cons_self)) ?_
        intro other hother record hf
        exact hterminal other (List.mem_cons_of_mem _ hother) record (of_find?_invalidate hf)
  refine hfold _ registry h ?_
  rintro ⟨key, id⟩ hpair record hf
  obtain ⟨hmem, hall⟩ := List.mem_filter.mp hpair
  have hl := Association.lookup_of_mem h.sound.nodup hmem
  obtain ⟨found, hr, -, hfound⟩ := h.sound.of_lookup hl
  rw [hf] at hfound
  cases hfound
  simpa [hr] using hall

/-! ## Beginning a load -/

/-- A record that is made for a module that is not being loaded is claimed. -/
theorem InFlight.insert (h : InFlight registry claims) {key : String} (format : ModuleFormat)
    (ht : ∀ record, registry.find? key = some record → record.state.isTerminal = true) :
    InFlight (registry.insert key format).2
      ({ id := (registry.insert key format).1, key, state := .unresolved } :: claims) := by
  have hdropped := h.invalidate ht
  have hfresh := get?_size (registry.invalidate key).2
  have hget : ∀ other, (registry.insert key format).2.get? other =
      if other = (registry.insert key format).1 then some { key, format }
      else (registry.invalidate key).2.get? other := by
    rintro ⟨place⟩
    unfold Registry.insert get?
    simp only [Array.getElem?_push, ModuleId.mk.injEq]
    split <;> rfl
  exact hdropped.add hfresh hget rfl rfl rfl rfl (hdropped.sound.add
    (lookup?_invalidate registry key) hfresh (fun hnever => ModuleState.noConfusion hnever)
    hget rfl rfl)

/-- A record moves on before its body runs. -/
theorem InFlight.advance (h : InFlight registry (claim :: others)) {next : ModuleState}
    (hn : claim.state.canAdvance next = true) (ht : next.isTerminal = false)
    (he : claim.exports = none) (hrunning : next ≠ .executing) :
    InFlight (registry.advance claim.id next).2 ({ claim with state := next } :: others) := by
  obtain ⟨record, hr, hk, hs, -⟩ := h.carried claim List.mem_cons_self
  rw [← hs] at hn
  refine h.sets (sets_advance hr hn).2 rfl hk rfl rfl ht (fun heq => absurd heq hrunning) ?_
  intro exports heq
  rw [show claim.exports = some exports from heq] at he
  cases he

/-! ## Noting things in a record -/

/-- Notes that leave key, state and exports alone leave claims alone. -/
theorem InFlight.modify (h : InFlight registry (claim :: others))
    {change : ModuleRecord → ModuleRecord} (hk : ∀ record, (change record).key = record.key)
    (hs : ∀ record, (change record).state = record.state)
    (he : ∀ record, (change record).exports = record.exports) :
    InFlight (registry.modify claim.id change) (claim :: others) := by
  obtain ⟨record, hr, hkey, hstate, hflight, hexports⟩ := h.carried claim List.mem_cons_self
  refine h.sets (sets_modify hr change) rfl ((hk record).trans hkey) rfl
    ((hs record).trans hstate) ((congrArg _ (hs record)).trans hflight) ?_ ?_
  · intro hrunning
    rw [he]
    exact h.sound.exports hr ((hs record).symm.trans hrunning)
  · intro exports heq
    rw [he]
    exact hexports exports heq

/-- Exports may be given to a record whose body does not run yet. -/
theorem InFlight.setExports (h : InFlight registry (claim :: others)) (handle : Handle)
    (he : claim.exports = none) : InFlight (registry.setExports claim.id handle) (claim :: others) := by
  obtain ⟨record, hr, hkey, hstate, hflight, -⟩ := h.carried claim List.mem_cons_self
  refine h.sets (sets_modify hr _) rfl hkey rfl hstate hflight (fun _ => rfl) ?_
  intro exports heq
  rw [he] at heq
  cases heq

/-- The body of a module can begin, and fills the table the record has. -/
theorem InFlight.beginExecution (h : InFlight registry (claim :: others)) (store : ExportTables)
    (hn : claim.state.canAdvance .executing = true) :
    ∃ handle, (registry.beginExecution store claim.id).1 = some handle ∧
      InFlight (registry.beginExecution store claim.id).2.1
        ({ claim with state := .executing, exports := some handle } :: others) := by
  obtain ⟨record, hr, hk, hs, -⟩ := h.carried claim List.mem_cons_self
  rw [← hs] at hn
  obtain ⟨handle, hbegun, -, hsets⟩ := sets_beginExecution store hr hn
  exact ⟨handle, hbegun, h.sets hsets rfl hk rfl rfl rfl (fun _ => rfl) fun _ heq => heq⟩

/-! ## Finishing a load -/

/-- Using a finished module changes the order only. -/
theorem InFlight.touch (h : InFlight registry claims) (hr : registry.get? id = some record)
    (ht : record.state.isTerminal = true) : InFlight (registry.touch id) claims := by
  have hnodup := nodup_touch h.sound.order_nodup id
  refine h.reorder (fun _ => rfl) (h.sound.reorder (fun _ => rfl) rfl hnodup ?_)
  intro other hother
  rcases List.mem_append.mp hother with hold | hnew
  · exact h.sound.finished (List.mem_filter.mp hold).1
  · rw [List.mem_singleton.mp hnew]
    exact ⟨record, hr, ht⟩

/-- The oldest ids and the others make up the order, and `keep` is among the others. -/
theorem oldest_perm (keep : ModuleId) (n : Nat) (order : List ModuleId) :
    ((oldest keep n order).1 ++ (oldest keep n order).2).Perm order ∧
      keep ∉ (oldest keep n order).1 := by
  induction order generalizing n with
  | nil => cases n <;> exact ⟨List.Perm.refl _, List.not_mem_nil⟩
  | cons first order ih =>
      cases n with
      | zero => exact ⟨List.Perm.refl _, List.not_mem_nil⟩
      | succ n =>
          unfold oldest
          split
          · obtain ⟨hperm, hkeep⟩ := ih (n + 1)
            exact ⟨List.perm_middle.trans (hperm.cons first), hkeep⟩
          · rename_i hne
            obtain ⟨hperm, hkeep⟩ := ih n
            refine ⟨hperm.cons first, ?_⟩
            intro hmem
            rcases List.mem_cons.mp hmem with heq | hrest
            · exact hne heq.symm
            · exact hkeep hrest

theorem get?_evict (registry : Registry) (id other : ModuleId) :
    (registry.evict id).get? other = if other = id then none else registry.get? other := by
  unfold evict
  split
  · rename_i hnone
    split
    · rename_i heq
      rw [heq]
      exact hnone
    · rfl
  · exact get?_dropRecord registry id other

/-- A finished module that is no longer in the order may be evicted. -/
theorem InFlight.evict (h : InFlight registry claims) (ho : id ∉ registry.order)
    (ht : ∀ record, registry.get? id = some record → record.state.isTerminal = true) :
    InFlight (registry.evict id) claims ∧ (registry.evict id).order = registry.order := by
  have hget := get?_evict registry id
  unfold Registry.evict at hget ⊢
  split at hget
  · exact ⟨h, rfl⟩
  · rename_i record hr
    refine ⟨h.drop hr (ht record hr) hget (h.sound.drop hr hget rfl h.sound.order_nodup ?_), rfl⟩
    intro other hother
    refine ⟨hother, ?_⟩
    rintro rfl
    exact ho hother

/-- So may a number of them.  The induction is on the victims; each keeps the order, so
the others stay out of it. -/
theorem InFlight.evictAll (victims : List ModuleId) (h : InFlight registry claims)
    (ho : ∀ id ∈ victims, id ∉ registry.order)
    (ht : ∀ id ∈ victims, ∀ record, registry.get? id = some record →
      record.state.isTerminal = true) :
    InFlight (victims.foldl Registry.evict registry) claims ∧ ∀ keep ∉ victims,
      (victims.foldl Registry.evict registry).get? keep = registry.get? keep := by
  induction victims generalizing registry with
  | nil => exact ⟨h, fun _ _ => rfl⟩
  | cons victim victims ih =>
      rw [List.foldl_cons]
      obtain ⟨hevicted, horder⟩ :=
        h.evict (ho victim List.mem_cons_self) (ht victim List.mem_cons_self)
      obtain ⟨hall, hget⟩ := ih hevicted
        (fun id hid => horder ▸ ho id (List.mem_cons_of_mem _ hid)) (by
          intro id hid record hr
          rw [get?_evict] at hr
          split at hr
          · cases hr
          · exact ht id (List.mem_cons_of_mem _ hid) record hr)
      refine ⟨hall, fun keep hkeep => ?_⟩
      rw [List.mem_cons, not_or] at hkeep
      rw [hget keep hkeep.2, get?_evict, if_neg hkeep.1]

/-- Eviction drops finished modules only, and not the one just finished. -/
theorem InFlight.evictOverLimit (h : InFlight registry claims) (keep : ModuleId) :
    InFlight (registry.evictOverLimit keep) claims ∧
      (registry.evictOverLimit keep).get? keep = registry.get? keep := by
  obtain ⟨hperm, hkeep⟩ :=
    oldest_perm keep (registry.order.length - registry.maxSize) registry.order
  unfold Registry.evictOverLimit
  cases hsplit : oldest keep (registry.order.length - registry.maxSize) registry.order with
  | mk victims rest =>
      rw [hsplit] at hperm hkeep
      have hnodup := hperm.nodup_iff.mpr h.sound.order_nodup
      obtain ⟨-, hrest, hdisjoint⟩ := List.nodup_append.mp hnodup
      have hordered : InFlight { registry with order := rest } claims := by
        refine h.reorder (fun _ => rfl) (h.sound.reorder (fun _ => rfl) rfl hrest ?_)
        intro other hother
        exact h.sound.finished (hperm.mem_iff.mp (List.mem_append_right _ hother))
      obtain ⟨hall, hget⟩ := hordered.evictAll victims
        (fun id hid hmem => hdisjoint id hid id hmem rfl) (by
          intro id hid record hr
          obtain ⟨found, hfound, hterminal⟩ :=
            h.sound.finished (hperm.mem_iff.mp (List.mem_append_left _ hid))
          rw [show registry.get? id = some record from hr] at hfound
          cases hfound
          exact hterminal)
      exact ⟨hall, hget keep hkeep⟩

/-- From any state a record may pass to a last one. -/
theorem canAdvance_of_isTerminal {state next : ModuleState} (hs : state.isTerminal = false)
    (hn : next.isTerminal = true) : state.canAdvance next = true := by
  revert hs hn
  cases state <;> cases next <;> decide

/-- A load ends when its record, in a last state, takes its place in the order. -/
theorem InFlight.settle (h : InFlight registry (claim :: others))
    (hs : Sets registry after claim.id record) (hk : record.key = claim.key)
    (ht : record.state.isTerminal = true) :
    InFlight ((after.touch claim.id).evictOverLimit claim.id) others ∧
      ((after.touch claim.id).evictOverLimit claim.id).get? claim.id = some record := by
  have htouched := (h.release hs hk ht).touch hs.get_self ht
  obtain ⟨hevicted, hget⟩ := htouched.evictOverLimit claim.id
  exact ⟨hevicted, hget.trans hs.get_self⟩

/-- The record of a load that is over. -/
def Settled (registry : Registry) (claim : Claim) : Prop :=
  ∃ record, registry.get? claim.id = some record ∧ record.key = claim.key ∧
    record.state.isTerminal = true

theorem InFlight.complete (h : InFlight registry (claim :: others)) :
    InFlight (registry.complete claim.id) others ∧ (registry.complete claim.id).Settled claim := by
  obtain ⟨record, hr, hk, -, hflight, -⟩ := h.carried claim List.mem_cons_self
  have hcan : record.state.canAdvance .complete = true := canAdvance_of_isTerminal hflight rfl
  obtain ⟨hadvance, hsets⟩ := sets_advance hr hcan
  unfold Registry.complete
  rw [hadvance]
  obtain ⟨hsettled, hget⟩ := h.settle hsets hk rfl
  exact ⟨hsettled, _, hget, hk, rfl⟩

theorem InFlight.fail (h : InFlight registry (claim :: others)) (message : String) :
    InFlight (registry.fail claim.id message) others ∧
      (registry.fail claim.id message).Settled claim := by
  obtain ⟨record, hr, hk, -, hflight, -⟩ := h.carried claim List.mem_cons_self
  have hcan : record.state.canAdvance .errored = true := canAdvance_of_isTerminal hflight rfl
  obtain ⟨hadvance, hsets⟩ := sets_advance hr hcan
  unfold Registry.fail
  rw [hadvance]
  have herror := sets_modify hsets.get_self fun record => { record with error := some message }
  obtain ⟨hsettled, hget⟩ := h.settle (hsets.trans herror) hk rfl
  exact ⟨hsettled, _, hget, hk, rfl⟩

end ScriptModules.Registry
