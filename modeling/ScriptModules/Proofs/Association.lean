/-!
# Association lists

A table is kept as a list of pairs, and the first pair of a key counts.  Tables
are changed by taking out all pairs of a key and by adding a pair.  Here is what
both do to looking up, and to totals over tables that hold every key once.
-/

namespace ScriptModules.Association

variable {α β : Type}

/-! ## Keys that stand once -/

theorem nodup_filter {table : List (α × β)} (keep : α × β → Bool)
    (hn : (table.map (·.1)).Nodup) : ((table.filter keep).map (·.1)).Nodup :=
  hn.sublist (List.filter_sublist.map _)

/-- A new pair may follow when the other pairs of its key are taken out. -/
theorem nodup_filter_append [DecidableEq α] {table : List (α × β)} (key : α) (value : β)
    (hn : (table.map (·.1)).Nodup) :
    ((table.filter (·.1 ≠ key) ++ [(key, value)]).map (·.1)).Nodup := by
  rw [List.map_append, List.nodup_append]
  refine ⟨nodup_filter _ hn, by simp, ?_⟩
  intro first hfirst second hsecond
  obtain ⟨pair, hpair, rfl⟩ := List.mem_map.mp hfirst
  have hne : pair.1 ≠ key := by simpa using (List.mem_filter.mp hpair).2
  have heq : second = key := by simpa using hsecond
  rw [heq]
  exact hne

variable [BEq α] [LawfulBEq α]

/-! ## Looking up -/

theorem mem_of_lookup {table : List (α × β)} {key : α} {value : β}
    (h : table.lookup key = some value) : (key, value) ∈ table := by
  obtain ⟨before, after, rfl, _⟩ := List.lookup_eq_some_iff.mp h
  simp

/-- Where every key stands once, each pair is found. -/
theorem lookup_of_mem {table : List (α × β)} {key : α} {value : β}
    (hn : (table.map (·.1)).Nodup) (h : (key, value) ∈ table) :
    table.lookup key = some value := by
  induction table with
  | nil => cases h
  | cons pair rest ih =>
      obtain ⟨other, found⟩ := pair
      rw [List.map_cons, List.nodup_cons] at hn
      cases h with
      | head => exact List.lookup_cons_self
      | tail _ hmem =>
          have hne : (key == other) = false := by
            rw [beq_eq_false_iff_ne]
            intro heq
            subst heq
            exact hn.1 (List.mem_map.mpr ⟨(key, value), hmem, rfl⟩)
          rw [List.lookup_cons, hne]
          exact ih hn.2 hmem

/-- Taking out pairs by their keys hides the keys taken out and no others. -/
theorem lookup_filter (table : List (α × β)) (keep : α → Bool) (key : α) :
    (table.filter fun pair => keep pair.1).lookup key =
      if keep key then table.lookup key else none := by
  induction table with
  | nil => simp
  | cons pair rest ih =>
      obtain ⟨other, value⟩ := pair
      by_cases heq : key = other
      · subst heq
        cases hk : keep key with
        | true => simp [hk]
        | false => simpa [hk] using ih
      · have hne : (key == other) = false := beq_eq_false_iff_ne.mpr heq
        cases hk : keep other with
        | true => simp [hk, List.lookup_cons, hne, ih]
        | false => simp [hk, List.lookup_cons, hne, ih]

/-! ## Totals -/

/-- The total over a table is the total without a key and what that key adds. -/
theorem sum_filter_add_lookup [DecidableEq α] {table : List (α × β)} (size : β → Nat) (key : α)
    (hn : (table.map (·.1)).Nodup) :
    ((table.filter (·.1 ≠ key)).map (size ·.2)).sum + ((table.lookup key).map size).getD 0 =
      (table.map (size ·.2)).sum := by
  induction table with
  | nil => simp
  | cons pair rest ih =>
      obtain ⟨other, value⟩ := pair
      rw [List.map_cons, List.nodup_cons] at hn
      by_cases heq : other = key
      · subst heq
        have hrest : rest.filter (·.1 ≠ other) = rest := by
          rw [List.filter_eq_self]
          intro pair hpair
          have hne : pair.1 ≠ other := fun h => hn.1 (List.mem_map.mpr ⟨pair, hpair, h⟩)
          simpa using hne
        rw [List.filter_cons_of_neg (by simp), hrest, List.lookup_cons_self, List.map_cons,
          List.sum_cons, Nat.add_comm]
        rfl
      · have hne : (key == other) = false := beq_eq_false_iff_ne.mpr (Ne.symm heq)
        rw [List.filter_cons_of_pos (by simpa using heq), List.lookup_cons, hne, List.map_cons,
          List.sum_cons, List.map_cons, List.sum_cons, Nat.add_assoc, ih hn.2]

end ScriptModules.Association
