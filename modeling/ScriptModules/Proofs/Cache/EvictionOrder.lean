import ScriptModules.Proofs.Cache.Recency

/-!
# The order of eviction

The entries of a cache go in a certain order when they are evicted, however many of them have to
go and whatever becomes of their files (`entries_enforceLimit`).  Where every access has a number
of its own, the order does not depend on how the entries are kept (`evictionOrder_congr`).
-/

namespace ScriptModules.Cache

variable {cache other : Cache} {fs : FileSystem} {fingerprint : Fingerprint}

/-- The first entries that are evicted, in their order. -/
def victims : (rounds : Nat) → Cache → List Fingerprint
  | 0, _ => []
  | rounds + 1, cache =>
    match cache.oldest? with
    | none => []
    | some victim => victim :: victims rounds (cache.forget victim)

/-- The entries in the order in which they are evicted. -/
def evictionOrder (cache : Cache) : List Fingerprint :=
  victims cache.size cache

/-! ## What is forgotten -/

theorem entries_forget_sublist (cache : Cache) (fingerprint : Fingerprint) :
    (cache.forget fingerprint).entries.Sublist cache.entries := by
  rw [entries_forget]
  exact List.filter_sublist

/-- Only the entries say which one is the oldest. -/
theorem oldest?_of_entries_eq (h : other.entries = cache.entries) :
    other.oldest? = cache.oldest? := by
  rw [oldest?, oldest?, h]

theorem victims_of_entries_eq (rounds : Nat) (h : other.entries = cache.entries) :
    victims rounds other = victims rounds cache := by
  induction rounds generalizing cache other with
  | zero => rfl
  | succ rounds ih =>
      rw [victims, victims, oldest?_of_entries_eq h]
      split
      · rfl
      · rename_i victim _
        have hnext : (other.forget victim).entries = (cache.forget victim).entries := by
          rw [entries_forget, entries_forget, h]
        rw [ih hnext]

/-! ## What is evicted -/

/-- Eviction does away with the first few entries, in their order. -/
theorem entries_evict (rounds : Nat) (cache : Cache) (fs : FileSystem) :
    ∃ count, (evict rounds cache fs).1.entries =
      cache.entries.filter (·.1 ∉ (victims rounds cache).take count) := by
  induction rounds generalizing cache fs with
  | zero => exact ⟨0, by simp [evict]⟩
  | succ rounds ih =>
      unfold evict
      split
      · exact ⟨0, by simp⟩
      · split
        · exact ⟨0, by simp⟩
        · rename_i victim hvictim
          have hstep : ∀ (next : Cache) (files : FileSystem),
              next.entries = (cache.forget victim).entries →
              ∃ count, (evict rounds next files).1.entries =
                cache.entries.filter (·.1 ∉ (victims (rounds + 1) cache).take count) := by
            intro next files hentries
            obtain ⟨count, hrest⟩ := ih next files
            refine ⟨count + 1, ?_⟩
            rw [hrest, victims_of_entries_eq rounds hentries, hentries, entries_forget,
              victims, hvictim, List.filter_filter]
            refine List.filter_congr fun pair _ => ?_
            simp [Bool.and_comm]
          refine hstep _ _ ?_
          show (cache.remove fs victim).2.1.entries = (cache.forget victim).entries
          rw [remove_cache]

theorem entries_enforceLimit (cache : Cache) (fs : FileSystem) :
    ∃ count, (cache.enforceLimit fs).1.entries =
      cache.entries.filter (·.1 ∉ cache.evictionOrder.take count) :=
  entries_evict cache.size cache fs

/-- Within the limit there is nothing to evict. -/
theorem enforceLimit_of_le (h : cache.currentSize ≤ cache.sizeLimit) :
    cache.enforceLimit fs = (cache, fs) := by
  unfold enforceLimit evict
  split
  · rfl
  · rw [if_pos h]

/-! ## Numbers of their own -/

/-- Where every access has a number of its own, the oldest entry is the one with the lowest. -/
theorem oldest?_eq_some_iff (hn : (cache.entries.map (·.2.sequence)).Nodup) :
    cache.oldest? = some fingerprint ↔ ∃ entry, (fingerprint, entry) ∈ cache.entries ∧
      ∀ pair ∈ cache.entries, entry.sequence ≤ pair.2.sequence := by
  cases hentries : cache.entries with
  | nil => simp [oldest?, hentries]
  | cons first rest =>
      have hmem := foldl_earlier_mem rest first
      have hleast : ∀ pair ∈ first :: rest,
          (rest.foldl earlier first).2.sequence ≤ pair.2.sequence := by
        intro pair hpair
        refine UInt64.not_lt.mp fun hlt => not_accessedBefore_foldl rest first pair hpair ?_
        exact accessedBefore_iff.mpr (Or.inl hlt)
      rw [oldest?_eq_foldl hentries, Option.some.injEq]
      constructor
      · rintro rfl
        exact ⟨(rest.foldl earlier first).2, hmem, hleast⟩
      · rintro ⟨entry, hentry, hlowest⟩
        have hsame : (rest.foldl earlier first).2.sequence = entry.sequence :=
          UInt64.le_antisymm (hleast _ hentry) (hlowest _ hmem)
        rw [hentries] at hn
        exact congrArg Prod.fst (List.inj_on_of_nodup_map hn hmem hentry hsame)

theorem oldest?_congr (h : other.entries.Perm cache.entries)
    (hn : (cache.entries.map (·.2.sequence)).Nodup) : other.oldest? = cache.oldest? := by
  have hother : (other.entries.map (·.2.sequence)).Nodup := (h.map _).nodup_iff.mpr hn
  ext fingerprint
  simp only [oldest?_eq_some_iff hother, oldest?_eq_some_iff hn, h.mem_iff]

theorem victims_congr (rounds : Nat) (h : other.entries.Perm cache.entries)
    (hn : (cache.entries.map (·.2.sequence)).Nodup) :
    victims rounds other = victims rounds cache := by
  induction rounds generalizing cache other with
  | zero => rfl
  | succ rounds ih =>
      rw [victims, victims, oldest?_congr h hn]
      split
      · rfl
      · rename_i victim _
        have hperm : (other.forget victim).entries.Perm (cache.forget victim).entries := by
          rw [entries_forget, entries_forget]
          exact h.filter _
        rw [ih hperm (hn.sublist ((entries_forget_sublist cache victim).map _))]

/-- The order of eviction is that of the numbers, however the entries are kept. -/
theorem evictionOrder_congr (h : other.entries.Perm cache.entries)
    (hn : (cache.entries.map (·.2.sequence)).Nodup) :
    other.evictionOrder = cache.evictionOrder := by
  have hsize : other.size = cache.size := h.length_eq
  rw [evictionOrder, evictionOrder, hsize, victims_congr _ h hn]

end ScriptModules.Cache
