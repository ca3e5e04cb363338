import Mathlib
import ScriptModules.Proofs.Cache.EvictionOrder
import ScriptModules.Proofs.Cache.Mirror

/-!
# As few evictions as will do

Entries are evicted in a certain order.  It is an order of all entries, by the number of their
last access and then by its time (`pairwise_evictionOrder`).

Eviction takes the first ones, and no more than it takes for the rest to fit
(`Accounted.enforceLimit_sheds`).  How many these are is said by `mayGo`.
-/

namespace ScriptModules.Cache

variable {cache : Cache} {fs : FileSystem} {fingerprint victim : Fingerprint} {surplus : Nat}

/-! ## What is known after some entries are gone -/

/-- Entries that are taken out are not known any more, and all others are. -/
theorem meta?_of_entries_eq_filter {after : Cache} {gone : List Fingerprint}
    (h : after.entries = cache.entries.filter (·.1 ∉ gone)) (fingerprint : Fingerprint) :
    after.meta? fingerprint = if fingerprint ∈ gone then none else cache.meta? fingerprint := by
  have hfilter := Association.lookup_filter cache.entries (fun key => decide (key ∉ gone)) fingerprint
  rw [meta?, h, hfilter]
  by_cases hgone : fingerprint ∈ gone <;> simp [hgone, meta?]

theorem meta?_of_entries_eq {after : Cache} (h : after.entries = cache.entries)
    (fingerprint : Fingerprint) : after.meta? fingerprint = cache.meta? fingerprint := by
  rw [meta?, meta?, h]

/-- What is still known when an entry is forgotten is known as before. -/
theorem meta?_forget_of_contains (h : (cache.forget victim).contains fingerprint = true) :
    (cache.forget victim).meta? fingerprint = cache.meta? fingerprint := by
  rw [contains, meta?_forget] at h
  rw [meta?_forget]
  split at h
  · cases h
  · rename_i hne
    rw [if_neg hne]

theorem mem_keys_iff : fingerprint ∈ cache.entries.map (·.1) ↔ cache.contains fingerprint = true := by
  rw [contains, meta?, Option.isSome_iff_ne_none, Ne, List.lookup_eq_none_iff]
  simp only [List.mem_map, not_forall, bne_iff_ne, ne_eq, Decidable.not_not]
  constructor
  · rintro ⟨pair, hpair, rfl⟩
    exact ⟨pair, hpair, rfl⟩
  · rintro ⟨pair, hpair, rfl⟩
    exact ⟨pair, hpair, rfl⟩

/-! ## The order of all entries -/

/-- The oldest entry is one that no other was accessed before. -/
theorem of_oldest?_eq_some (h : cache.oldest? = some victim) :
    ∃ entry, (victim, entry) ∈ cache.entries ∧
      ∀ pair ∈ cache.entries, ¬ accessedBefore pair.2 entry = true := by
  cases hentries : cache.entries with
  | nil =>
      rw [oldest?, hentries] at h
      cases h
  | cons first rest =>
      rw [oldest?_eq_foldl hentries, Option.some.injEq] at h
      subst h
      exact ⟨_, foldl_earlier_mem rest first, not_accessedBefore_foldl rest first⟩

theorem nodup_keys_forget (hn : (cache.entries.map (·.1)).Nodup) (victim : Fingerprint) :
    ((cache.forget victim).entries.map (·.1)).Nodup :=
  hn.sublist ((entries_forget_sublist cache victim).map _)

/-- With one entry forgotten the others are left. -/
theorem keys_perm_cons (hn : (cache.entries.map (·.1)).Nodup)
    (hv : victim ∈ cache.entries.map (·.1)) :
    (cache.entries.map (·.1)).Perm (victim :: (cache.forget victim).entries.map (·.1)) := by
  have hkept : (cache.forget victim).entries.map (·.1) =
      (cache.entries.map (·.1)).erase victim := by
    rw [entries_forget, hn.erase_eq_filter, List.filter_map]
    refine congrArg _ (List.filter_congr fun pair _ => ?_)
    by_cases heq : pair.1 = victim <;> simp [heq]
  rw [hkept]
  exact List.perm_cons_erase hv

/-- With rounds enough every entry comes up once. -/
theorem victims_perm (rounds : Nat) (hn : (cache.entries.map (·.1)).Nodup)
    (hr : cache.size ≤ rounds) :
    (victims rounds cache).Perm (cache.entries.map (·.1)) := by
  induction rounds generalizing cache with
  | zero =>
      have hnil : cache.entries = [] := List.eq_nil_of_length_eq_zero (Nat.le_zero.mp hr)
      simp [victims, hnil]
  | succ rounds ih =>
      rw [victims]
      split
      · rename_i hnone
        simp [oldest?_eq_none hnone]
      · rename_i victim hvictim
        have hmem := mem_of_oldest? hvictim
        have hfewer := size_forget_lt hmem
        have hrest := ih (nodup_keys_forget hn victim) (by omega)
        exact (hrest.cons victim).trans (keys_perm_cons hn hmem).symm

/-- The sizes of the entries in turn, and the surplus, make up the counter. -/
theorem Accounted.total_victims (ha : Accounted surplus cache) {rounds : Nat}
    (hr : cache.size ≤ rounds) :
    surplus + ((victims rounds cache).map cache.recordedSizeOf).sum = cache.currentSize := by
  have hall : ((cache.entries.map (·.1)).map cache.recordedSizeOf).sum = cache.recordedSize := by
    rw [recordedSize, List.map_map]
    congr 1
    refine List.map_congr_left fun pair hpair => ?_
    have hmeta : cache.meta? pair.1 = some pair.2 := Association.lookup_of_mem ha.nodup hpair
    simp [recordedSizeOf, hmeta]
  rw [((victims_perm rounds ha.nodup hr).map _).sum_eq, hall, ha.currentSize, Nat.add_comm]

theorem evictionOrder_perm (hn : (cache.entries.map (·.1)).Nodup) :
    cache.evictionOrder.Perm (cache.entries.map (·.1)) :=
  victims_perm cache.size hn (Nat.le_refl _)

theorem mem_evictionOrder_iff (hn : (cache.entries.map (·.1)).Nodup) :
    fingerprint ∈ cache.evictionOrder ↔ cache.contains fingerprint = true :=
  (evictionOrder_perm hn).mem_iff.trans mem_keys_iff

/-- Of two entries, by what is known of them, the second was not accessed before the first. -/
def InOrder (known : Fingerprint → Option EntryMeta) (first second : Fingerprint) : Prop :=
  ∀ entry other, known first = some entry → known second = some other →
    ¬ accessedBefore other entry = true

/-- Entries come up in the order of their accesses.  The induction is on the rounds: the one that
comes up first was accessed before no other, and the others are in order without it. -/
theorem pairwise_victims (rounds : Nat) (hn : (cache.entries.map (·.1)).Nodup)
    (hr : cache.size ≤ rounds) : (victims rounds cache).Pairwise (InOrder cache.meta?) := by
  induction rounds generalizing cache with
  | zero => exact List.Pairwise.nil
  | succ rounds ih =>
      rw [victims]
      split
      · exact List.Pairwise.nil
      · rename_i victim hvictim
        have hfewer := size_forget_lt (mem_of_oldest? hvictim)
        have hnext := nodup_keys_forget hn victim
        obtain ⟨entry, hentry, hfirst⟩ := of_oldest?_eq_some hvictim
        have hmeta : cache.meta? victim = some entry := Association.lookup_of_mem hn hentry
        refine List.pairwise_cons.mpr ⟨fun second _ => ?_, ?_⟩
        · intro first other hfound hother
          obtain rfl : entry = first := Option.some.inj (hmeta.symm.trans hfound)
          exact hfirst _ (Association.mem_of_lookup hother)
        · refine (ih hnext (by omega)).imp_of_mem ?_
          intro first second hmem hmem' hinOrder entry other hentry hother
          have hleft : ∀ fingerprint ∈ victims rounds (cache.forget victim),
              (cache.forget victim).meta? fingerprint = cache.meta? fingerprint := fun _ hmem =>
            meta?_forget_of_contains
              (mem_keys_iff.mp ((victims_perm rounds hnext (by omega)).mem_iff.mp hmem))
          exact hinOrder entry other ((hleft first hmem).trans hentry)
            ((hleft second hmem').trans hother)

theorem pairwise_evictionOrder (hn : (cache.entries.map (·.1)).Nodup) :
    cache.evictionOrder.Pairwise (InOrder cache.meta?) :=
  pairwise_victims cache.size hn (Nat.le_refl _)

/-! ## How many have to go -/

/-- How many entries may go, the first ones of an order: with them gone the others fit into a
limit, besides some bytes that stay; or there are no others. -/
def mayGo (order : List Fingerprint) (sizeOf : Fingerprint → Nat) (besides limit : Nat) : Set Nat :=
  {count | besides + ((order.drop count).map sizeOf).sum ≤ limit ∨ order.length ≤ count}

variable {order : List Fingerprint} {sizeOf : Fingerprint → Nat} {besides limit count : Nat}

/-- Only the sizes of the entries matter. -/
theorem mayGo_congr {other : Fingerprint → Nat} (h : ∀ fingerprint ∈ order,
    other fingerprint = sizeOf fingerprint) :
    mayGo order other besides limit = mayGo order sizeOf besides limit := by
  ext count
  have hsizes : (order.drop count).map other = (order.drop count).map sizeOf :=
    List.map_congr_left fun fingerprint hmem => h fingerprint (List.mem_of_mem_drop hmem)
  simp only [mayGo, Set.mem_ofPred_eq, hsizes]

theorem isLeast_mayGo_zero (h : besides + (order.map sizeOf).sum ≤ limit ∨ order = []) :
    IsLeast (mayGo order sizeOf besides limit) 0 := by
  refine ⟨h.imp id fun hnil => ?_, fun _ _ => Nat.zero_le _⟩
  simp [hnil]

/-- Where the first one has to go, the others are as before. -/
theorem isLeast_mayGo_cons {first : Fingerprint}
    (h : limit < besides + ((first :: order).map sizeOf).sum)
    (hc : IsLeast (mayGo order sizeOf besides limit) count) :
    IsLeast (mayGo (first :: order) sizeOf besides limit) (count + 1) := by
  constructor
  · simpa [mayGo] using hc.1
  · intro other hother
    cases other with
    | zero =>
        rcases hother with hfits | hnil
        · exact absurd hfits (Nat.not_le_of_lt h)
        · simp at hnil
    | succ other =>
        have hrest : other ∈ mayGo order sizeOf besides limit := by simpa [mayGo] using hother
        exact Nat.succ_le_succ (hc.2 hrest)

/-! ## What eviction takes -/

theorem recordedSizeOf_of_meta? {other : Cache}
    (h : other.meta? fingerprint = cache.meta? fingerprint) :
    other.recordedSizeOf fingerprint = cache.recordedSizeOf fingerprint := by
  rw [recordedSizeOf, recordedSizeOf, h]

/-- Eviction does away with the first entries, and with no more of them than it takes. -/
theorem Accounted.evict_sheds (rounds : Nat) (ha : Accounted surplus cache)
    (hr : cache.size ≤ rounds) :
    ∃ count, IsLeast (mayGo (victims rounds cache) cache.recordedSizeOf surplus cache.sizeLimit) count ∧
      (Cache.evict rounds cache fs).1.entries =
        cache.entries.filter (·.1 ∉ (victims rounds cache).take count) := by
  induction rounds generalizing cache fs with
  | zero => exact ⟨0, isLeast_mayGo_zero (Or.inr rfl), by simp [Cache.evict]⟩
  | succ rounds ih =>
      have htotal := ha.total_victims hr
      by_cases hover : cache.currentSize ≤ cache.sizeLimit
      · refine ⟨0, isLeast_mayGo_zero (Or.inl (htotal.trans_le hover)), ?_⟩
        simp [evict_of_le hover]
      · cases hv : cache.oldest? with
        | none =>
            have hnil : victims (rounds + 1) cache = [] := by rw [victims, hv]
            refine ⟨0, isLeast_mayGo_zero (Or.inr hnil), ?_⟩
            simp [Cache.evict, hv]
        | some victim =>
            have hlt := Nat.lt_of_not_le hover
            obtain ⟨next, hsettings, hentries, hsize, hevict⟩ := @evict_of_lt cache fs victim hlt hv rounds
            have hnext : Accounted surplus next := (ha.forget victim).of_eq hentries hsize
            have hfewer : next.size ≤ rounds := by
              have hforgotten := size_forget_lt (mem_of_oldest? hv)
              rw [Cache.size, hentries, ← Cache.size]
              omega
            have horder : victims (rounds + 1) cache = victim :: victims rounds next := by
              rw [victims, hv, victims_of_entries_eq rounds hentries]
            obtain ⟨count, hleast, hafter⟩ := @ih next (cache.remove fs victim).2.2 hnext hfewer
            have hsizes : ∀ fingerprint ∈ victims rounds next,
                next.recordedSizeOf fingerprint = cache.recordedSizeOf fingerprint := by
              intro fingerprint hmem
              have hkept := mem_keys_iff.mp ((victims_perm rounds hnext.nodup hfewer).mem_iff.mp hmem)
              have hmeta := meta?_of_entries_eq hentries fingerprint
              rw [contains, hmeta] at hkept
              exact recordedSizeOf_of_meta? (hmeta.trans (meta?_forget_of_contains hkept))
            have hlimit : next.sizeLimit = cache.sizeLimit := congrArg (·.2.2) hsettings
            rw [mayGo_congr hsizes, hlimit] at hleast
            rw [horder] at htotal ⊢
            refine ⟨count + 1, isLeast_mayGo_cons (htotal.symm ▸ hlt) hleast, ?_⟩
            rw [hevict, hafter, hentries, entries_forget, List.filter_filter]
            refine List.filter_congr fun pair _ => ?_
            simp [Bool.and_comm]

/-- The size of an entry, by what is known of it. -/
def sizeIn (known : Fingerprint → Option EntryMeta) (fingerprint : Fingerprint) : Nat :=
  ((known fingerprint).map (·.size)).getD 0

/-- Of what is known the first entries of an order are given up, and no more of them than it
takes for the others to fit into a limit, besides some bytes that stay. -/
def Sheds (known kept : Fingerprint → Option EntryMeta) (order : List Fingerprint)
    (besides limit : Nat) : Prop :=
  ∃ count, IsLeast (mayGo order (sizeIn known) besides limit) count ∧
    ∀ fingerprint,
      kept fingerprint = if fingerprint ∈ order.take count then none else known fingerprint

/-- Keeping the limit sheds the entries that come up first. -/
theorem Accounted.enforceLimit_sheds (ha : Accounted surplus cache) :
    Sheds cache.meta? (cache.enforceLimit fs).1.meta? cache.evictionOrder surplus
      cache.sizeLimit := by
  obtain ⟨count, hleast, hentries⟩ := @Accounted.evict_sheds _ fs _ cache.size ha (Nat.le_refl _)
  exact ⟨count, hleast, meta?_of_entries_eq_filter hentries⟩

end ScriptModules.Cache
