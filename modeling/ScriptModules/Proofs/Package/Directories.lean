import ScriptModules.Proofs.Files.RealPath

/-!
# Spellings of directories

An absolute path without `.` is spelled by what stands between its slashes: the pieces of it,
some of which may be empty (`Spelled`).  The pieces that are not empty are its names, where `..` is
a name like any other.  Two spellings with the same names are the same path for a memory that
goes by components (`components_eq_iff`), and for a file system as well, except that one of them
may be too long (`Spelled.find_eq`).  Of the spellings of a path the plain one is the shortest, so
that between plain and short ones there is no exception (`Bounded.length_le_iff`).

Upward goes from a spelling to one of the directory above it, name by name
(`Spelled.ancestors`).
-/

namespace ScriptModules

open FileSystem

namespace Path

/-- A path is absolute, has no `.` in it, and ends in no slash, unless it is the root. -/
structure IsTidy (path : Path) : Prop where
  absolute : path.isAbsolute = true
  noPoint : [point] ∉ split path.bytes
  noEnd : path.bytes.getLast? = some slash → path.bytes = [slash]

/-- No slash follows another one. -/
def IsPlain (path : Path) : Prop :=
  path.bytes = [slash] ∨ [] ∉ (split path.bytes).tail

/-- A path is plain, or short enough to be used. -/
def Bounded (path : Path) : Prop :=
  path.IsPlain ∨ path.bytes.length ≤ pathLimit

/-- The pieces of a path that are not empty. -/
def names (path : Path) : List Bytes :=
  (split path.bytes).filter (· ≠ [])

/-- A path is put together from pieces, the last of which is not empty. -/
structure Spelled (path : Path) (pieces : List Bytes) : Prop where
  eq : path = Location.toPath pieces
  slash_notMem : ∀ piece ∈ pieces, slash ∉ piece
  ne_point : ∀ piece ∈ pieces, piece ≠ [point]
  last_ne : pieces.getLast? ≠ some []

variable {path other : Path} {pieces rest front : List Bytes} {piece last : Bytes} {name : Name}
  {fs : FileSystem}

/-! ## Pieces -/

theorem slash_notMem_of_mem_split {bytes : Bytes} (h : piece ∈ split bytes) : slash ∉ piece := by
  induction bytes generalizing piece with
  | nil =>
      rw [List.mem_singleton.mp h]
      exact List.not_mem_nil
  | cons byte bytes ih =>
      rw [split] at h
      split at h
      · rcases List.mem_cons.mp h with rfl | hmem
        · exact List.not_mem_nil
        · exact ih hmem
      · rename_i hbyte
        cases hs : split bytes with
        | nil => exact absurd hs (split_ne_nil bytes)
        | cons first rest =>
            rw [hs] at h ih
            rcases List.mem_cons.mp h with rfl | hmem
            · rw [List.mem_cons, not_or]
              exact ⟨Ne.symm hbyte, ih List.mem_cons_self⟩
            · exact ih (List.mem_cons_of_mem _ hmem)

theorem unsplit_nil_cons (h : pieces ≠ []) :
    unsplit ([] :: pieces) = pieces.flatMap (slash :: ·) := by
  induction pieces with
  | nil => exact absurd rfl h
  | cons piece pieces ih =>
      rw [unsplit_cons h, List.nil_append, List.flatMap_cons, List.cons_append]
      congr 1
      cases pieces with
      | nil => exact (List.append_nil piece).symm
      | cons next pieces =>
          rw [unsplit_cons (List.cons_ne_nil next pieces), ← ih (List.cons_ne_nil next pieces)]
          rfl

theorem Spelled.last_ne_nil (h : Spelled path (front ++ [last])) : last ≠ [] := by
  rintro rfl
  exact h.last_ne List.getLast?_concat

theorem Spelled.isIdle_last (h : Spelled path (front ++ [last])) : isIdle last = false :=
  isIdle_eq_false h.last_ne_nil
    (h.ne_point last (List.mem_append_right _ (List.mem_singleton_self _)))

theorem Spelled.bytes (h : Spelled path pieces) (hne : pieces ≠ []) :
    path.bytes = pieces.flatMap (slash :: ·) := by
  rw [h.eq, toPath_of_ne_nil hne]

theorem Spelled.bytes_of_nil (h : Spelled path []) : path.bytes = [slash] := by
  rw [h.eq]
  rfl

theorem Spelled.bytes_ne_nil (h : Spelled path pieces) : path.bytes ≠ [] := by
  rw [h.eq]
  cases pieces with
  | nil => exact List.cons_ne_nil _ _
  | cons piece pieces => exact List.cons_ne_nil _ _

theorem Spelled.isAbsolute (h : Spelled path pieces) : path.isAbsolute = true := by
  rw [h.eq]
  cases pieces <;> rfl

theorem Spelled.split (h : Spelled path pieces) (hne : pieces ≠ []) :
    Path.split path.bytes = [] :: pieces := by
  rw [h.bytes hne, split_flatMap h.slash_notMem]

theorem Spelled.getLast?_ne_slash (h : Spelled path pieces) (hne : pieces ≠ []) :
    path.bytes.getLast? ≠ some slash := by
  obtain ⟨front, last, heq⟩ := (List.eq_nil_or_concat pieces).resolve_left hne
  rw [List.concat_eq_append] at heq
  subst heq
  have hsplit := h.split hne
  rw [← List.cons_append] at hsplit
  exact Path.getLast?_ne_slash hsplit h.last_ne_nil

/-- Every path that is tidy can be spelled so. -/
theorem IsTidy.spelled (h : path.IsTidy) : ∃ pieces, Spelled path pieces := by
  by_cases hroot : path.bytes = [slash]
  · refine ⟨[], congrArg Path.mk hroot, nofun, nofun, nofun⟩
  · obtain ⟨rest, hrest⟩ := List.head?_eq_some_iff.mp (beq_iff_eq.mp h.absolute)
    have hsplit : split path.bytes = [] :: split rest := by rw [hrest, split, if_pos rfl]
    have hbytes : path.bytes = (split rest).flatMap (slash :: ·) := by
      rw [← unsplit_nil_cons (split_ne_nil rest), ← hsplit, unsplit_split]
    refine ⟨split rest, ?_, fun _ => slash_notMem_of_mem_split, ?_, ?_⟩
    · rw [toPath_of_ne_nil (split_ne_nil rest), ← hbytes]
    · rintro piece hpiece rfl
      exact h.noPoint (hsplit ▸ List.mem_cons_of_mem _ hpiece)
    · intro hlast
      obtain ⟨front, hfront⟩ := List.getLast?_eq_some_iff.mp hlast
      refine hroot (h.noEnd ?_)
      rw [hbytes, hfront, List.flatMap_append]
      exact List.getLast?_concat

theorem Spelled.isTidy (h : Spelled path pieces) : path.IsTidy := by
  refine ⟨h.isAbsolute, ?_, fun hend => ?_⟩
  · by_cases hne : pieces = []
    · subst hne
      rw [h.bytes_of_nil]
      decide
    · rw [h.split hne, List.mem_cons, not_or]
      exact ⟨List.cons_ne_nil _ _, fun hmem => h.ne_point _ hmem rfl⟩
  · by_cases hne : pieces = []
    · subst hne
      exact h.bytes_of_nil
    · exact absurd hend (h.getLast?_ne_slash hne)

theorem Spelled.names (h : Spelled path pieces) : path.names = pieces.filter (· ≠ []) := by
  by_cases hne : pieces = []
  · subst hne
    rw [Path.names, h.bytes_of_nil]
    rfl
  · rw [Path.names, h.split hne]
    rfl

theorem Spelled.eq_nil_of_names (h : Spelled path pieces) (hn : path.names = []) :
    pieces = [] := by
  rw [h.names, List.filter_eq_nil_iff] at hn
  refine Classical.byContradiction fun hne => ?_
  obtain ⟨last, hlast⟩ := Option.ne_none_iff_exists'.mp (mt List.getLast?_eq_none_iff.mp hne)
  have hempty : last = [] := by simpa using hn last (List.mem_of_getLast? hlast)
  exact h.last_ne (hempty ▸ hlast)

/-- The component of a name. -/
def componentOf (name : Bytes) : Component :=
  if name = [point, point] then .parent else .normal name

theorem componentOf_inj {name other : Bytes} (h : componentOf name = componentOf other) :
    name = other := by
  unfold componentOf at h
  split at h <;> split at h
  · rename_i hname hother
    rw [hname, hother]
  · cases h
  · cases h
  · exact Component.normal.inj h

theorem filterMap_component?_of_ne_point (h : ∀ piece ∈ pieces, piece ≠ [point]) :
    pieces.filterMap component? = (pieces.filter (· ≠ [])).map componentOf := by
  induction pieces with
  | nil => rfl
  | cons piece pieces ih =>
      obtain ⟨hpoint, hrest⟩ := List.forall_mem_cons.mp h
      by_cases hnil : piece = []
      · subst hnil
        rw [List.filterMap_cons_none rfl, ih hrest]
        rfl
      · have hsome : component? piece = some (componentOf piece) := by
          unfold component? componentOf
          rw [isIdle_eq_false hnil hpoint, if_neg Bool.false_ne_true]
          split <;> rfl
        rw [List.filterMap_cons_some hsome, ih hrest, List.filter_cons_of_pos (by simpa using hnil),
          List.map_cons]

/-- The components are those of the names. -/
theorem Spelled.components (h : Spelled path pieces) :
    path.components = .root :: path.names.map componentOf := by
  by_cases hne : pieces = []
  · subst hne
    rw [Path.components, Path.names, Path.isAbsolute, h.bytes_of_nil]
    rfl
  · simp only [Path.components, h.isAbsolute, if_pos]
    rw [h.names, h.split hne, List.filterMap_cons_none rfl,
      filterMap_component?_of_ne_point h.ne_point]

/-- Paths are the same for a memory just if they have the same names. -/
theorem components_eq_iff (h : Spelled path pieces) (ho : Spelled other rest) :
    path.components = other.components ↔ path.names = other.names := by
  rw [h.components, ho.components, List.cons.injEq]
  exact ⟨fun heq => (List.map_inj_right fun _ _ => componentOf_inj).mp heq.2,
    fun heq => ⟨rfl, congrArg _ heq⟩⟩

/-! ## Lengths -/

theorem Spelled.isPlain_iff (h : Spelled path pieces) : path.IsPlain ↔ [] ∉ pieces := by
  by_cases hne : pieces = []
  · subst hne
    exact ⟨fun _ => List.not_mem_nil, fun _ => Or.inl h.bytes_of_nil⟩
  · have hroot : path.bytes ≠ [slash] := by
      intro hroot
      have hsplit := h.split hne
      rw [hroot] at hsplit
      cases hsplit
      exact h.last_ne rfl
    rw [IsPlain, h.split hne, List.tail_cons]
    exact or_iff_right hroot

/-- The plain spelling of some names. -/
theorem spelled_names (h : Spelled path pieces) :
    Spelled (Location.toPath path.names) path.names := by
  rw [h.names]
  refine ⟨rfl, fun piece hpiece => h.slash_notMem piece (List.mem_filter.mp hpiece).1,
    fun piece hpiece => h.ne_point piece (List.mem_filter.mp hpiece).1, fun hlast => ?_⟩
  simpa using (List.mem_filter.mp (List.mem_of_getLast? hlast)).2

theorem Spelled.eq_of_isPlain (h : Spelled path pieces) (hp : path.IsPlain) :
    path = Location.toPath path.names := by
  have hall : pieces.filter (· ≠ []) = pieces := by
    rw [List.filter_eq_self]
    intro piece hpiece
    refine decide_eq_true ?_
    rintro rfl
    exact h.isPlain_iff.mp hp hpiece
  rw [h.names, hall]
  exact h.eq

theorem length_flatMap_filter (pieces : List Bytes) :
    ((pieces.filter (· ≠ [])).flatMap (slash :: ·)).length ≤
      (pieces.flatMap (slash :: ·)).length := by
  induction pieces with
  | nil => exact Nat.le_refl 0
  | cons piece pieces ih =>
      rw [List.filter_cons]
      split
      · simp only [List.flatMap_cons, List.length_append]
        exact Nat.add_le_add_left ih _
      · rw [List.flatMap_cons, List.length_append]
        exact Nat.le_add_left_of_le ih

/-- No spelling is shorter. -/
theorem Spelled.length_toPath_names (h : Spelled path pieces) :
    (Location.toPath path.names).bytes.length ≤ path.bytes.length := by
  by_cases hnil : path.names = []
  · have hpieces := h.eq_nil_of_names hnil
    subst hpieces
    rw [hnil, h.bytes_of_nil]
    exact Nat.le_refl 1
  · have hne : pieces ≠ [] := by
      rintro rfl
      exact hnil h.names
    rw [toPath_of_ne_nil hnil, h.bytes hne, h.names]
    exact length_flatMap_filter pieces

/-- Of two spellings that are plain or short, both are short or none is. -/
theorem Bounded.length_le_iff (h : Spelled path pieces) (ho : Spelled other rest)
    (hb : path.Bounded) (hbo : other.Bounded) (hn : path.names = other.names) :
    path.bytes.length ≤ pathLimit ↔ other.bytes.length ≤ pathLimit := by
  have himp : ∀ {path other : Path} {pieces rest : List Bytes}, Spelled path pieces →
      Spelled other rest → other.Bounded → path.names = other.names →
      path.bytes.length ≤ pathLimit → other.bytes.length ≤ pathLimit := by
    intro path other pieces rest h ho hbo hn hshort
    rcases hbo with hplain | hshort
    · rw [ho.eq_of_isPlain hplain, ← hn]
      exact Nat.le_trans h.length_toPath_names hshort
    · exact hshort
  exact ⟨himp h ho hbo hn, himp ho h hb hn.symm⟩

/-! ## Spellings and files -/

theorem Spelled.zero_mem_iff (h : Spelled path pieces) (hne : pieces ≠ []) :
    0 ∈ path.bytes ↔ ∃ name ∈ path.names, 0 ∈ name := by
  have hslash : ¬ 0 = slash := by decide
  rw [h.bytes hne, h.names, List.mem_flatMap]
  constructor
  · rintro ⟨piece, hpiece, hzero⟩
    have hmem : 0 ∈ piece := (List.mem_cons.mp hzero).resolve_left hslash
    exact ⟨piece, List.mem_filter.mpr ⟨hpiece, decide_eq_true (List.ne_nil_of_mem hmem)⟩, hmem⟩
  · rintro ⟨name, hname, hzero⟩
    exact ⟨name, (List.mem_filter.mp hname).1, List.mem_cons_of_mem _ hzero⟩

theorem filterMap_ofPiece? (pieces : List Bytes) :
    (pieces.filter (· ≠ [])).filterMap Step.ofPiece? = pieces.filterMap Step.ofPiece? := by
  rw [List.filterMap_filter]
  refine congrArg (List.filterMap · pieces) (funext fun piece => ?_)
  by_cases hnil : piece = []
  · subst hnil
    rfl
  · rw [if_pos (decide_eq_true hnil)]

theorem Spelled.stepsOf (h : Spelled path pieces) (hne : pieces ≠ []) :
    stepsOf path = path.names.filterMap Step.ofPiece? := by
  rw [h.names, filterMap_ofPiece?, FileSystem.stepsOf, if_neg (h.getLast?_ne_slash hne),
    h.split hne, List.filterMap_cons_none rfl]

/-- What spellings of the same names lead to is the same, if both of them are short or none is. -/
theorem Spelled.find_eq (h : Spelled path pieces) (ho : Spelled other rest)
    (hn : path.names = other.names)
    (hl : path.bytes.length ≤ pathLimit ↔ other.bytes.length ≤ pathLimit) :
    fs.find path = fs.find other := by
  by_cases hne : pieces = []
  · subst hne
    have hrest := ho.eq_nil_of_names (hn.symm.trans h.names)
    subst hrest
    rw [h.eq, ho.eq]
  · have hne' : rest ≠ [] := by
      rintro rfl
      exact hne (h.eq_nil_of_names (hn.trans ho.names))
    have hzero : path.bytes.contains 0 = other.bytes.contains 0 := by
      rw [Bool.eq_iff_iff, List.contains_iff_mem, List.contains_iff_mem, h.zero_mem_iff hne,
        ho.zero_mem_iff hne', hn]
    have hlong : pathLimit < path.bytes.length ↔ pathLimit < other.bytes.length := by
      rw [← Nat.not_le, ← Nat.not_le, hl]
    have hplace : fs.placeOf true path (FileSystem.stepsOf path) =
        fs.placeOf true other (FileSystem.stepsOf other) := by
      simp only [placeOf, hzero, hlong, h.stepsOf hne, ho.stepsOf hne', hn, h.isAbsolute,
        ho.isAbsolute, if_neg h.bytes_ne_nil, if_neg ho.bytes_ne_nil]
    rw [find, find, hplace]

theorem names_toPath_names (h : Spelled path pieces) :
    (Location.toPath path.names).names = path.names := by
  rw [(spelled_names h).names, List.filter_eq_self]
  intro name hname
  rw [h.names] at hname
  exact (List.mem_filter.mp hname).2

/-- A path that is plain or short leads to what the plain spelling of it leads to. -/
theorem Spelled.find_toPath_names (h : Spelled path pieces) (hb : path.Bounded) :
    fs.find path = fs.find (Location.toPath path.names) := by
  have hplain := spelled_names h
  have hbounded : (Location.toPath path.names).Bounded := by
    refine Or.inl (hplain.isPlain_iff.mpr fun hmem => ?_)
    rw [h.names] at hmem
    simpa using (List.mem_filter.mp hmem).2
  have hnames := (names_toPath_names h).symm
  exact h.find_eq hplain hnames (Bounded.length_le_iff h hplain hb hbounded hnames)

/-! ## Names in directories -/

theorem Spelled.join (h : Spelled path pieces) (hname : IsPiece name) :
    Spelled (path.join ⟨name⟩) (pieces ++ [name]) := by
  refine ⟨?_, ?_, ?_, ?_⟩
  · rw [toPath_of_ne_nil (List.append_ne_nil_of_right_ne_nil pieces (List.cons_ne_nil name [])),
      List.flatMap_append, Path.join, isAbsolute_of_isPiece hname, if_neg Bool.false_ne_true]
    by_cases hne : pieces = []
    · subst hne
      have hend : [slash] = [] ∨ [slash].getLast? = some slash := Or.inr rfl
      rw [h.bytes_of_nil, if_pos hend]
      simp
    · rw [if_neg (not_or.mpr ⟨h.bytes_ne_nil, h.getLast?_ne_slash hne⟩), h.bytes hne]
      simp
  · exact List.forall_mem_append.mpr ⟨h.slash_notMem,
      List.forall_mem_singleton.mpr hname.slash_notMem⟩
  · exact List.forall_mem_append.mpr ⟨h.ne_point, List.forall_mem_singleton.mpr hname.ne_point⟩
  · rw [List.getLast?_concat]
    exact fun heq => hname.ne_nil (Option.some.inj heq)

theorem Spelled.names_join (h : Spelled path pieces) (hname : IsPiece name) :
    (path.join ⟨name⟩).names = path.names ++ [name] := by
  have hkept : [name].filter (· ≠ []) = [name] := by simp [hname.ne_nil]
  rw [(h.join hname).names, h.names, List.filter_append, hkept]

/-! ## Upward -/

theorem above_cons (h : rest ≠ []) : above (piece :: rest) =
    if isIdle piece then above rest else ofPieces (dropIdle rest) :: above rest := by
  obtain ⟨first, rest, rfl⟩ := List.exists_cons_of_ne_nil h
  rfl

theorem dropIdle_cons (h : rest ≠ []) : dropIdle (piece :: rest) =
    if isIdle piece then dropIdle rest else piece :: rest := by
  obtain ⟨first, rest, rfl⟩ := List.exists_cons_of_ne_nil h
  rfl

/-- Empty pieces at the end of a path make no difference upward. -/
theorem above_append_idle {empties : List Bytes} (h : ∀ piece ∈ empties, piece = [])
    (hne : rest ≠ []) :
    above (empties ++ rest) = above rest ∧ dropIdle (empties ++ rest) = dropIdle rest := by
  induction empties with
  | nil => exact ⟨rfl, rfl⟩
  | cons piece empties ih =>
      obtain ⟨rfl, hempties⟩ := List.forall_mem_cons.mp h
      have happend := List.append_ne_nil_of_right_ne_nil empties hne
      rw [List.cons_append, above_cons happend, dropIdle_cons happend]
      exact ih hempties

theorem ofPieces_reverse (pieces : List Bytes) :
    ofPieces (pieces.reverse ++ [[]]) = Location.toPath pieces := by
  by_cases hne : pieces = []
  · subst hne
    rfl
  · have hother : pieces.reverse ++ [[]] ≠ [[]] := by
      intro heq
      exact hne (List.reverse_eq_nil_iff.mp (List.self_eq_append_left.mp heq.symm))
    rw [ofPieces, if_neg hother, List.reverse_append, List.reverse_reverse, List.reverse_singleton,
      List.singleton_append, unsplit_nil_cons hne, toPath_of_ne_nil hne]

theorem Spelled.ancestors_eq (h : Spelled path pieces) :
    path.ancestors = path :: above (pieces.reverse ++ [[]]) := by
  by_cases hne : pieces = []
  · subst hne
    rw [Path.ancestors, h.bytes_of_nil]
    rfl
  · rw [Path.ancestors, h.split hne, List.reverse_cons]

theorem Spelled.dropIdle_reverse (h : Spelled path pieces) :
    dropIdle (pieces.reverse ++ [[]]) = pieces.reverse ++ [[]] := by
  rcases List.eq_nil_or_concat pieces with rfl | ⟨front, last, heq⟩
  · rfl
  · rw [List.concat_eq_append] at heq
    subst heq
    rw [List.reverse_append, List.reverse_singleton, List.singleton_append, List.cons_append,
      dropIdle_cons (by simp), h.isIdle_last, if_neg Bool.false_ne_true]

/-- Nothing is above the root. -/
theorem Spelled.ancestors_root (h : Spelled path []) : path.ancestors = [path] :=
  h.ancestors_eq

/-- Pieces without the empty ones at their end. -/
theorem exists_trimmed (pieces : List Bytes) : ∃ kept empties, pieces = kept ++ empties ∧
    (∀ piece ∈ empties, piece = []) ∧ kept.getLast? ≠ some [] := by
  refine ⟨(pieces.reverse.dropWhile (· == [])).reverse, (pieces.reverse.takeWhile (· == [])).reverse,
    ?_, ?_, ?_⟩
  · rw [← List.reverse_append, List.takeWhile_append_dropWhile, List.reverse_reverse]
  · intro piece hpiece
    have hall := List.all_takeWhile (p := (· == ([] : Bytes))) (l := pieces.reverse)
    exact beq_iff_eq.mp (List.all_eq_true.mp hall piece (List.mem_reverse.mp hpiece))
  · rw [List.getLast?_reverse]
    intro hhead
    have hnot := List.head?_dropWhile_not (· == ([] : Bytes)) pieces.reverse
    rw [hhead] at hnot
    cases hnot

/-- Above any other directory is one with the last name left out. -/
theorem Spelled.ancestors (h : Spelled path (front ++ [last])) : ∃ parent kept,
    Spelled parent kept ∧ kept <+: front ∧ path.names = parent.names ++ [last] ∧
      path.ancestors = path :: parent.ancestors := by
  obtain ⟨kept, empties, rfl, hempties, hkept⟩ := exists_trimmed front
  have hne : kept ++ empties ++ [last] ≠ [] := List.append_ne_nil_of_right_ne_nil _ (by simp)
  have hsub : ∀ piece ∈ kept, piece ∈ kept ++ empties ++ [last] := fun piece hpiece =>
    List.mem_append_left _ (List.mem_append_left _ hpiece)
  have hparent : Spelled (Location.toPath kept) kept :=
    ⟨rfl, fun piece hpiece => h.slash_notMem piece (hsub piece hpiece),
      fun piece hpiece => h.ne_point piece (hsub piece hpiece), hkept⟩
  have hlast := h.last_ne_nil
  refine ⟨Location.toPath kept, kept, hparent, List.prefix_append kept empties, ?_, ?_⟩
  · have hnone : empties.filter (· ≠ []) = [] := by
      rw [List.filter_eq_nil_iff]
      intro piece hpiece
      simp [hempties piece hpiece]
    have hone : [last].filter (· ≠ []) = [last] := by simp [hlast]
    rw [h.names, hparent.names, List.filter_append, List.filter_append, hnone, hone,
      List.append_nil]
  · have hroot : kept.reverse ++ [[]] ≠ [] := List.append_ne_nil_of_right_ne_nil _ (by simp)
    have hreverse : ∀ piece ∈ empties.reverse, piece = [] :=
      fun piece hpiece => hempties piece (List.mem_reverse.mp hpiece)
    obtain ⟨habove, hdrop⟩ := above_append_idle hreverse hroot
    rw [h.ancestors_eq, hparent.ancestors_eq, List.reverse_append, List.reverse_append,
      List.reverse_singleton, List.singleton_append, List.cons_append, List.append_assoc,
      above_cons (by simp), h.isIdle_last, if_neg Bool.false_ne_true, habove, hdrop,
      hparent.dropIdle_reverse, ofPieces_reverse]

end Path

end ScriptModules
