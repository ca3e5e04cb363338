import ScriptModules.Proofs.Fingerprint.Message

/-!
# What portable fingerprints tell apart

In portable mode a source is hashed with its project's root replaced, and with slashes for
backslashes in the path behind it.  So sources that differ there only share a fingerprint,
and they are meant to: the same program may spell its paths with slashes of either kind.

Everything else counts.  Read in step, two sources with the same normal form have the same
bytes but for slashes and backslashes of roots and of the paths behind them (`Alike`).  The
reason is that the placeholder can be read off the normal form again: it holds one `<` only,
at its front, and no slash and no byte that ends a path.  A source that holds the text of the
placeholder is left out, since there the placeholder does not stand for a root.
-/

namespace ScriptModules.Fingerprint

/-! ## Slashes -/

@[simp] theorem toSlash_toSlash (byte : UInt8) : toSlash (toSlash byte) = toSlash byte := by
  unfold toSlash
  split <;> rfl

@[simp] theorem toSlash_toBackslash (byte : UInt8) : toSlash (toBackslash byte) = toSlash byte := by
  unfold toBackslash
  split
  · rename_i h
    rw [h]
    rfl
  · rfl

/-- Nothing but a slash comes of slashes. -/
theorem eq_of_toSlash_eq {byte other : UInt8} (h : toSlash byte = other) (hne : other ≠ 0x2F) :
    byte = other := by
  unfold toSlash at h
  split at h
  · exact absurd h.symm hne
  · exact h

/-- Slashes end no path. -/
@[simp] theorem isDelimiter_toSlash (byte : UInt8) :
    isDelimiter (toSlash byte) = isDelimiter byte := by
  unfold toSlash
  split
  · rename_i h
    rw [h]
    rfl
  · rfl

/-! ## Spellings of a root -/

/-- The spellings a source is searched for; none where the root is too short. -/
def rootSpellings (root : Path) : List Bytes :=
  if (trimRoot root).length < 2 then [] else spellings (trimRoot root)

/-- Spellings of one root: none is empty, and they differ in the kinds of slashes only. -/
structure IsOneRoot (roots : List Bytes) : Prop where
  ne_nil : ∀ root ∈ roots, root ≠ []
  map_eq : ∀ root ∈ roots, ∀ other ∈ roots, root.map toSlash = other.map toSlash

theorem map_toSlash_of_mem_spellings {root spelling : Bytes} (h : spelling ∈ spellings root) :
    spelling.map toSlash = root.map toSlash := by
  rw [spellings, List.mem_eraseDups, List.mem_mergeSort] at h
  simp only [List.mem_cons, List.not_mem_nil, or_false] at h
  rcases h with rfl | rfl | rfl
  · rfl
  · simp
  · simp

theorem isOneRoot_rootSpellings (root : Path) : IsOneRoot (rootSpellings root) := by
  unfold rootSpellings
  split
  · exact ⟨fun root hr => absurd hr List.not_mem_nil, fun root hr => absurd hr List.not_mem_nil⟩
  · rename_i hlong
    refine ⟨fun spelling h heq => ?_, fun spelling h other h' => ?_⟩
    · have hmap := map_toSlash_of_mem_spellings h
      rw [heq, List.map_nil, eq_comm, List.map_eq_nil_iff] at hmap
      rw [hmap] at hlong
      exact hlong (by decide)
    · rw [map_toSlash_of_mem_spellings h, map_toSlash_of_mem_spellings h']

/-- Where two spellings stand, they are the same one. -/
theorem IsOneRoot.eq_of_isPrefix {roots : List Bytes} (h : IsOneRoot roots) {root other : Bytes}
    (hr : root ∈ roots) (ho : other ∈ roots) {source : Bytes} (hp : root <+: source)
    (hp' : other <+: source) : root = other := by
  have hlength : root.length = other.length := by
    simpa using congrArg List.length (h.map_eq root hr other ho)
  exact (List.prefix_of_prefix_length_le hp hp' (Nat.le_of_eq hlength)).eq_of_length hlength

/-! ## The front of a source -/

/-- Whether the byte in front belongs to the path behind a root. -/
def inPath (inside : Bool) (source : Bytes) : Bool :=
  inside && source.head?.any (!isDelimiter ·)

/-- How a source is read: byte by byte, but for roots outside of the path behind a root. -/
inductive Reads (roots : List Bytes) : (inside : Bool) → Bytes → Prop where
  | nil {inside : Bool} : Reads roots inside []
  | path {byte : UInt8} {source : Bytes} (hb : isDelimiter byte = false)
      (h : Reads roots true source) : Reads roots true (byte :: source)
  | root {inside : Bool} {root source : Bytes} (hr : root ∈ roots)
      (ho : inPath inside (root ++ source) = false) (h : Reads roots true source) :
      Reads roots inside (root ++ source)
  | byte {inside : Bool} {byte : UInt8} {source : Bytes}
      (ho : inPath inside (byte :: source) = false)
      (hn : ∀ root ∈ roots, ¬ root <+: byte :: source) (h : Reads roots false source) :
      Reads roots inside (byte :: source)

/-- Every source can be read. -/
theorem IsOneRoot.reads {roots : List Bytes} (h : IsOneRoot roots) (inside : Bool)
    (source : Bytes) : Reads roots inside source := by
  induction hlength : source.length using Nat.strongRecOn generalizing inside source with
  | _ length ih =>
      cases source with
      | nil => exact .nil
      | cons byte source =>
          subst hlength
          cases ho : inPath inside (byte :: source) with
          | true =>
              obtain ⟨rfl, hb⟩ : inside = true ∧ isDelimiter byte = false := by
                simpa [inPath] using ho
              exact .path hb (ih _ (by simp) true source rfl)
          | false =>
              by_cases hn : ∃ root ∈ roots, root <+: byte :: source
              · obtain ⟨root, hr, rest, heq⟩ := hn
                have hpositive := List.length_pos_iff.mpr (h.ne_nil root hr)
                rw [← heq] at ho ⊢
                refine .root hr ho (ih rest.length ?_ true rest rfl)
                rw [← heq, List.length_append]
                omega
              · exact .byte ho (fun root hr hp => hn ⟨root, hr, hp⟩)
                  (ih _ (by simp) false source rfl)

/-! ## The normal form -/

/-- The normal form of what is left of a source. -/
def normalForm (roots : List Bytes) (inside : Bool) (source : Bytes) : Bytes :=
  replaceRoots roots 0 inside [] source

/-- What has been written stays in front. -/
theorem replaceRoots_done (roots : List Bytes) (skip : Nat) (inside : Bool)
    (done source : Bytes) : replaceRoots roots skip inside done source =
      done.reverse ++ replaceRoots roots skip inside [] source := by
  induction source generalizing skip inside done with
  | nil => simp [replaceRoots]
  | cons byte source ih =>
      cases skip with
      | succ skip =>
          rw [replaceRoots, replaceRoots]
          exact ih skip inside done
      | zero =>
          rw [replaceRoots, replaceRoots]
          split
          · rw [ih 0 true (toSlash byte :: done), ih 0 true [toSlash byte]]
            simp
          · split
            · rename_i root _
              rw [ih _ true (placeholder.reverse ++ done), ih _ true (placeholder.reverse ++ [])]
              simp
            · rw [ih 0 false (byte :: done), ih 0 false [byte]]
              simp

/-- A root that has been replaced is passed over. -/
theorem replaceRoots_skip (roots : List Bytes) (inside : Bool) (passed source : Bytes) :
    replaceRoots roots passed.length inside [] (passed ++ source) =
      normalForm roots inside source := by
  induction passed with
  | nil => rfl
  | cons byte passed ih =>
      rw [List.length_cons, List.cons_append, replaceRoots]
      exact ih

section NormalForm

variable {roots : List Bytes} {inside : Bool} {source other : Bytes} {byte : UInt8}

theorem normalForm_path (hb : isDelimiter byte = false) :
    normalForm roots true (byte :: source) = toSlash byte :: normalForm roots true source := by
  simp only [normalForm, replaceRoots, hb, Bool.not_false, Bool.and_self, if_true]
  rw [replaceRoots_done]
  rfl

theorem normalForm_root (h : IsOneRoot roots) {root : Bytes} (hr : root ∈ roots)
    (ho : inPath inside (root ++ source) = false) :
    normalForm roots inside (root ++ source) = placeholder ++ normalForm roots true source := by
  cases root with
  | nil => exact absurd rfl (h.ne_nil [] hr)
  | cons byte root =>
      have hout : (inside && !isDelimiter byte) = false := by simpa [inPath] using ho
      have hfind : roots.find? (fun other => other.isPrefixOf (byte :: (root ++ source))) =
          some (byte :: root) := by
        cases hfound : roots.find? (fun other => other.isPrefixOf (byte :: (root ++ source))) with
        | none =>
            have hnone := List.find?_eq_none.mp hfound (byte :: root) hr
            exact absurd (List.isPrefixOf_iff_prefix.mpr (List.prefix_append _ source)) hnone
        | some found =>
            have hprefix : found.isPrefixOf (byte :: (root ++ source)) = true :=
              List.find?_some (p := fun other : Bytes => other.isPrefixOf (byte :: (root ++ source)))
                hfound
            have hp : found <+: byte :: (root ++ source) := List.isPrefixOf_iff_prefix.mp hprefix
            rw [h.eq_of_isPrefix (List.mem_of_find?_eq_some hfound) hr hp
              (List.prefix_append (byte :: root) source)]
      rw [normalForm, List.cons_append, replaceRoots, hout, hfind]
      simp only [Bool.false_eq_true, if_false, List.append_nil, List.length_cons,
        Nat.add_sub_cancel]
      rw [replaceRoots_done, List.reverse_reverse, replaceRoots_skip]

theorem normalForm_byte (ho : inPath inside (byte :: source) = false)
    (hn : ∀ root ∈ roots, ¬ root <+: byte :: source) :
    normalForm roots inside (byte :: source) = byte :: normalForm roots false source := by
  have hout : (inside && !isDelimiter byte) = false := by simpa [inPath] using ho
  have hfind : roots.find? (fun root => root.isPrefixOf (byte :: source)) = none := by
    rw [List.find?_eq_none]
    intro root hr hp
    exact hn root hr (List.isPrefixOf_iff_prefix.mp hp)
  rw [normalForm, replaceRoots, hout, hfind]
  simp only [Bool.false_eq_true, if_false]
  rw [replaceRoots_done]
  rfl

theorem normalForm_no_roots : normalForm [] false source = source := by
  induction source with
  | nil => rfl
  | cons byte source ih =>
      rw [normalForm_byte rfl (fun root hr => absurd hr List.not_mem_nil), ih]

/-- The source without the place of its project is its normal form. -/
theorem normalize_eq_normalForm (source : Bytes) (root : Path) :
    normalize source root = normalForm (rootSpellings root) false source := by
  by_cases hshort : (trimRoot root).length < 2
  · simp only [normalize, rootSpellings, if_pos hshort, normalForm_no_roots]
  · simp only [normalize, rootSpellings, if_neg hshort]
    rfl

end NormalForm

/-! ## Sources that read alike -/

/-- Two sources, read in step from a place where both are or are not in the path behind a
root: the same bytes, but for the kinds of slashes in roots and in the paths behind them. -/
inductive AlikeFrom (roots : List Bytes) : (inside : Bool) → Bytes → Bytes → Prop where
  | nil {inside : Bool} : AlikeFrom roots inside [] []
  | path {byte byte' : UInt8} {source other : Bytes} (hb : isDelimiter byte = false)
      (he : toSlash byte = toSlash byte') (h : AlikeFrom roots true source other) :
      AlikeFrom roots true (byte :: source) (byte' :: other)
  | root {inside : Bool} {root root' source other : Bytes} (hr : root ∈ roots)
      (hr' : root' ∈ roots) (ho : inPath inside (root ++ source) = false)
      (ho' : inPath inside (root' ++ other) = false) (h : AlikeFrom roots true source other) :
      AlikeFrom roots inside (root ++ source) (root' ++ other)
  | byte {inside : Bool} {byte : UInt8} {source other : Bytes}
      (ho : inPath inside (byte :: source) = false)
      (hn : ∀ root ∈ roots, ¬ root <+: byte :: source)
      (hn' : ∀ root ∈ roots, ¬ root <+: byte :: other)
      (h : AlikeFrom roots false source other) :
      AlikeFrom roots inside (byte :: source) (byte :: other)

/-- Two sources read alike in a project at `root`. -/
def Alike (root : Path) (source other : Bytes) : Prop :=
  AlikeFrom (rootSpellings root) false source other

section Alike

variable {roots : List Bytes} {inside : Bool} {source other : Bytes}

/-- What reads alike differs in the kinds of slashes only. -/
theorem AlikeFrom.map_toSlash_eq (hone : IsOneRoot roots)
    (h : AlikeFrom roots inside source other) : source.map toSlash = other.map toSlash := by
  induction h with
  | nil => rfl
  | path _ he _ ih => rw [List.map_cons, List.map_cons, he, ih]
  | root hr hr' _ _ _ ih =>
      rw [List.map_append, List.map_append, ih, hone.map_eq _ hr _ hr']
  | byte _ _ _ _ ih => rw [List.map_cons, List.map_cons, ih]

/-- Where no root occurs, nothing but the same source reads alike. -/
theorem AlikeFrom.eq_of_not_isInfix (h : AlikeFrom roots false source other)
    (hn : ∀ root ∈ roots, ¬ root <:+: source) : source = other := by
  generalize hi : false = inside at h
  induction h with
  | nil => rfl
  | path => cases hi
  | root hr _ _ _ _ _ => exact absurd (List.prefix_append _ _).isInfix (hn _ hr)
  | byte _ _ _ _ ih =>
      rw [ih (fun root hr hoccurs => hn root hr (List.infix_cons hoccurs)) rfl]

/-- Sources that read alike have one normal form. -/
theorem AlikeFrom.normalForm_eq (hone : IsOneRoot roots)
    (h : AlikeFrom roots inside source other) :
    normalForm roots inside source = normalForm roots inside other := by
  induction h with
  | nil => rfl
  | path hb he _ ih =>
      have hb' := isDelimiter_toSlash _ ▸ congrArg isDelimiter he
      rw [isDelimiter_toSlash, hb, eq_comm] at hb'
      rw [normalForm_path hb, normalForm_path hb', he, ih]
  | root hr hr' ho ho' _ ih => rw [normalForm_root hone hr ho, normalForm_root hone hr' ho', ih]
  | @byte inside byte source other ho hn hn' _ ih =>
      have ho' : inPath inside (byte :: other) = false := ho
      rw [normalForm_byte ho hn, normalForm_byte ho' hn', ih]

/-! ## Reading the placeholder -/

/-- Bytes without `<` and slash stand in a normal form only where they stand in the source. -/
theorem isPrefix_of_normalForm_eq (hone : IsOneRoot roots) {bytes rest : Bytes}
    (hb : ∀ byte ∈ bytes, byte ≠ 0x3C ∧ byte ≠ 0x2F)
    (h : normalForm roots inside source = bytes ++ rest) : bytes <+: source := by
  induction bytes generalizing inside source with
  | nil => exact List.nil_prefix
  | cons byte bytes ih =>
      obtain ⟨⟨hangle, hslash⟩, htail⟩ := List.forall_mem_cons.mp hb
      cases hone.reads inside source with
      | nil => cases h
      | path hbyte =>
          rw [normalForm_path hbyte, List.cons_append] at h
          obtain ⟨hhead, h⟩ := List.cons.inj h
          rw [eq_of_toSlash_eq hhead hslash]
          exact List.cons_prefix_cons.mpr ⟨rfl, ih htail h⟩
      | root hr ho =>
          rw [normalForm_root hone hr ho] at h
          exact absurd (List.cons.inj h).1.symm hangle
      | byte ho hn =>
          rw [normalForm_byte ho hn, List.cons_append] at h
          obtain ⟨hhead, h⟩ := List.cons.inj h
          exact List.cons_prefix_cons.mpr ⟨hhead.symm, ih htail h⟩

/-- A source without the text of the placeholder. -/
def IsUnmarked (source : Bytes) : Prop :=
  ¬ placeholder <:+: source

theorem IsUnmarked.of_append {front : Bytes} (h : IsUnmarked (front ++ source)) :
    IsUnmarked source :=
  fun hoccurs => h (hoccurs.trans (List.suffix_append front source).isInfix)

theorem IsUnmarked.tail {byte : UInt8} (h : IsUnmarked (byte :: source)) : IsUnmarked source :=
  @IsUnmarked.of_append source [byte] h

/-- Behind its first byte the placeholder holds neither `<` nor a slash. -/
theorem of_mem_tail_placeholder {byte : UInt8} (h : byte ∈ placeholder.tail) :
    byte ≠ 0x3C ∧ byte ≠ 0x2F := by
  have htail : placeholder.tail = [0x72, 0x6F, 0x6F, 0x74, 0x3E] := by decide +kernel
  rw [htail] at h
  simp only [List.mem_cons, List.not_mem_nil, or_false] at h
  rcases h with rfl | rfl | rfl | rfl | rfl <;> exact ⟨by decide, by decide⟩

/-- In a source without its text, the placeholder comes of a root only: not of a byte that
is written as it is, or as a slash. -/
theorem IsUnmarked.cons_normalForm_ne (hone : IsOneRoot roots) {byte written : UInt8}
    {rest : Bytes} (hu : IsUnmarked (byte :: source)) (hw : written = 0x3C → byte = 0x3C) :
    written :: normalForm roots inside source ≠ placeholder ++ rest := by
  intro h
  obtain ⟨hhead, htail⟩ := List.cons.inj h
  have hprefix : placeholder.tail <+: source :=
    isPrefix_of_normalForm_eq hone (fun _ => of_mem_tail_placeholder) htail
  exact hu (List.cons_prefix_cons.mpr ⟨(hw hhead).symm, hprefix⟩).isInfix

/-- What reads alike is all that has one normal form. -/
theorem alikeFrom_of_normalForm_eq (hone : IsOneRoot roots) (hs : IsUnmarked source)
    (ho : IsUnmarked other)
    (h : normalForm roots inside source = normalForm roots inside other) :
    AlikeFrom roots inside source other := by
  -- Both sources are read in step; at each place the normal form tells which rule applies.
  induction hone.reads inside source generalizing other with
  | @nil inside =>
      cases hone.reads inside other with
      | nil => exact .nil
      | path hb' =>
          rw [normalForm_path hb'] at h
          cases h
      | root hr' ho' =>
          rw [normalForm_root hone hr' ho'] at h
          cases h
      | byte ho' hn' =>
          rw [normalForm_byte ho' hn'] at h
          cases h
  | @path byte source hb _ ih =>
      rw [normalForm_path hb] at h
      cases hone.reads true other with
      | nil => cases h
      | path hb' =>
          rw [normalForm_path hb'] at h
          obtain ⟨he, h⟩ := List.cons.inj h
          exact .path hb he (ih hs.tail ho.tail h)
      | root hr' ho' =>
          rw [normalForm_root hone hr' ho'] at h
          exact absurd h (hs.cons_normalForm_ne hone fun he => eq_of_toSlash_eq he (by decide))
      | byte ho' hn' =>
          rw [normalForm_byte ho' hn'] at h
          have hdelimiter := congrArg isDelimiter (List.cons.inj h).1
          rw [isDelimiter_toSlash, hb] at hdelimiter
          simp [inPath, ← hdelimiter] at ho'
  | @root inside root source hr houtside _ ih =>
      rw [normalForm_root hone hr houtside] at h
      cases hone.reads inside other with
      | nil => cases h
      | path hb' =>
          rw [normalForm_path hb'] at h
          exact absurd h.symm (ho.cons_normalForm_ne hone fun he => eq_of_toSlash_eq he (by decide))
      | root hr' ho' =>
          rw [normalForm_root hone hr' ho'] at h
          exact .root hr hr' houtside ho'
            (ih hs.of_append ho.of_append (List.append_cancel_left h))
      | byte ho' hn' =>
          rw [normalForm_byte ho' hn'] at h
          exact absurd h.symm (ho.cons_normalForm_ne hone id)
  | @byte inside byte source houtside hn _ ih =>
      rw [normalForm_byte houtside hn] at h
      cases hone.reads inside other with
      | nil => cases h
      | path hb' =>
          rw [normalForm_path hb'] at h
          have hdelimiter := congrArg isDelimiter (List.cons.inj h).1
          rw [isDelimiter_toSlash, hb'] at hdelimiter
          simp [inPath, hdelimiter] at houtside
      | root hr' ho' =>
          rw [normalForm_root hone hr' ho'] at h
          exact absurd h (hs.cons_normalForm_ne hone id)
      | byte ho' hn' =>
          rw [normalForm_byte ho' hn'] at h
          obtain ⟨rfl, htail⟩ := List.cons.inj h
          exact .byte houtside hn hn' (ih hs.tail ho.tail htail)

end Alike

/-- Sources without the text of the placeholder have one normal form exactly if they read
alike. -/
theorem normalize_eq_iff {source other : Bytes} {root : Path} (hs : IsUnmarked source)
    (ho : IsUnmarked other) :
    normalize source root = normalize other root ↔ Alike root source other := by
  have hone := isOneRoot_rootSpellings root
  rw [normalize_eq_normalForm, normalize_eq_normalForm]
  exact ⟨alikeFrom_of_normalForm_eq hone hs ho, AlikeFrom.normalForm_eq hone⟩

/-- Requests with one message are for sources that read alike, the same engine and the same
options. -/
theorem message_eq_iff {source other : Bytes} {engine engine' : String}
    {options options' : CompileOptions} {root : Path} (hs : IsUnmarked source)
    (ho : IsUnmarked other) (hc : Countable source engine (some root))
    (hc' : Countable other engine' (some root)) :
    message source engine options (some root) = message other engine' options' (some root) ↔
      Alike root source other ∧ engine = engine' ∧ options = options' := by
  constructor
  · intro h
    obtain ⟨hsource, hengine, hoptions, -⟩ := message_inj hc hc' h
    exact ⟨(normalize_eq_iff hs ho).mp hsource, hengine, hoptions⟩
  · rintro ⟨halike, rfl, rfl⟩
    simp only [message, (normalize_eq_iff hs ho).mpr halike]

end ScriptModules.Fingerprint
