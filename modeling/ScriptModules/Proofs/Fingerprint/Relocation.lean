import Mathlib
import ScriptModules.Proofs.Fingerprint.Portable

/-!
# What portable fingerprints do not depend on

The same project may stand in several places, and its sources may name the place: they are
one text with slots, filled with the root of the project (`Template`).  In portable mode such
a text has one fingerprint wherever the project stands, provided that no slot stands in the
path behind another one (`Template.IsSpaced`).  For a root in the path behind a root is
written as it is, as any other part of a path, and not replaced.

The condition cannot be left out.  A text with a slot in a path has messages of different
lengths in places whose names have different lengths.
-/

namespace ScriptModules.Fingerprint

/-! ## Templates -/

/-- A part of a text that names the place of its project. -/
inductive Part where
  /-- A byte that is the same everywhere. -/
  | literal (byte : UInt8)
  /-- The root of the project stands here. -/
  | slot
  deriving DecidableEq

/-- The bytes of a part in a project at `root`. -/
def Part.fill (root : Bytes) : Part → Bytes
  | .literal byte => [byte]
  | .slot => root

/-- A text with slots for the root of its project. -/
abbrev Template := List Part

namespace Template

/-- The template of a text without slots. -/
def ofText (text : String) : Template :=
  (Bytes.ofText text).map .literal

/-- The text in a project at `root`. -/
def fill (root : Bytes) (template : Template) : Bytes :=
  template.flatMap (Part.fill root)

@[simp] theorem fill_nil (root : Bytes) : fill root [] = [] := rfl

@[simp] theorem fill_literal (root : Bytes) (byte : UInt8) (template : Template) :
    fill root (.literal byte :: template) = byte :: fill root template := rfl

@[simp] theorem fill_slot (root : Bytes) (template : Template) :
    fill root (.slot :: template) = root ++ fill root template := rfl

/-- Where the slots of a filled text begin, counted from `start`. -/
def places (root : Bytes) : (start : Nat) → Template → List Nat
  | _, [] => []
  | start, .literal _ :: template => places root (start + 1) template
  | start, .slot :: template => start :: places root (start + root.length) template

/-- Spellings of the root begin where slots begin only. -/
def Keeps (roots : List Bytes) (root : Bytes) (template : Template) : Prop :=
  ∀ place < (template.fill root).length, ∀ spelling ∈ roots,
    spelling <+: (template.fill root).drop place → place ∈ template.places root 0

instance (roots : List Bytes) (root : Bytes) (template : Template) :
    Decidable (Keeps roots root template) :=
  inferInstanceAs (Decidable (∀ place < (template.fill root).length, ∀ spelling ∈ roots,
    spelling <+: (template.fill root).drop place → place ∈ template.places root 0))

end Template

/-- The root of a project: an absolute path that is a text, has two bytes at least, and
ends in no slash of either kind. -/
structure IsProjectRoot (root : Path) : Prop where
  absolute : root.isAbsolute = true
  text : Bytes.ofText root.toString = root.bytes
  long : 2 ≤ root.bytes.length
  bare : ∀ byte ∈ root.bytes.getLast?, byte ≠ 0x2F ∧ byte ≠ 0x5C

/-- A root for the slots of a template: it occurs, in any spelling, in the slots only. -/
structure Template.Suits (template : Template) (root : Path) : Prop extends
    IsProjectRoot root where
  only : template.Keeps (rootSpellings root) root.bytes

/-- Between any two slots stands a byte that ends paths. -/
def Template.IsSpaced (template : Template) : Prop :=
  ∀ front between back, template = front ++ .slot :: (between ++ .slot :: back) →
    ∃ byte, .literal byte ∈ between ∧ isDelimiter byte = true

/-- Whether the fingerprint of a text is the same wherever its project stands. -/
def Template.IsPlaceless (template : Template) : Prop :=
  ∀ root root', template.Suits root → template.Suits root' → ∀ engine options,
    compute (template.fill root.bytes) engine options (some root) =
      compute (template.fill root'.bytes) engine options (some root')

/-! ## Slots in paths -/

namespace Template

/-- How many slots stand in the path behind another one. -/
def nested : (inside : Bool) → Template → Nat
  | _, [] => 0
  | inside, .slot :: template => nested true template + if inside then 1 else 0
  | inside, .literal byte :: template => nested (inside && !isDelimiter byte) template

/-- The normal form of a filled text if no byte of the root ends paths, or if no slot stands
in a path. -/
def shape (root : Bytes) : (inside : Bool) → Template → Bytes
  | _, [] => []
  | inside, .slot :: template =>
    (if inside then root.map toSlash else placeholder) ++ shape root true template
  | inside, .literal byte :: template =>
    if inside && !isDelimiter byte then toSlash byte :: shape root true template
    else byte :: shape root false template

variable {template : Template} {root : Bytes} {inside : Bool}

theorem isSpaced_nil : IsSpaced [] := by
  intro front between back heq
  simp at heq

theorem isSpaced_literal_iff {byte : UInt8} :
    IsSpaced (.literal byte :: template) ↔ IsSpaced template := by
  constructor
  · intro h front between back heq
    exact h (.literal byte :: front) between back (congrArg _ heq)
  · intro h front between back heq
    cases front with
    | nil => cases heq
    | cons first front => exact h front between back (List.cons.inj heq).2

/-- A slot stands apart from the slots of a template. -/
theorem isSpaced_slot_iff : IsSpaced (.slot :: template) ↔ IsSpaced template ∧
    ∀ between back, template = between ++ .slot :: back →
      ∃ byte, .literal byte ∈ between ∧ isDelimiter byte = true := by
  constructor
  · intro h
    refine ⟨fun front between back heq => ?_, fun between back heq => ?_⟩
    · exact h (.slot :: front) between back (congrArg _ heq)
    · exact h [] between back (congrArg _ heq)
  · rintro ⟨hrest, hfirst⟩ front between back heq
    cases front with
    | nil => exact hfirst between back (List.cons.inj heq).2
    | cons first front => exact hrest front between back (List.cons.inj heq).2

theorem not_isSpaced_slot_slot : ¬ IsSpaced (.slot :: .slot :: template) := by
  intro h
  obtain ⟨byte, hmem, -⟩ := h [] [] template rfl
  exact absurd hmem List.not_mem_nil

/-- A byte between two slots keeps them apart if it ends paths. -/
theorem isSpaced_slot_literal_iff {byte : UInt8} : IsSpaced (.slot :: .literal byte :: template) ↔
    if isDelimiter byte then IsSpaced template else IsSpaced (.slot :: template) := by
  rw [isSpaced_slot_iff, isSpaced_literal_iff]
  split
  · rename_i hends
    refine ⟨And.left, fun h => ⟨h, fun between back heq => ?_⟩⟩
    cases between with
    | nil => cases heq
    | cons first between =>
        cases (List.cons.inj heq).1
        exact ⟨byte, List.mem_cons_self, hends⟩
  · rename_i hends
    rw [isSpaced_slot_iff]
    refine and_congr_right fun _ => ⟨fun h between back heq => ?_, fun h between back heq => ?_⟩
    · obtain ⟨found, hmem, hfound⟩ := h (.literal byte :: between) back (congrArg _ heq)
      rcases List.mem_cons.mp hmem with hsame | hmem
      · cases hsame
        exact absurd hfound hends
      · exact ⟨found, hmem, hfound⟩
    · cases between with
      | nil => cases heq
      | cons first between =>
          obtain ⟨found, hmem, hfound⟩ := h between back (List.cons.inj heq).2
          exact ⟨found, List.mem_cons_of_mem _ hmem, hfound⟩

/-- Slots are apart exactly if none stands in a path.  In the path behind a slot that slot
counts, too. -/
theorem nested_eq_zero_iff : nested inside template = 0 ↔
    IsSpaced (if inside then .slot :: template else template) := by
  induction template generalizing inside with
  | nil =>
      refine iff_of_true rfl ?_
      cases inside with
      | false => exact isSpaced_nil
      | true => exact isSpaced_slot_iff.mpr ⟨isSpaced_nil, fun _ _ h => by simp at h⟩
  | cons part template ih =>
      cases part with
      | slot =>
          cases inside with
          | false => exact ih
          | true => exact iff_of_false (by simp [nested]) not_isSpaced_slot_slot
      | literal byte =>
          cases inside with
          | false => exact ih.trans isSpaced_literal_iff.symm
          | true =>
              refine ih.trans (Iff.trans ?_ isSpaced_slot_literal_iff.symm)
              cases isDelimiter byte <;> rfl

/-- The root shows in the slots that stand in paths only. -/
theorem length_shape : (shape root inside template).length =
    (shape [] inside template).length + nested inside template * root.length := by
  induction template generalizing inside with
  | nil => simp [shape, nested]
  | cons part template ih =>
      cases part with
      | slot =>
          simp only [shape, nested, List.length_append, ih, Nat.add_mul]
          cases inside with
          | false => simp only [Bool.false_eq_true, if_false, Nat.zero_mul]; omega
          | true => simp only [if_true, List.length_map, Nat.one_mul]; simp; omega
      | literal byte =>
          simp only [shape, nested]
          cases inside && !isDelimiter byte with
          | false => simp only [Bool.false_eq_true, if_false, List.length_cons, ih]; omega
          | true => simp only [if_true, List.length_cons, ih]; omega

theorem shape_of_nested_eq_zero (h : nested inside template = 0) :
    shape root inside template = shape [] inside template := by
  induction template generalizing inside with
  | nil => rfl
  | cons part template ih =>
      cases part with
      | slot =>
          cases inside with
          | false => exact congrArg _ (ih h)
          | true => simp [nested] at h
      | literal byte =>
          rw [nested] at h
          rw [shape, shape]
          cases hgoes : inside && !isDelimiter byte with
          | false =>
              rw [hgoes] at h
              exact congrArg (byte :: ·) (ih h)
          | true =>
              rw [hgoes] at h
              exact congrArg (toSlash byte :: ·) (ih h)

/-! ## The normal form of a filled text -/

theorem places_add (root : Bytes) (start first : Nat) (template : Template) :
    places root (start + first) template = (places root first template).map (start + ·) := by
  induction template generalizing first with
  | nil => rfl
  | cons part template ih =>
      cases part with
      | literal byte => exact ih (first + 1)
      | slot =>
          rw [places, places, Nat.add_assoc, ih]
          rfl

variable {roots : List Bytes} {byte : UInt8}

/-- No spelling begins at a byte that stands in no slot. -/
theorem Keeps.not_isPrefix (h : Keeps roots root (.literal byte :: template)) {spelling : Bytes}
    (hs : spelling ∈ roots) : ¬ spelling <+: byte :: fill root template := by
  intro hprefix
  have hplace := h 0 (by simp) spelling hs hprefix
  rw [places, Nat.zero_add, ← Nat.add_zero 1, places_add] at hplace
  obtain ⟨place, -, heq⟩ := List.mem_map.mp hplace
  omega

theorem Keeps.of_literal (h : Keeps roots root (.literal byte :: template)) :
    Keeps roots root template := by
  intro place hlt spelling hs hprefix
  have hplace := h (place + 1) (by simpa using hlt) spelling hs hprefix
  rw [places, Nat.zero_add, ← Nat.add_zero 1, places_add] at hplace
  obtain ⟨found, hmem, heq⟩ := List.mem_map.mp hplace
  have hsame : found = place := by omega
  exact hsame ▸ hmem

theorem Keeps.of_slot (hne : root ≠ []) (h : Keeps roots root (.slot :: template)) :
    Keeps roots root template := by
  intro place hlt spelling hs hprefix
  have hpositive := List.length_pos_iff.mpr hne
  have hplace := h (root.length + place) (by simp; omega) spelling hs
    (by rw [fill_slot, List.drop_length_add_append]; exact hprefix)
  rw [places, Nat.zero_add, ← Nat.add_zero root.length, places_add] at hplace
  rcases List.mem_cons.mp hplace with hzero | hplace
  · omega
  · obtain ⟨found, hmem, heq⟩ := List.mem_map.mp hplace
    have hsame : found = place := by omega
    exact hsame ▸ hmem

end Template

/-- What ends no path is written as part of the path it stands in. -/
theorem normalForm_copy (roots : List Bytes) {bytes : Bytes}
    (h : ∀ byte ∈ bytes, isDelimiter byte = false) (rest : Bytes) :
    normalForm roots true (bytes ++ rest) = bytes.map toSlash ++ normalForm roots true rest := by
  induction bytes with
  | nil => rfl
  | cons byte bytes ih =>
      obtain ⟨hbyte, hbytes⟩ := List.forall_mem_cons.mp h
      rw [List.cons_append, normalForm_path hbyte, ih hbytes]
      rfl

/-- In the normal form of a filled text, the root is left only in the slots that stand in
paths. -/
theorem Template.normalForm_fill {roots : List Bytes} {root : Bytes} {template : Template}
    {inside : Bool} (hone : IsOneRoot roots) (hr : root ∈ roots)
    (hkeeps : template.Keeps roots root)
    (h : nested inside template = 0 ∨ ∀ byte ∈ root, isDelimiter byte = false) :
    normalForm roots inside (template.fill root) = template.shape root inside := by
  induction template generalizing inside with
  | nil => rfl
  | cons part template ih =>
      cases part with
      | slot =>
          have hrest : normalForm roots true (fill root template) = shape root true template :=
            ih (hkeeps.of_slot (hone.ne_nil root hr))
              (h.imp_left fun hzero => (Nat.add_eq_zero_iff.mp hzero).1)
          cases inside with
          | false => rw [fill_slot, normalForm_root hone hr rfl, hrest]; rfl
          | true =>
              rcases h with hzero | hplain
              · exact absurd (Nat.add_eq_zero_iff.mp hzero).2 (by decide)
              · rw [fill_slot, normalForm_copy roots hplain, hrest]; rfl
      | literal byte =>
          have hrest : normalForm roots (inside && !isDelimiter byte) (fill root template) =
              shape root (inside && !isDelimiter byte) template := ih hkeeps.of_literal h
          rw [fill_literal, shape]
          cases hgoes : inside && !isDelimiter byte with
          | false =>
              have hout : inPath inside (byte :: fill root template) = false := by
                simpa [inPath] using hgoes
              rw [normalForm_byte hout fun _ hs => hkeeps.not_isPrefix hs, ← hgoes, hrest, hgoes]
              rfl
          | true =>
              obtain ⟨rfl, hbyte⟩ : inside = true ∧ isDelimiter byte = false := by
                simpa using hgoes
              rw [normalForm_path hbyte, ← hgoes, hrest, hgoes]
              rfl

/-! ## Project roots -/

section Root

variable {root : Path}

/-- A root is searched for as it stands. -/
theorem IsProjectRoot.trimRoot_eq (h : IsProjectRoot root) : trimRoot root = root.bytes := by
  unfold trimRoot
  rw [h.text]
  cases hlast : root.bytes.reverse with
  | nil => exact (List.reverse_eq_nil_iff.mp hlast).symm
  | cons last rest =>
      have hbytes := congrArg List.reverse hlast
      rw [List.reverse_reverse, List.reverse_cons] at hbytes
      obtain ⟨hslash, hback⟩ := h.bare last (by simp [hbytes])
      rw [List.dropWhile_cons_of_neg (by simp [hslash, hback]), hbytes, List.reverse_cons]

theorem IsProjectRoot.rootSpellings_eq (h : IsProjectRoot root) :
    rootSpellings root = spellings root.bytes := by
  have hlong := h.long
  rw [rootSpellings, h.trimRoot_eq, if_neg (by omega)]

theorem mem_spellings {root spelling : Bytes} : spelling ∈ spellings root ↔
    spelling = root ∨ spelling = root.map toSlash ∨ spelling = root.map toBackslash := by
  rw [spellings, List.mem_eraseDups, List.mem_mergeSort]
  simp

theorem Template.Suits.normalize_fill {template : Template} (h : template.Suits root)
    (hshape : nested false template = 0 ∨ ∀ byte ∈ root.bytes, isDelimiter byte = false) :
    normalize (template.fill root.bytes) root = template.shape root.bytes false := by
  rw [normalize_eq_normalForm]
  refine normalForm_fill (isOneRoot_rootSpellings root) ?_ h.only hshape
  rw [h.rootSpellings_eq]
  exact mem_spellings.mpr (.inl rfl)

end Root

/-- Spaced texts have one fingerprint in all places. -/
theorem Template.isPlaceless_of_isSpaced {template : Template} (h : template.IsSpaced) :
    template.IsPlaceless := by
  intro root root' hroot hroot' engine options
  have hzero : nested false template = 0 := nested_eq_zero_iff.mpr h
  have hnormal : normalize (template.fill root.bytes) root =
      normalize (template.fill root'.bytes) root' := by
    rw [hroot.normalize_fill (.inl hzero), hroot'.normalize_fill (.inl hzero)]
    exact (shape_of_nested_eq_zero hzero).trans (shape_of_nested_eq_zero hzero).symm
  simp only [compute, message, hnormal, Option.isSome_some]

/-! ## Two places -/

/-- The root `/aa…a` with a name of `n` letters. -/
def longRoot (n : Nat) : Path :=
  ⟨0x2F :: List.replicate n 0x61⟩

theorem isProjectRoot_longRoot {n : Nat} (h : 0 < n) : IsProjectRoot (longRoot n) := by
  refine ⟨rfl, ?_, ?_, ?_⟩
  · have hread : ∀ n, Text.lossyFrom 0 0 0 0 (List.replicate n 0x61) = List.replicate n 'a' := by
      intro n
      induction n with
      | zero => rfl
      | succ n ih => rw [List.replicate_succ, Text.lossyFrom, ih]; rfl
    have hwritten : ∀ n, (List.replicate n 'a').flatMap String.utf8EncodeChar =
        List.replicate n 0x61 := by
      intro n
      induction n with
      | zero => rfl
      | succ n ih => rw [List.replicate_succ, List.flatMap_cons, ih]; rfl
    have hlossy : Text.lossy (longRoot n).bytes =
        '/' :: Text.lossyFrom 0 0 0 0 (List.replicate n 0x61) := rfl
    rw [Path.toString, hlossy, hread, Bytes.ofText_ofList, List.flatMap_cons, hwritten]
    rfl
  · rw [longRoot, List.length_cons, List.length_replicate]
    omega
  · obtain ⟨m, rfl⟩ := Nat.exists_eq_succ_of_ne_zero (Nat.ne_of_gt h)
    intro byte hbyte
    rw [longRoot, List.replicate_succ', ← List.cons_append, List.getLast?_concat] at hbyte
    cases hbyte
    exact ⟨by decide, by decide⟩

/-- As many letters as a name has stand in a filled text only if the text is long. -/
theorem Template.le_length_of_isPrefix {n m : Nat} {template : Template}
    (h : List.replicate m 0x61 <+: template.fill (longRoot n).bytes) : m ≤ template.length := by
  induction template generalizing m with
  | nil => simpa using List.prefix_nil.mp h
  | cons part template ih =>
      cases m with
      | zero => exact Nat.zero_le _
      | succ m =>
          rw [List.replicate_succ] at h
          cases part with
          | slot => exact absurd (List.cons_prefix_cons.mp h).1 (by decide)
          | literal byte => exact Nat.succ_le_succ (ih (List.cons_prefix_cons.mp h).2)

/-- A root with a name longer than a text occurs in the slots of the text only. -/
theorem Template.keeps_longRoot {n : Nat} {template : Template} (h : template.length < n)
    {roots : List Bytes}
    (hroots : ∀ spelling ∈ roots, ∃ slash, slash ≠ 0x61 ∧
      spelling = slash :: List.replicate n 0x61) :
    template.Keeps roots (longRoot n).bytes := by
  intro place hlt spelling hs hprefix
  obtain ⟨slash, hslash, rfl⟩ := hroots spelling hs
  clear hs hlt
  induction template generalizing place with
  | nil => simp at hprefix
  | cons part template ih =>
      rw [List.length_cons] at h
      have hshorter : template.length < n := by omega
      cases part with
      | literal byte =>
          cases place with
          | zero =>
              have hletters := (List.cons_prefix_cons.mp hprefix).2
              have hle := le_length_of_isPrefix hletters
              omega
          | succ place =>
              rw [places, Nat.zero_add, ← Nat.add_zero 1, places_add, Nat.add_comm place]
              exact List.mem_map_of_mem (ih hshorter place hprefix)
      | slot =>
          rw [fill_slot] at hprefix
          rcases Nat.lt_or_ge place (longRoot n).bytes.length with hinside | hbeyond
          · cases place with
            | zero => exact List.mem_cons_self
            | succ place =>
                have hplace : place < n := by simpa [longRoot] using hinside
                obtain ⟨left, hleft⟩ : ∃ left, n - place = left + 1 :=
                  Nat.exists_eq_add_of_le' (by omega)
                rw [longRoot, List.cons_append, List.drop_succ_cons, List.drop_append_of_le_length
                  (by rw [List.length_replicate]; omega), List.drop_replicate, hleft,
                  List.replicate_succ (n := left), List.cons_append] at hprefix
                exact absurd (List.cons_prefix_cons.mp hprefix).1 hslash
          · obtain ⟨beyond, rfl⟩ := Nat.exists_eq_add_of_le hbeyond
            rw [List.drop_length_add_append] at hprefix
            rw [places, Nat.zero_add, ← Nat.add_zero (longRoot n).bytes.length, places_add,
              Nat.add_zero]
            exact List.mem_cons_of_mem _ (List.mem_map_of_mem (ih hshorter beyond hprefix))

theorem Template.suits_longRoot {n : Nat} {template : Template} (h : template.length < n) :
    template.Suits (longRoot n) := by
  have hroot := isProjectRoot_longRoot (Nat.zero_lt_of_lt h)
  refine ⟨hroot, ?_⟩
  rw [hroot.rootSpellings_eq]
  refine keeps_longRoot h fun spelling hs => ?_
  rcases mem_spellings.mp hs with rfl | rfl | rfl
  · exact ⟨0x2F, by decide, rfl⟩
  · exact ⟨0x2F, by decide, by simp [longRoot, toSlash]⟩
  · exact ⟨0x5C, by decide, by simp [longRoot, toBackslash]⟩

/-- A message is as much longer as its source. -/
theorem length_message (source : Bytes) (engine : String) (options : CompileOptions)
    (root : Path) : (message source engine options (some root)).length =
      (normalize source root).length + (message [] engine options none).length := by
  simp [message, field]
  omega

/-- A text with a slot in a path has different messages in two places. -/
theorem Template.messages_ne {template : Template} (h : ¬ template.IsSpaced) :
    ∃ root root', template.Suits root ∧ template.Suits root' ∧ ∀ engine options,
      message (template.fill root.bytes) engine options (some root) ≠
        message (template.fill root'.bytes) engine options (some root') := by
  have hnested : nested false template ≠ 0 := mt nested_eq_zero_iff.mp h
  have hlength : ∀ {n}, template.length < n →
      (normalize (template.fill (longRoot n).bytes) (longRoot n)).length =
        (template.shape [] false).length + nested false template * (n + 1) := by
    intro n hn
    have hplain : ∀ byte ∈ (longRoot n).bytes, isDelimiter byte = false := by
      intro byte hbyte
      rcases List.mem_cons.mp hbyte with rfl | hletter
      · rfl
      · rw [List.eq_of_mem_replicate hletter]
        rfl
    rw [(suits_longRoot hn).normalize_fill (.inr hplain), length_shape, longRoot,
      List.length_cons, List.length_replicate]
  have hshort : template.length < template.length + 1 := by omega
  have hlong : template.length < template.length + 2 := by omega
  refine ⟨_, _, suits_longRoot hshort, suits_longRoot hlong, fun engine options heq => ?_⟩
  have hsame := congrArg List.length heq
  rw [length_message, length_message, hlength hshort, hlength hlong] at hsame
  have hmore : nested false template * (template.length + 2 + 1) =
      nested false template * (template.length + 1 + 1) + nested false template := Nat.mul_succ ..
  rw [hmore] at hsame
  omega

/-- Texts are hashed alike in all places exactly if they are spaced: spaced ones have one
fingerprint, and any other has different messages in two places. -/
theorem Template.placeless_exactly_if_spaced (template : Template) :
    (template.IsSpaced → template.IsPlaceless) ∧
      (¬ template.IsSpaced → ∃ root root', template.Suits root ∧ template.Suits root' ∧
        ∀ engine options, message (template.fill root.bytes) engine options (some root) ≠
          message (template.fill root'.bytes) engine options (some root')) :=
  ⟨isPlaceless_of_isSpaced, messages_ne⟩

/-! ## A project in two places -/

/-- Where one checkout of a project stands. -/
def homeRoot : Path := .ofString "/home/alice/proj"

/-- Where another one stands. -/
def buildRoot : Path := .ofString "/srv/build/proj"

/-- A text with two slots. -/
def twoSlots (first between last : String) : Template :=
  Template.ofText first ++ .slot :: (Template.ofText between ++ .slot :: Template.ofText last)

/-- Unix roots have one other spelling at most. -/
theorem Template.Keeps.of_spellings {template : Template} {root : Bytes}
    (h : template.Keeps [root, root.map toSlash, root.map toBackslash] root) :
    template.Keeps (spellings root) root := by
  intro place hlt spelling hs
  refine h place hlt spelling ?_
  simpa using mem_spellings.mp hs

theorem isProjectRoot_homeRoot : IsProjectRoot homeRoot :=
  ⟨by decide +kernel, by decide +kernel, by decide +kernel, by decide +kernel⟩

theorem isProjectRoot_buildRoot : IsProjectRoot buildRoot :=
  ⟨by decide +kernel, by decide +kernel, by decide +kernel, by decide +kernel⟩

theorem suits_homeRoot {template : Template} (h : template.Keeps
      [homeRoot.bytes, homeRoot.bytes.map toSlash, homeRoot.bytes.map toBackslash]
      homeRoot.bytes) : template.Suits homeRoot :=
  ⟨isProjectRoot_homeRoot, isProjectRoot_homeRoot.rootSpellings_eq ▸ h.of_spellings⟩

theorem suits_buildRoot {template : Template} (h : template.Keeps
      [buildRoot.bytes, buildRoot.bytes.map toSlash, buildRoot.bytes.map toBackslash]
      buildRoot.bytes) : template.Suits buildRoot :=
  ⟨isProjectRoot_buildRoot, isProjectRoot_buildRoot.rootSpellings_eq ▸ h.of_spellings⟩

/-- A space behind the first path keeps the second slot apart. -/
theorem placeless_twoSlots : ∃ template, template = twoSlots "path = " "/bin " "/lib" ∧
    template.IsSpaced ∧ template.Suits homeRoot ∧ template.Suits buildRoot ∧
      compute (template.fill homeRoot.bytes) "1" {} (some homeRoot) =
        compute (template.fill buildRoot.bytes) "1" {} (some buildRoot) := by
  have hspaced : (twoSlots "path = " "/bin " "/lib").IsSpaced :=
    (@Template.nested_eq_zero_iff _ false).mp (by decide +kernel)
  have hhome : (twoSlots "path = " "/bin " "/lib").Suits homeRoot :=
    suits_homeRoot (by decide +kernel)
  have hbuild : (twoSlots "path = " "/bin " "/lib").Suits buildRoot :=
    suits_buildRoot (by decide +kernel)
  exact ⟨_, rfl, hspaced, hhome, hbuild,
    (Template.placeless_exactly_if_spaced _).1 hspaced homeRoot buildRoot hhome hbuild "1" {}⟩

/-- With a colon between the two paths, a search path has different fingerprints in two
places. -/
theorem not_isPlaceless : ¬ ∀ template : Template, template.IsPlaceless := by
  intro h
  have heq := h (twoSlots "path = " "/bin:" "/lib") homeRoot buildRoot
    (suits_homeRoot (by decide +kernel)) (suits_buildRoot (by decide +kernel)) "1" {}
  have hhome : normalize ((twoSlots "path = " "/bin:" "/lib").fill homeRoot.bytes) homeRoot =
      Bytes.ofText "path = <root>/bin:/home/alice/proj/lib" := by
    cbv
  have hbuild : normalize ((twoSlots "path = " "/bin:" "/lib").fill buildRoot.bytes) buildRoot =
      Bytes.ofText "path = <root>/bin:/srv/build/proj/lib" := by
    cbv
  simp only [compute, message, hhome, hbuild] at heq
  revert heq
  decide +kernel

end ScriptModules.Fingerprint
