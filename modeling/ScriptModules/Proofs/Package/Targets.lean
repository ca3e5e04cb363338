import ScriptModules.Package.Manifest
import ScriptModules.Proofs.Association

/-!
# What an exports field answers

A lookup in an `exports` field goes down from the target of the subpath: in an array it tries
the items, in a map the targets of the keys that are conditions, then that of `default`.  It
answers with the first text it comes to.  So there is an answer just if there is a text that can
be come to at all (`target?_isSome_iff`), and under more conditions there still is one
(`Manifest.answersUnder`).

A null has no answer, and the lookup goes on with what it has not tried yet.  So a map whose
first key is mapped to null is no end: there is none just if nothing is left to come to, in this
map or in one on the way to it (`Manifest.export?_eq_none_iff_of_null`).
-/

namespace ScriptModules.Package

variable {conditions fewer more : List String} {path subpath : String}

/-! ## The order of a lookup -/

/-- What a map offers under conditions, in the order in which it is tried. -/
def choices (conditions : List String) (members : List (String × Json)) : List Json :=
  (conditions ++ ["default"]).filterMap fun condition => members.lookup condition

theorem mem_choices_iff {members : List (String × Json)} {target : Json} :
    target ∈ choices conditions members ↔
      ∃ key ∈ conditions ++ ["default"], members.lookup key = some target :=
  List.mem_filterMap

theorem targetOfItems?_eq (conditions : List String) (items : List Json) :
    targetOfItems? conditions items = items.findSome? (target? conditions) := by
  induction items with
  | nil => rfl
  | cons item items ih =>
      rw [targetOfItems?, List.findSome?_cons, ih]
      cases target? conditions item <;> rfl

theorem lookup_targetsOfMembers (conditions : List String) (members : List (String × Json))
    (key : String) :
    (targetsOfMembers conditions members).lookup key =
      (members.lookup key).map (target? conditions) := by
  induction members with
  | nil => rfl
  | cons member members ih =>
      obtain ⟨other, target⟩ := member
      rw [targetsOfMembers, List.lookup_cons, List.lookup_cons, ih]
      cases key == other <;> rfl

theorem target?_array (conditions : List String) (items : List Json) :
    target? conditions (.array items) = items.findSome? (target? conditions) := by
  rw [target?, targetOfItems?_eq]

/-- A map answers with the first of its choices that has an answer. -/
theorem target?_object (conditions : List String) (members : List (String × Json)) :
    target? conditions (.object members) =
      (choices conditions members).findSome? (target? conditions) := by
  rw [target?, choices]
  simp only [lookup_targetsOfMembers]
  generalize conditions ++ ["default"] = keys
  induction keys with
  | nil => rfl
  | cons key keys ih =>
      rw [List.findSome?_cons, List.filterMap_cons, ih]
      cases members.lookup key <;> rfl

/-- The target of a subpath: a map of subpaths may have one for each, and any other field has
one for the package itself. -/
def subpathTarget? (exports : Json) (subpath : String) : Option Json :=
  match exports with
  | .object members =>
    if mapsSubpaths members then members.lookup subpath
    else if subpath = "." then some exports else none
  | _ => if subpath = "." then some exports else none

theorem exportTarget?_eq (exports : Json) (subpath : String) (conditions : List String) :
    exportTarget? exports subpath conditions =
      (subpathTarget? exports subpath).bind (target? conditions) := by
  by_cases hroot : subpath = "."
  · cases exports with
    | object members =>
        rw [exportTarget?, subpathTarget?]
        split
        · rfl
        · rw [Option.bind_some]
    | _ => simp [exportTarget?, subpathTarget?, hroot, target?]
  · cases exports with
    | object members =>
        rw [exportTarget?, subpathTarget?]
        split
        · rfl
        · rfl
    | _ => simp [exportTarget?, subpathTarget?, hroot]

/-! ## What can be come to -/

/-- A text that stands in a target, under items of arrays and under keys that are conditions or
`default`. -/
inductive IsLeaf (conditions : List String) (path : String) : Json → Prop where
  | here : IsLeaf conditions path (.string path)
  | item {items : List Json} {item : Json} (hm : item ∈ items) (h : IsLeaf conditions path item) :
      IsLeaf conditions path (.array items)
  | member {members : List (String × Json)} {key : String} {target : Json}
      (hk : key ∈ conditions ++ ["default"]) (hl : members.lookup key = some target)
      (h : IsLeaf conditions path target) : IsLeaf conditions path (.object members)

/-- More conditions only lead to more. -/
theorem IsLeaf.mono {target : Json} (h : IsLeaf fewer path target) (hsub : fewer ⊆ more) :
    IsLeaf more path target := by
  induction h with
  | here => exact .here
  | item hm _ ih => exact .item hm ih
  | member hk hl _ ih =>
      refine .member ?_ hl ih
      exact (List.mem_append.mp hk).elim (fun h => List.mem_append_left _ (hsub h))
        (List.mem_append_right _)

/-- An answer is a text that stands there. -/
theorem isLeaf_of_target? : ∀ {target : Json}, target? conditions target = some path →
    IsLeaf conditions path target
  | .string text, h => by
      rw [target?] at h
      cases h
      exact .here
  | .array items, h => by
      rw [target?_array] at h
      obtain ⟨item, hitem, hanswer⟩ := List.exists_of_findSome?_eq_some h
      exact .item hitem (isLeaf_of_target? hanswer)
  | .object members, h => by
      rw [target?_object] at h
      obtain ⟨choice, hchoice, hanswer⟩ := List.exists_of_findSome?_eq_some h
      obtain ⟨key, hkey, hlookup⟩ := mem_choices_iff.mp hchoice
      have hmember := Association.mem_of_lookup hlookup
      exact .member hkey hlookup (isLeaf_of_target? hanswer)
  | .null, h => nomatch h
  | .bool _, h => nomatch h
  | .integer _, h => nomatch h
  | .float _, h => nomatch h
termination_by target => sizeOf target
decreasing_by
  · have hless := List.sizeOf_lt_of_mem hitem
    simp only [Json.array.sizeOf_spec]
    omega
  · have hless := List.sizeOf_lt_of_mem hmember
    simp only [Json.object.sizeOf_spec, Prod.mk.sizeOf_spec] at hless ⊢
    omega

/-- Where a text can be come to, there is an answer. -/
theorem IsLeaf.isSome {target : Json} (h : IsLeaf conditions path target) :
    (target? conditions target).isSome = true := by
  induction h with
  | here => rfl
  | item hm _ ih =>
      rw [target?_array]
      exact List.findSome?_isSome_iff.mpr ⟨_, hm, ih⟩
  | member hk hl _ ih =>
      rw [target?_object]
      exact List.findSome?_isSome_iff.mpr ⟨_, mem_choices_iff.mpr ⟨_, hk, hl⟩, ih⟩

theorem target?_isSome_iff (conditions : List String) (target : Json) :
    (target? conditions target).isSome = true ↔ ∃ path, IsLeaf conditions path target := by
  constructor
  · intro h
    obtain ⟨path, hpath⟩ := Option.isSome_iff_exists.mp h
    exact ⟨path, isLeaf_of_target? hpath⟩
  · rintro ⟨path, hleaf⟩
    exact hleaf.isSome

theorem target?_eq_none_iff (conditions : List String) (target : Json) :
    target? conditions target = none ↔ ∀ path, ¬ IsLeaf conditions path target := by
  rw [← Option.not_isSome_iff_eq_none, target?_isSome_iff, not_exists]

namespace Manifest

variable {manifest : Manifest}

/-- A text of the `exports` field that can be come to from a subpath. -/
def Offers (manifest : Manifest) (subpath : String) (conditions : List String) (path : String) :
    Prop :=
  ∃ exports target, manifest.exports = some exports ∧
    subpathTarget? exports subpath = some target ∧ IsLeaf conditions path target

theorem export?_eq (manifest : Manifest) (subpath : String) (conditions : List String) :
    manifest.export? subpath conditions =
      (manifest.exports.bind (subpathTarget? · subpath)).bind (target? conditions) := by
  unfold export?
  cases manifest.exports with
  | none => rfl
  | some exports => exact exportTarget?_eq exports subpath conditions

theorem offers_of_export? (h : manifest.export? subpath conditions = some path) :
    manifest.Offers subpath conditions path := by
  rw [export?_eq] at h
  obtain ⟨target, htarget, hanswer⟩ := Option.bind_eq_some_iff.mp h
  obtain ⟨exports, hexports, hsubpath⟩ := Option.bind_eq_some_iff.mp htarget
  exact ⟨exports, target, hexports, hsubpath, isLeaf_of_target? hanswer⟩

theorem Offers.isSome (h : manifest.Offers subpath conditions path) :
    (manifest.export? subpath conditions).isSome = true := by
  obtain ⟨exports, target, hexports, hsubpath, hleaf⟩ := h
  rw [export?_eq, hexports, Option.bind_some, hsubpath]
  exact hleaf.isSome

/-! ## More conditions -/

/-- What more conditions do to the answers of a manifest. -/
structure AnswersUnder (manifest : Manifest) (subpath : String) (fewer more : List String) :
    Prop where
  /-- A subpath that has a target still has one. -/
  exported : (manifest.export? subpath fewer).isSome = true →
    (manifest.export? subpath more).isSome = true
  /-- A package that has an entry point still has one. -/
  entered : (manifest.entryPoint? fewer).isSome = true →
    (manifest.entryPoint? more).isSome = true
  /-- A target is a text of the `exports` field. -/
  offers : ∀ path, manifest.export? subpath more = some path → manifest.Offers subpath more path
  /-- So is an entry point, or it is what one of the two other fields says. -/
  entry : ∀ path, manifest.entryPoint? more = some path → manifest.Offers "." more path ∨
    ("import" ∈ more ∧ manifest.module = some path) ∨ manifest.main = some path

theorem export?_isSome_mono (hsub : fewer ⊆ more)
    (h : (manifest.export? subpath fewer).isSome = true) :
    (manifest.export? subpath more).isSome = true := by
  obtain ⟨path, hpath⟩ := Option.isSome_iff_exists.mp h
  obtain ⟨exports, target, hexports, hsubpath, hleaf⟩ := offers_of_export? hpath
  exact Offers.isSome ⟨exports, target, hexports, hsubpath, hleaf.mono hsub⟩

/-- There is an entry point if one of three places has one. -/
theorem entryPoint?_isSome_iff (manifest : Manifest) (conditions : List String) :
    (manifest.entryPoint? conditions).isSome = true ↔
      (manifest.export? "." conditions).isSome = true ∨
        ("import" ∈ conditions ∧ manifest.module.isSome = true) ∨ manifest.main.isSome = true := by
  unfold entryPoint?
  cases manifest.export? "." conditions with
  | some target => simp
  | none =>
      simp only [List.contains_iff_mem, Option.isSome_none, Bool.false_eq_true, false_or]
      split
      · rename_i himport
        exact iff_of_true himport.2 (Or.inl himport)
      · rename_i himport
        exact (or_iff_right himport).symm

theorem entry_of_entryPoint? (h : manifest.entryPoint? conditions = some path) :
    manifest.Offers "." conditions path ∨
      ("import" ∈ conditions ∧ manifest.module = some path) ∨ manifest.main = some path := by
  unfold entryPoint? at h
  split at h
  · rename_i heq
    cases h
    exact Or.inl (offers_of_export? heq)
  · split at h
    · rename_i himport
      exact Or.inr (Or.inl ⟨List.contains_iff_mem.mp himport.1, h⟩)
    · exact Or.inr (Or.inr h)

/-- Further conditions, in whatever order, take no answer away. -/
theorem answersUnder (manifest : Manifest) (subpath : String) (hsub : fewer ⊆ more) :
    manifest.AnswersUnder subpath fewer more := by
  constructor
  case exported => exact export?_isSome_mono hsub
  case entered =>
    rw [entryPoint?_isSome_iff, entryPoint?_isSome_iff]
    rintro (hexported | ⟨himport, hmodule⟩ | hmain)
    · exact Or.inl (export?_isSome_mono hsub hexported)
    · exact Or.inr (Or.inl ⟨hsub himport, hmodule⟩)
    · exact Or.inr (Or.inr hmain)
  case offers => exact fun path => offers_of_export?
  case entry => exact fun path => entry_of_entryPoint?

/-- A package whose `node` entry has nothing for `require`. -/
def branching : Manifest where
  exports := some (.object [
    ("default", .null),
    ("node", .object [("import", .string "./node.mjs")]),
    ("require", .array [.null, .object [("default", .string "./main.cjs")]])])

/-- The further condition is tried first and comes to nothing, and yet there is an answer. -/
theorem answersUnder_branching :
    ["require"] ⊆ ["node", "require", "node"] ∧
      branching.export? "." ["require"] = some "./main.cjs" ∧
        branching.AnswersUnder "." ["require"] ["node", "require", "node"] :=
  ⟨by decide, by decide +kernel, branching.answersUnder "." (by decide)⟩

end Manifest

/-! ## Nulls -/

/-- A lookup that starts at a target comes by maps alone to an inner one: what it has tried
before has no answer.  What it has left to try in the maps on the way is given, in its order. -/
inductive Reaches (conditions : List String) (inner : Json) : Json → List Json → Prop where
  | here : Reaches conditions inner inner []
  | through {members : List (String × Json)} {before after left : List Json} {target : Json}
      (hc : choices conditions members = before ++ target :: after)
      (hb : ∀ choice ∈ before, target? conditions choice = none)
      (h : Reaches conditions inner target left) :
      Reaches conditions inner (.object members) (left ++ after)

/-- From there on it tries the inner target and then what is left. -/
theorem Reaches.target?_eq {inner target : Json} {left : List Json}
    (h : Reaches conditions inner target left) :
    target? conditions target = (inner :: left).findSome? (target? conditions) := by
  induction h with
  | here => rw [List.findSome?_singleton]
  | @through members before after left target hc hb _ ih =>
      have hnone : before.findSome? (target? conditions) = none := List.findSome?_eq_none_iff.mpr hb
      rw [target?_object, hc, List.findSome?_append, hnone, Option.none_or,
        ← List.singleton_append, List.findSome?_append, List.findSome?_singleton, ih,
        ← List.cons_append, List.findSome?_append]

namespace Manifest

variable {manifest : Manifest} {exports target : Json} {members : List (String × Json)}
  {left : List Json}

/-- Where the first key that counts is mapped to null, the lookup goes on.  So there is no answer
just if nothing can be come to in what is left, behind the null in this map and in those on the
way. -/
theorem export?_eq_none_iff_of_null (he : manifest.exports = some exports)
    (hs : subpathTarget? exports subpath = some target)
    (hr : Reaches conditions (.object members) target left)
    (hn : (choices conditions members).head? = some .null) :
    manifest.export? subpath conditions = none ↔
      ∀ other ∈ (choices conditions members).tail ++ left, ∀ path,
        ¬ IsLeaf conditions path other := by
  obtain ⟨behind, hbehind⟩ := List.head?_eq_some_iff.mp hn
  have hanswer : manifest.export? subpath conditions =
      (behind ++ left).findSome? (target? conditions) := by
    rw [export?_eq, he, Option.bind_some, hs, Option.bind_some, hr.target?_eq,
      ← List.singleton_append, List.findSome?_append, List.findSome?_singleton, target?_object,
      hbehind, List.findSome?_append]
    rfl
  rw [hanswer, hbehind, List.tail_cons, List.findSome?_eq_none_iff]
  exact forall₂_congr fun other _ => target?_eq_none_iff conditions other

/-- A package with nothing for `require` in its entry for `node`. -/
def nesting : Manifest where
  exports := some (.object [
    (".", .object [("default", .string "./main.js"), ("node", .object [("require", .null)])])])

/-- The lookup comes to the null, and then answers with what is left. -/
theorem export?_nesting :
    Reaches ["node", "require"] (.object [("require", .null)])
        (.object [("default", .string "./main.js"), ("node", .object [("require", .null)])])
        [.string "./main.js"] ∧
      nesting.export? "." ["node", "require"] = some "./main.js" ∧
        (nesting.export? "." ["node", "require"] = none ↔ ∀ other ∈ [Json.string "./main.js"],
          ∀ path, ¬ IsLeaf ["node", "require"] path other) := by
  have hreaches : Reaches ["node", "require"] (.object [("require", .null)])
      (.object [("default", .string "./main.js"), ("node", .object [("require", .null)])])
      [.string "./main.js"] := by
    have hfirst : choices ["node", "require"]
        [("default", .string "./main.js"), ("node", .object [("require", .null)])] =
          [] ++ .object [("require", .null)] :: [.string "./main.js"] := rfl
    exact .through hfirst (fun _ h => nomatch h) .here
  have hchosen : (choices ["node", "require"] [("require", Json.null)]).head? = some .null := rfl
  have hmaps : mapsSubpaths [(".", .object [("default", .string "./main.js"),
      ("node", .object [("require", .null)])])] = true := by decide +kernel
  refine ⟨hreaches, by decide +kernel, export?_eq_none_iff_of_null rfl ?_ hreaches hchosen⟩
  exact if_pos hmaps

/-- A package with nothing for `require`. -/
def excluding : Manifest where
  exports := some (.object [("default", .string "./main.js"), ("require", .null)])

/-- A null does not keep a lookup from an answer. -/
theorem not_excludes : ¬ ∀ (manifest : Manifest) (exports target : Json) (subpath : String)
    (conditions : List String) (members : List (String × Json)) (left : List Json),
    manifest.exports = some exports → subpathTarget? exports subpath = some target →
      Reaches conditions (.object members) target left →
        (choices conditions members).head? = some .null →
          manifest.export? subpath conditions = none := by
  intro hall
  have hmaps : ¬ mapsSubpaths [("default", .string "./main.js"), ("require", .null)] = true := by
    decide +kernel
  have hnone : excluding.export? "." ["require"] = none :=
    hall excluding _ _ "." ["require"] [("default", .string "./main.js"), ("require", .null)] []
      rfl (if_neg hmaps) .here rfl
  have hsome : excluding.export? "." ["require"] = some "./main.js" := by decide +kernel
  rw [hsome] at hnone
  cases hnone

end Manifest

end ScriptModules.Package
