import ScriptModules.Fingerprint
import ScriptModules.Proofs.Cache.EntryFile

/-!
# The message behind a fingerprint

A fingerprint is the digest of a message in which every field stands behind its
length.  Fields that are not longer than a machine can count are told apart by
it: equal messages have equal fields.  So two fingerprints of different requests
are equal only if the hash function has a collision.
-/

namespace ScriptModules.Fingerprint

/-! ## Fields -/

/-- One more than the longest field whose length is written in full. -/
def fieldLimit : Nat := 256 ^ 8

/-- Fields at the front of equal byte strings are equal, and so is what follows. -/
theorem field_append_inj {a b rest others : Bytes} (ha : a.length < fieldLimit)
    (hb : b.length < fieldLimit) (h : field a ++ rest = field b ++ others) :
    a = b ∧ rest = others := by
  unfold field at h
  rw [List.append_assoc, List.append_assoc] at h
  obtain ⟨hcount, h⟩ := List.append_inj h (by simp)
  exact List.append_inj h (Bytes.ofNat_inj ha hb hcount)

/-! ## Options -/

/-- All compile options there are. -/
def everyOptions : List CompileOptions :=
  [ModuleFormat.script, .binary, .virtual].flatMap fun format =>
    [ModuleKind.commonJs, .esm].flatMap fun kind =>
      [true, false].flatMap fun strict =>
        [true, false].map fun stripDebug => { format, kind, strict, stripDebug }

theorem mem_everyOptions (options : CompileOptions) : options ∈ everyOptions := by
  obtain ⟨format, kind, strict, stripDebug⟩ := options
  cases format <;> cases kind <;> cases strict <;> cases stripDebug <;> decide

/-- Options are told apart by their texts. -/
theorem optionsText_inj {a b : CompileOptions} (h : optionsText a = optionsText b) : a = b := by
  have all : ∀ a ∈ everyOptions, ∀ b ∈ everyOptions, optionsText a = optionsText b → a = b := by
    decide +kernel
  exact all a (mem_everyOptions a) b (mem_everyOptions b) h

theorem length_optionsText (options : CompileOptions) :
    (Bytes.ofText (optionsText options)).length < fieldLimit := by
  have all : ∀ options ∈ everyOptions,
      (Bytes.ofText (optionsText options)).length < fieldLimit := by
    decide +kernel
  exact all options (mem_everyOptions options)

/-! ## Messages -/

/-- The source as it is hashed. -/
def hashedSource (source : Bytes) : Option Path → Bytes
  | some root => normalize source root
  | none => source

/-- Whether the fields of a request have lengths a machine can count. -/
def Countable (source : Bytes) (engine : String) (portableRoot : Option Path) : Prop :=
  (hashedSource source portableRoot).length < fieldLimit ∧
    (Bytes.ofText engine).length < fieldLimit

variable {source other : Bytes} {engine otherEngine : String}
  {options otherOptions : CompileOptions} {root otherRoot : Option Path}

/-- Equal messages have equal fields. -/
theorem message_inj (hc : Countable source engine root)
    (hc' : Countable other otherEngine otherRoot)
    (h : message source engine options root = message other otherEngine otherOptions otherRoot) :
    hashedSource source root = hashedSource other otherRoot ∧ engine = otherEngine ∧
      options = otherOptions ∧ root.isSome = otherRoot.isSome := by
  have hm : ∀ source engine options root, message source engine options root =
      field (Bytes.ofText "loadstar-compile-cache") ++ (field (hashedSource source root) ++
        (field (Bytes.ofText engine) ++ (field (Bytes.ofText (optionsText options)) ++
          field [if root.isSome then 1 else 0]))) := by
    intro source engine options root
    cases root <;> simp [message, hashedSource]
  rw [hm, hm] at h
  have h := List.append_cancel_left h
  obtain ⟨hsource, h⟩ := field_append_inj hc.1 hc'.1 h
  obtain ⟨hengine, h⟩ := field_append_inj hc.2 hc'.2 h
  obtain ⟨hoptions, h⟩ := field_append_inj (length_optionsText _) (length_optionsText _) h
  refine ⟨hsource, Bytes.ofText_inj hengine, optionsText_inj (Bytes.ofText_inj hoptions), ?_⟩
  cases root <;> cases otherRoot <;> simp_all [field]

end ScriptModules.Fingerprint
