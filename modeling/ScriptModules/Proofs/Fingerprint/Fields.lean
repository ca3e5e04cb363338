import ScriptModules.Proofs.Fingerprint.Message

/-!
# A message is read back in one way only

The message behind a fingerprint is a row of five fields: a tag, the source as it is
hashed, the version of the engine, the text of the options and a byte that tells whether
a root was given.  Each stands behind its length.

What a field holds does not matter.  It may look like a length, like the text of options
or like whole fields behind their lengths.  A reader who goes by the lengths never looks
for a mark that ends a field, so there is one row of fields for a message and no other
(`encoded_inj`), of however many fields.  In particular a message is not the message of
other inputs, and moving bytes from the end of a field to the beginning of the next, or
back, gives another message (`message_unambiguous`).

Lengths are written with eight bytes, as a machine counts them.  Fields that no memory can
hold are left out (`Countable`).
-/

namespace ScriptModules.Fingerprint

/-! ## Rows of fields -/

/-- Fields in a row, each behind its length. -/
def encoded (fields : List Bytes) : Bytes :=
  fields.flatMap field

@[simp] theorem encoded_nil : encoded [] = [] := rfl

@[simp] theorem encoded_cons (bytes : Bytes) (fields : List Bytes) :
    encoded (bytes :: fields) = field bytes ++ encoded fields := rfl

theorem encoded_append (front fields : List Bytes) :
    encoded (front ++ fields) = encoded front ++ encoded fields := by
  simp [encoded]

/-- A field takes up room, even an empty one. -/
theorem field_ne_nil (bytes : Bytes) : field bytes ≠ [] := by
  intro h
  have hlength := congrArg List.length h
  simp [field] at hlength

/-- A row is told by its bytes: where the fields end, how many there are, and what they
hold. -/
theorem encoded_inj {fields others : List Bytes}
    (hfields : ∀ bytes ∈ fields, bytes.length < fieldLimit)
    (hothers : ∀ bytes ∈ others, bytes.length < fieldLimit)
    (h : encoded fields = encoded others) : fields = others := by
  induction fields generalizing others with
  | nil =>
    cases others with
    | nil => rfl
    | cons other others =>
      have hempty := List.append_eq_nil_iff.mp h.symm
      exact absurd hempty.1 (field_ne_nil other)
  | cons bytes fields ih =>
    cases others with
    | nil =>
      have hempty := List.append_eq_nil_iff.mp h
      exact absurd hempty.1 (field_ne_nil bytes)
    | cons other others =>
      obtain ⟨rfl, hrest⟩ := field_append_inj (hfields bytes List.mem_cons_self)
        (hothers other List.mem_cons_self) h
      have heq := ih (fun bytes hmem => hfields bytes (List.mem_cons_of_mem _ hmem))
        (fun bytes hmem => hothers bytes (List.mem_cons_of_mem _ hmem)) hrest
      rw [heq]

/-! ## Moving bytes over a boundary -/

/-- Bytes have moved over the boundary between two neighbouring fields. -/
inductive Moved : List Bytes → List Bytes → Prop
  /-- The end of a field has become the beginning of the next. -/
  | ahead (front : List Bytes) (bytes moved next : Bytes) (rest : List Bytes) (h : moved ≠ []) :
    Moved (front ++ (bytes ++ moved) :: next :: rest) (front ++ bytes :: (moved ++ next) :: rest)
  /-- The beginning of a field has become the end of the one before. -/
  | back (front : List Bytes) (bytes moved next : Bytes) (rest : List Bytes) (h : moved ≠ []) :
    Moved (front ++ bytes :: (moved ++ next) :: rest) (front ++ (bytes ++ moved) :: next :: rest)

/-- A field does not begin like a longer one unless the difference is more than can be
counted. -/
theorem field_append_ne {bytes moved : Bytes} (hmoved : moved ≠ [])
    (hlength : moved.length < fieldLimit) (rest others : Bytes) :
    field bytes ++ rest ≠ field (bytes ++ moved) ++ others := by
  intro h
  rw [field, field, List.append_assoc, List.append_assoc] at h
  obtain ⟨hcount, -⟩ := List.append_inj h (by simp)
  have hmod : bytes.length % fieldLimit = (bytes.length + moved.length) % fieldLimit := by
    have hnumber := congrArg Bytes.toNat hcount
    rwa [Bytes.toNat_ofNat, Bytes.toNat_ofNat, List.length_append] at hnumber
  have hpos : 0 < moved.length := List.length_pos_iff.mpr hmoved
  have hlimit : fieldLimit = 18446744073709551616 := by decide
  rw [hlimit] at hmod hlength
  omega

/-- Bytes do not move unseen, and what they make of the fields need not be countable. -/
theorem Moved.encoded_ne {fields others : List Bytes} (h : Moved fields others)
    (hfields : ∀ bytes ∈ fields, bytes.length < fieldLimit) :
    encoded others ≠ encoded fields := by
  cases h with
  | ahead front bytes moved next rest hmoved =>
    have hlength := hfields (bytes ++ moved) (by simp)
    rw [List.length_append] at hlength
    rw [encoded_append, encoded_append, encoded_cons, encoded_cons]
    intro heq
    exact field_append_ne hmoved (by omega) _ _ (List.append_cancel_left heq)
  | back front bytes moved next rest hmoved =>
    have hlength := hfields (moved ++ next) (by simp)
    rw [List.length_append] at hlength
    rw [encoded_append, encoded_append, encoded_cons, encoded_cons]
    intro heq
    exact field_append_ne hmoved (by omega) _ _ (List.append_cancel_left heq).symm

/-! ## The fields of a message -/

/-- The fields of the message of a request. -/
def fieldsOf (source : Bytes) (engine : String) (options : CompileOptions)
    (portableRoot : Option Path) : List Bytes :=
  [Bytes.ofText "loadstar-compile-cache", hashedSource source portableRoot, Bytes.ofText engine,
    Bytes.ofText (optionsText options), [if portableRoot.isSome then 1 else 0]]

variable {source other : Bytes} {engine otherEngine : String}
  {options otherOptions : CompileOptions} {root otherRoot : Option Path}

/-- A message is its fields in a row. -/
theorem encoded_fieldsOf :
    encoded (fieldsOf source engine options root) = message source engine options root := by
  cases root <;> simp [message, hashedSource, fieldsOf]

/-- The fields of a request are countable when its source and its engine are. -/
theorem length_lt_of_mem_fieldsOf (hc : Countable source engine root) :
    ∀ bytes ∈ fieldsOf source engine options root, bytes.length < fieldLimit := by
  have htag : (Bytes.ofText "loadstar-compile-cache").length < fieldLimit := by decide +kernel
  have hflag : ([if root.isSome then 1 else 0] : Bytes).length < fieldLimit := by
    rw [List.length_singleton]
    decide
  intro bytes hmem
  simp only [fieldsOf, List.mem_cons, List.not_mem_nil, or_false] at hmem
  obtain rfl | rfl | rfl | rfl | rfl := hmem
  · exact htag
  · exact hc.1
  · exact hc.2
  · exact length_optionsText options
  · exact hflag

/-- A message is its row of fields and no other. -/
theorem eq_fieldsOf (hc : Countable source engine root) {fields : List Bytes}
    (hfields : ∀ bytes ∈ fields, bytes.length < fieldLimit)
    (h : encoded fields = message source engine options root) :
    fields = fieldsOf source engine options root :=
  encoded_inj hfields (length_lt_of_mem_fieldsOf hc) (h.trans encoded_fieldsOf.symm)

/-- The message says everything the bytecode depends on, and says it in one way.  Two
requests have one message exactly if they have one source as it is hashed, one engine, the
same options, and both or neither have a root.  A message is read back as its own fields
only, and is not what is left when bytes move over a boundary between them. -/
theorem message_unambiguous (hc : Countable source engine root)
    (hc' : Countable other otherEngine otherRoot) :
    (message source engine options root = message other otherEngine otherOptions otherRoot ↔
      hashedSource source root = hashedSource other otherRoot ∧ engine = otherEngine ∧
        options = otherOptions ∧ root.isSome = otherRoot.isSome) ∧
    (∀ fields : List Bytes, (∀ bytes ∈ fields, bytes.length < fieldLimit) →
      (encoded fields = message source engine options root ↔
        fields = fieldsOf source engine options root)) ∧
    ∀ fields : List Bytes, Moved (fieldsOf source engine options root) fields →
      encoded fields ≠ message source engine options root := by
  refine ⟨⟨message_inj hc hc', ?_⟩, ?_, ?_⟩
  · rintro ⟨hsource, rfl, rfl, hroot⟩
    rw [← encoded_fieldsOf, ← encoded_fieldsOf, fieldsOf, fieldsOf, hsource, hroot]
  · intro fields hfields
    constructor
    · exact eq_fieldsOf hc hfields
    · rintro rfl
      exact encoded_fieldsOf
  · intro fields hmoved
    rw [← encoded_fieldsOf]
    exact hmoved.encoded_ne (length_lt_of_mem_fieldsOf hc)

/-- A byte from the end of the source to the version of the engine: the messages differ. -/
theorem message_unambiguous_movedByte :
    Countable (Bytes.ofText "ab") "c" none ∧ Countable (Bytes.ofText "a") "bc" none ∧
    message (Bytes.ofText "ab") "c" {} none ≠ message (Bytes.ofText "a") "bc" {} none := by
  have hone : Countable (Bytes.ofText "ab") "c" none := by
    refine ⟨?_, ?_⟩ <;> decide +kernel
  have hother : Countable (Bytes.ofText "a") "bc" none := by
    refine ⟨?_, ?_⟩ <;> decide +kernel
  refine ⟨hone, hother, ?_⟩
  intro h
  have hequal := (message_unambiguous hone hother).1.mp h
  exact absurd hequal.2.1 (by decide)

end ScriptModules.Fingerprint
