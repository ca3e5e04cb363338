import Mathlib
import ScriptModules.Cache.Index
import ScriptModules.Proofs.Json.Reading
import ScriptModules.Proofs.Timestamp

/-!
# Indexes that are written and read

An index is read as it was written, up to the order of its entries: they are written in the
order of their names and read the last one first.
-/

namespace ScriptModules.Cache

open Json (Form Reads ReadsMember IsPlain formOfNat)

/-! ## Numbers -/

theorem le_ofDigitChars (digits : List Char) (n : Nat) : n ≤ Nat.ofDigitChars 10 digits n := by
  rw [Nat.ofDigitChars_eq_ofDigitChars_zero]
  have hpos : 0 < 10 ^ digits.length := Nat.pow_pos (by decide)
  have hle := Nat.le_mul_of_pos_left n hpos
  omega

/-- Digits of a number that fits 64 bits are gathered to the end. -/
theorem gatherWhole_eq (digits : List Char) (n : Nat)
    (h : Nat.ofDigitChars 10 digits n < 2 ^ 64) :
    Json.Numeral.gatherWhole n 0 digits = (Nat.ofDigitChars 10 digits n, 0) := by
  induction digits generalizing n with
  | nil => rfl
  | cons digit digits ih =>
      have hcons : Nat.ofDigitChars 10 (digit :: digits) n =
          Nat.ofDigitChars 10 digits (10 * n + (digit.toNat - 48)) := Nat.ofDigitChars_cons
      rw [hcons] at h ⊢
      have hfits : 10 * n + (digit.toNat - 48) < Json.Numeral.significandLimit :=
        Nat.lt_of_le_of_lt (le_ofDigitChars digits _) h
      rw [Json.Numeral.gatherWhole]
      simp only [hfits, and_self, if_true]
      exact ih _ h

/-- A number within a limit of at most 64 bits is read as it was written. -/
theorem natural?_formOfNat {n limit : Nat} (h : n ≤ limit) (hl : limit < 2 ^ 64) :
    Form.natural? limit (formOfNat n) = some n := by
  have hgather := gatherWhole_eq (Nat.toDigits 10 n) 0
    (by rw [Nat.ofDigitChars_ten_toDigits]; omega)
  rw [Nat.ofDigitChars_ten_toDigits] at hgather
  have hvalue : Json.Numeral.value? ⟨false, Nat.toDigits 10 n, [], none⟩ =
      some (.exact (n : Int)) := by
    simp [Json.Numeral.value?, hgather]
  simp only [formOfNat, Form.natural?, hvalue]
  exact if_pos h

/-! ## Entries -/

/-- The form of an entry. -/
def entryForm (entry : EntryMeta) : Form :=
  .object [("size".toList, formOfNat entry.size),
    ("lastAccess".toList, .string entry.lastAccess.write),
    ("seq".toList, formOfNat entry.sequence.toNat), ("hits".toList, formOfNat entry.hits.toNat)]

/-- What an index can hold: sizes of 64 bits, and times that are read as they are written. -/
structure EntryMeta.IsWritable (entry : EntryMeta) : Prop where
  size : entry.size < 2 ^ 64
  lastAccess : entry.lastAccess.IsReadable

theorem isPlain_of_isDigit {c : Char} (h : c.isDigit = true) : Json.isPlain c = true := by
  have hbounds : 48 ≤ c.toNat ∧ c.toNat ≤ 57 := by
    simp only [Char.isDigit, Bool.and_eq_true, decide_eq_true_eq] at h
    exact h
  simp only [Json.isPlain, Bool.and_eq_true, decide_eq_true_eq, bne_iff_ne]
  refine ⟨⟨⟨by omega, by omega⟩, ?_⟩, ?_⟩
  · rintro rfl
    cases h
  · rintro rfl
    cases h

theorem isPlain_write (t : Timestamp) : IsPlain (String.ofList t.write) := by
  intro c hc
  rw [String.toList_ofList] at hc
  rcases Timestamp.isWritten_write t c hc with hdigit | hmark
  · exact isPlain_of_isDigit hdigit
  · have hall : ∀ other ∈ ['-', '+', 'T', ':', '.', 'Z'], Json.isPlain other = true := by
      simp [Json.isPlain]
    exact hall c hmark

/-- The names of fields. -/
def fieldNames : List String :=
  ["size", "lastAccess", "seq", "hits", "version", "entries"]

theorem isPlain_fieldNames : ∀ name ∈ fieldNames, IsPlain name := by
  simp [fieldNames, IsPlain, Json.isPlain]

theorem decode?_toList {name : String} (h : IsPlain name) :
    Json.decode? [] name.toList = some name := by
  rw [Json.decode?_of_isPlain h, List.reverse_nil, List.nil_append, String.ofList_toList]

theorem reads_entryJson (entry : EntryMeta) : Reads (Index.entryJson entry) (entryForm entry) := by
  have hplain : ∀ name ∈ fieldNames, IsPlain name := isPlain_fieldNames
  have htime := Json.reads_string (isPlain_write entry.lastAccess)
  rw [String.toList_ofList] at htime
  exact Json.reads_object
    (.cons ⟨hplain "size" (by decide), rfl, Json.reads_integer _⟩
      (.cons ⟨hplain "lastAccess" (by decide), rfl, htime⟩
        (.cons ⟨hplain "seq" (by decide), rfl, Json.reads_integer _⟩
          (.cons ⟨hplain "hits" (by decide), rfl, Json.reads_integer _⟩ .nil))))

/-- An entry is read as it was written. -/
theorem entry?_entryForm {entry : EntryMeta} (h : entry.IsWritable) :
    Index.entry? (entryForm entry) = some entry := by
  have hsize := @natural?_formOfNat entry.size Index.limit
    (Nat.le_sub_one_of_lt h.size) (by decide)
  have hsequence := @natural?_formOfNat entry.sequence.toNat Index.limit
    (Nat.le_sub_one_of_lt entry.sequence.toNat_lt) (by decide)
  have hhits := @natural?_formOfNat entry.hits.toNat Index.limit
    (Nat.le_sub_one_of_lt entry.hits.toNat_lt) (by decide)
  have htime : Index.time? (.string entry.lastAccess.write) = some entry.lastAccess := by
    have hdecode := decode?_toList (isPlain_write entry.lastAccess)
    rw [String.toList_ofList] at hdecode
    simp only [Index.time?, Form.text?, hdecode, bind, Option.bind, String.toList_ofList]
    exact Timestamp.read?_write h.lastAccess
  have hkey : ∀ name ∈ fieldNames, Json.decode? [] name.toList = some name :=
    fun name hname => decode?_toList (isPlain_fieldNames name hname)
  have hfields : (entryForm entry).fields? ["size", "lastAccess", "seq", "hits"] =
      some [("size", formOfNat entry.size), ("lastAccess", .string entry.lastAccess.write),
        ("seq", formOfNat entry.sequence.toNat), ("hits", formOfNat entry.hits.toNat)] := by
    simp only [entryForm, Form.fields?, Form.knownMembers?, hkey "size" (by decide),
      hkey "lastAccess" (by decide), hkey "seq" (by decide), hkey "hits" (by decide), bind,
      Option.bind]
    rfl
  simp [Index.entry?, hfields, Form.requiredField?, List.lookup_cons, hsize, htime, hsequence,
    hhits]

/-! ## Members in order -/

section Members

variable {α : Type} (encode : α → Json)

/-- Values in JSON under their names. -/
def encodeMembers (members : List (String × α)) : List (String × Json) :=
  members.map fun member => (member.1, encode member.2)

/-- A member with a key of its own is added somewhere among the others. -/
theorem insertMember_perm (name : String) (value : α) (members : List (String × α))
    (hn : name ∉ members.map (·.1)) :
    ∃ more : List (String × α), more.Perm ((name, value) :: members) ∧
      Json.insertMember name (encode value) (encodeMembers encode members) =
        encodeMembers encode more := by
  induction members with
  | nil => exact ⟨[(name, value)], .refl _, rfl⟩
  | cons member members ih =>
      simp only [List.map_cons, List.mem_cons, not_or] at hn
      simp only [encodeMembers, List.map_cons, Json.insertMember]
      split
      · exact ⟨(name, value) :: member :: members, .refl _, rfl⟩
      · rw [if_neg hn.1]
        obtain ⟨more, hperm, heq⟩ := ih hn.2
        refine ⟨member :: more, (hperm.cons member).trans (.swap ..), ?_⟩
        simp only [encodeMembers, List.map_cons] at heq ⊢
        rw [heq]

/-- An object has its members in some order.  The induction is on the members that are left;
those taken in before stand in some order, too. -/
theorem ofMembers_perm (members : List (String × α)) (hn : (members.map (·.1)).Nodup) :
    ∃ sorted : List (String × α), sorted.Perm members ∧
      Json.ofMembers (encodeMembers encode members) = .object (encodeMembers encode sorted) := by
  have hall : ∀ members before : List (String × α), ((before ++ members).map (·.1)).Nodup →
      ∃ sorted : List (String × α), sorted.Perm (before ++ members) ∧
        (encodeMembers encode members).foldl
            (fun object member => Json.insertMember member.1 member.2 object)
            (encodeMembers encode before) = encodeMembers encode sorted := by
    intro members
    induction members with
    | nil => exact fun before _ => ⟨before, by rw [List.append_nil], rfl⟩
    | cons member members ih =>
        intro before hnodup
        obtain ⟨name, value⟩ := member
        have hnew : name ∉ before.map (·.1) := by
          rw [List.map_append, List.nodup_append] at hnodup
          exact fun hmem => hnodup.2.2 name hmem name List.mem_cons_self rfl
        obtain ⟨more, hmore, heq⟩ := insertMember_perm encode name value before hnew
        have hperm : (more ++ members).Perm (before ++ (name, value) :: members) :=
          (hmore.append_right members).trans List.perm_middle.symm
        obtain ⟨sorted, hsorted, hfold⟩ := ih more ((hperm.map (·.1)).nodup_iff.mpr hnodup)
        refine ⟨sorted, hsorted.trans hperm, ?_⟩
        rw [← heq] at hfold
        exact hfold
  obtain ⟨sorted, hperm, heq⟩ := hall members [] hn
  exact ⟨sorted, hperm, congrArg Json.object heq⟩

end Members

/-! ## Indexes -/

/-- What an index can hold under names that stand for themselves. -/
def Index.IsWritable (index : Index) : Prop :=
  ∀ pair ∈ index, IsPlain pair.1 ∧ pair.2.IsWritable

/-- The forms of the entries of an index. -/
def entryForms (index : Index) : List (List Char × Form) :=
  index.map fun pair => (pair.1.toList, entryForm pair.2)

theorem readsMembers_entryForms {index : Index} (h : index.IsWritable) :
    List.Forall₂ ReadsMember (encodeMembers Index.entryJson index) (entryForms index) := by
  induction index with
  | nil => exact .nil
  | cons pair index ih =>
      exact .cons ⟨(h _ List.mem_cons_self).1, rfl, reads_entryJson pair.2⟩
        (ih fun pair hpair => h pair (List.mem_cons_of_mem _ hpair))

theorem entries?_entryForms {index : Index} (h : index.IsWritable) :
    Index.entries? (entryForms index) = some index := by
  induction index with
  | nil => rfl
  | cons pair index ih =>
      obtain ⟨hplain, hwritable⟩ := h _ List.mem_cons_self
      have hrest := ih fun pair hpair => h pair (List.mem_cons_of_mem _ hpair)
      unfold entryForms at hrest ⊢
      simp [Index.entries?, decode?_toList hplain, entry?_entryForm hwritable, hrest]

/-- The form of an index. -/
def indexForm (index : Index) : Form :=
  .object [("version".toList, formOfNat Index.formatVersion),
    ("entries".toList, .object (entryForms index))]

theorem reads_index {index : Index} (h : index.IsWritable) :
    Reads (.object [("version", .integer Index.formatVersion),
      ("entries", .object (encodeMembers Index.entryJson index))]) (indexForm index) := by
  have hplain : ∀ name ∈ fieldNames, IsPlain name := isPlain_fieldNames
  exact Json.reads_object
    (.cons ⟨hplain "version" (by decide), rfl, Json.reads_integer Index.formatVersion⟩
      (.cons ⟨hplain "entries" (by decide), rfl, Json.reads_object (readsMembers_entryForms h)⟩
        .nil))

/-- The last entry is taken first. -/
theorem ofForm?_indexForm {index : Index} (h : index.IsWritable) :
    Index.ofForm? (indexForm index) = some index.reverse := by
  have hkey : ∀ name ∈ fieldNames, Json.decode? [] name.toList = some name :=
    fun name hname => decode?_toList (isPlain_fieldNames name hname)
  have hversion := @natural?_formOfNat Index.formatVersion 65535 (by decide) (by decide)
  have hfields : Form.fields? ["version", "entries"] (indexForm index) =
      some [("version", formOfNat Index.formatVersion),
        ("entries", .object (entryForms index))] := by
    simp only [indexForm, Form.fields?, Form.knownMembers?, hkey "version" (by decide),
      hkey "entries" (by decide), bind, Option.bind]
    rfl
  rw [Index.ofForm?, hfields]
  simp [Form.requiredField?, List.lookup_cons, hversion, entries?_entryForms h]

/-- An index is read as it was written, in some order. -/
theorem read_render {index : Index} (hn : (index.map (·.1)).Nodup) (h : index.IsWritable) :
    (Index.read (Bytes.ofText index.render)).Perm index := by
  obtain ⟨sorted, hsorted, hmembers⟩ := ofMembers_perm Index.entryJson index hn
  have hwritable : Index.IsWritable sorted := fun pair hpair => h pair (hsorted.mem_iff.mp hpair)
  have hread := (reads_index hwritable).ofBytes?
  rw [← hmembers] at hread
  have htext : Form.ofBytes? (Bytes.ofText index.render) = some (indexForm sorted) := hread
  have heq : Index.read (Bytes.ofText index.render) = sorted.reverse := by
    simp only [Index.read, htext, bind, Option.bind, ofForm?_indexForm hwritable,
      Option.getD_some]
  rw [heq]
  exact sorted.reverse_perm.trans hsorted

end ScriptModules.Cache
