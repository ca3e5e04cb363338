import Mathlib
import ScriptModules.Json.Printer
import ScriptModules.Proofs.Cache.Naming
import ScriptModules.Proofs.Text.Decimal

/-!
# JSON that is written and read

Values are written in the indented form and read back.  For each kind of value there is one
lemma: natural numbers, strings of plain characters, and objects of values that are read back
themselves (`Reads`).  What is read stops where the value ends, whatever follows it.
-/

namespace ScriptModules.Json

open Text (EndsDigits endsDigits_cons)

/-! ## Characters -/

/-- A character of ASCII that stands for itself in a string. -/
def isPlain (c : Char) : Bool :=
  0x20 ≤ c.toNat && c.toNat < 0x80 && c != '"' && c != '\\'

/-- A text of such characters. -/
def IsPlain (text : String) : Prop :=
  ∀ c ∈ text.toList, isPlain c = true

theorem of_isPlain {c : Char} (h : isPlain c = true) :
    0x20 ≤ c.toNat ∧ c.toNat < 0x80 ∧ c ≠ '"' ∧ c ≠ '\\' := by
  simpa [isPlain, and_assoc] using h

theorem escape_of_isPlain {c : Char} (h : isPlain c = true) : escape c = [c] := by
  obtain ⟨hlow, -, hquote, hslash⟩ := of_isPlain h
  have hcontrol : ∀ other : Char, other.toNat < 0x20 → c ≠ other := by
    rintro other hother rfl
    omega
  simp only [escape, if_neg hquote, if_neg hslash, if_neg (hcontrol '\x08' (by decide)),
    if_neg (hcontrol '\x0c' (by decide)), if_neg (hcontrol '\n' (by decide)),
    if_neg (hcontrol '\r' (by decide)), if_neg (hcontrol '\t' (by decide)),
    if_neg (Nat.not_lt.mpr hlow)]

theorem quoted_of_isPlain {text : String} (h : IsPlain text) :
    quoted text = '"' :: (text.toList ++ ['"']) := by
  have hall : ∀ characters : List Char, (∀ c ∈ characters, isPlain c = true) →
      characters.flatMap escape = characters := by
    intro characters hplain
    induction characters with
    | nil => rfl
    | cons c characters ih =>
        rw [List.flatMap_cons, escape_of_isPlain (hplain c List.mem_cons_self),
          ih fun other hmem => hplain other (List.mem_cons_of_mem c hmem)]
        rfl
  rw [quoted, hall text.toList h]

/-- Plain characters stand for themselves between quotes, -/
theorem string?_of_isPlain {raw : List Char} (h : ∀ c ∈ raw, isPlain c = true)
    (taken rest : List Char) :
    Form.string? taken (raw ++ '"' :: rest) = some (taken.reverse ++ raw, rest) := by
  induction raw generalizing taken with
  | nil => simp [Form.string?]
  | cons c raw ih =>
      obtain ⟨hlow, -, hquote, hslash⟩ := of_isPlain (h c List.mem_cons_self)
      have hnot : (c == '\\' || decide (c.toNat < 0x20)) = false := by
        simp [hslash, hlow]
      rw [List.cons_append, Form.string?.eq_def]
      split
      · rename_i heq
        exact absurd (List.cons.inj heq).1 hquote
      · rename_i heq
        exact absurd (List.cons.inj heq).1 hslash
      · rename_i heq
        exact absurd (List.cons.inj heq).1 hslash
      · rename_i heq
        cases heq
        rw [hnot, if_neg Bool.false_ne_true,
          ih fun other hmem => h other (List.mem_cons_of_mem c hmem)]
        simp
      · rename_i heq
        cases heq

/-- and in the text of the string. -/
theorem decode?_of_isPlain {raw : List Char} (h : ∀ c ∈ raw, isPlain c = true)
    (taken : List Char) : decode? taken raw = some (String.ofList (taken.reverse ++ raw)) := by
  induction raw generalizing taken with
  | nil => simp [decode?]
  | cons c raw ih =>
      obtain ⟨-, -, -, hslash⟩ := of_isPlain (h c List.mem_cons_self)
      rw [decode?.eq_def]
      split
      · rename_i heq
        cases heq
      · rename_i heq
        exact absurd (List.cons.inj heq).1 hslash
      · rename_i heq
        exact absurd (List.cons.inj heq).1 hslash
      · rename_i heq
        cases heq
        rw [ih fun other hmem => h other (List.mem_cons_of_mem c hmem)]
        simp

/-! ## Bytes -/

theorem ofText_of_ascii {characters : List Char} (h : ∀ c ∈ characters, c.toNat < 0x80) :
    Bytes.ofText (String.ofList characters) =
      characters.map fun c => UInt8.ofNat c.toNat := by
  rw [Bytes.ofText_ofList]
  induction characters with
  | nil => rfl
  | cons c characters ih =>
      have hascii : c.val.toNat ≤ 127 := Nat.le_of_lt_succ (h c List.mem_cons_self)
      have hencoded : String.utf8EncodeChar c = [UInt8.ofNat c.toNat] := by
        simp only [String.utf8EncodeChar, if_pos hascii]
        rfl
      rw [List.flatMap_cons, List.map_cons, hencoded,
        ih fun other hmem => h other (List.mem_cons_of_mem c hmem)]
      rfl

/-- Characters of ASCII are found again in their bytes, -/
theorem map_ofText_of_ascii {characters : List Char} (h : ∀ c ∈ characters, c.toNat < 0x80) :
    (Bytes.ofText (String.ofList characters)).map (fun byte => Char.ofNat byte.toNat) =
      characters := by
  rw [ofText_of_ascii h, List.map_map]
  refine (List.map_congr_left fun c hc => ?_).trans (List.map_id characters)
  have hlt : c.toNat < 256 := Nat.lt_trans (h c hc) (by decide)
  simp [Nat.mod_eq_of_lt hlt]

/-- and reading them as UTF-8 makes no difference. -/
theorem reread_of_ascii {raw : List Char} (h : ∀ c ∈ raw, c.toNat < 0x80) :
    Form.reread raw = raw := by
  rw [Form.reread, ← ofText_of_ascii h, Bytes.text?_ofText]
  simp

/-! ## Blanks -/

theorem skip_cons {c : Char} (h : Form.isSpace c = false) (rest : List Char) :
    Form.skip (c :: rest) = c :: rest := by
  simp [Form.skip, h]

theorem skip_newline (depth : Nat) (rest : List Char) :
    Form.skip (newline depth ++ rest) = Form.skip rest := by
  unfold Form.skip
  refine List.dropWhile_append_of_pos fun c hc => ?_
  rcases List.mem_cons.mp hc with rfl | hspace
  · rfl
  · rw [List.eq_of_mem_replicate hspace]
    rfl

theorem value?_congr {text other : List Char} (h : Form.skip text = Form.skip other)
    (fuel : Nat) : Form.value? fuel text = Form.value? fuel other := by
  cases fuel with
  | zero => rfl
  | succ fuel => rw [Form.value?, Form.value?, h]

theorem members?_congr {text other : List Char} (h : Form.skip text = Form.skip other)
    (fuel : Nat) : Form.members? fuel text = Form.members? fuel other := by
  cases fuel with
  | zero => rfl
  | succ fuel => rw [Form.members?, Form.members?, h]

/-! ## Values -/

/-- What follows a value: a comma, the end of a line, or nothing. -/
def Follows (rest : List Char) : Prop :=
  ∀ c ∈ rest.head?, c = ',' ∨ c = '\n'

/-- A value is written in ASCII and read as a form, whatever follows it. -/
structure Reads (json : Json) (form : Form) : Prop where
  value : ∀ depth fuel rest, Follows rest → (json.indented depth ++ rest).length < fuel →
    Form.value? fuel (json.indented depth ++ rest) = some (form, rest)
  ascii : ∀ depth, ∀ c ∈ json.indented depth, c.toNat < 0x80
  decoded : form.decoded = form

theorem Follows.endsDigits {rest : List Char} (h : Follows rest) : EndsDigits rest := by
  intro c hc
  rcases h c hc with rfl | rfl <;> rfl

/-- Nothing of a number follows. -/
theorem Follows.exponent? {rest : List Char} (h : Follows rest) :
    Form.exponent? rest = some (none, rest) := by
  cases rest with
  | nil => rfl
  | cons c rest => rcases h c rfl with rfl | rfl <;> rfl

theorem digits_append {ds rest : List Char} (hd : ∀ c ∈ ds, c.isDigit = true)
    (hr : EndsDigits rest) : Form.digits (ds ++ rest) = (ds, rest) := by
  rw [Form.digits, List.span_eq_takeWhile_dropWhile, Text.takeWhile_isDigit_append hd hr,
    Text.dropWhile_isDigit_append hd hr]

/-- The form of a number. -/
def formOfNat (n : Nat) : Form :=
  .number ⟨false, Nat.toDigits 10 n, [], none⟩

/-- The digits of a number are read in full. -/
theorem unsigned?_toDigits (n : Nat) {rest : List Char} (h : Follows rest) :
    Form.unsigned? false (Nat.toDigits 10 n ++ rest) = some (formOfNat n, rest) := by
  have hdigits := digits_append (fun _ => Text.isDigit_of_mem_toDigits (n := n)) h.endsDigits
  have hzero : ∀ c more, Nat.toDigits 10 n ≠ '0' :: c :: more := by
    intro c more heq
    rcases Nat.eq_zero_or_pos n with rfl | hpos
    · rw [Nat.toDigits_zero] at heq
      cases heq
    · exact Text.head_toDigits hpos (by rw [heq]; rfl)
  unfold Form.unsigned?
  rw [hdigits]
  split
  · rename_i heq
    exact absurd (Prod.ext_iff.mp heq).1 Nat.toDigits_ne_nil
  · rename_i heq
    exact absurd (Prod.ext_iff.mp heq).1 (hzero _ _)
  · rename_i heq
    cases heq
    rcases h '.' rfl with hnever | hnever <;> cases hnever
  · rename_i heq
    cases heq
    rw [h.exponent?]
    rfl

theorem reads_integer (n : Nat) : Reads (.integer n) (formOfNat n) := by
  have htext : ∀ depth, (Json.integer n).indented depth = Nat.toDigits 10 n := by
    intro depth
    have hnonneg : ¬ (n : Int) < 0 := by omega
    simp [indented, compact, ofInt, hnonneg, decimal]
  constructor
  · intro depth fuel rest hfollows hfuel
    obtain ⟨fuel, rfl⟩ : ∃ before, fuel = before + 1 := ⟨fuel - 1, by omega⟩
    have hread := unsigned?_toDigits n hfollows
    rw [htext]
    obtain ⟨first, more, hdigits⟩ := List.exists_cons_of_ne_nil (Nat.toDigits_ne_nil (b := 10) (n := n))
    have hdigit : first.isDigit = true :=
      Text.isDigit_of_mem_toDigits (n := n) (hdigits ▸ List.mem_cons_self)
    have hspace : Form.isSpace first = false := by
      by_contra hspace
      simp only [Form.isSpace, Bool.not_eq_false, Bool.or_eq_true, beq_iff_eq] at hspace
      rcases hspace with ((rfl | rfl) | rfl) | rfl <;> cases hdigit
    rw [hdigits, List.cons_append] at hread ⊢
    rw [Form.value?, skip_cons hspace]
    split <;> first
      | (rename_i heq; cases heq; cases hdigit)
      | exact hread
  · intro depth c hc
    rw [htext] at hc
    have hdigit := Text.isDigit_of_mem_toDigits hc
    simp only [Char.isDigit, Bool.and_eq_true, decide_eq_true_eq] at hdigit
    exact Nat.lt_of_le_of_lt hdigit.2 (by decide)
  · rfl

theorem reads_string {text : String} (h : IsPlain text) :
    Reads (.string text) (.string text.toList) := by
  have hascii : ∀ c ∈ text.toList, c.toNat < 0x80 := fun c hc => (of_isPlain (h c hc)).2.1
  have htext : ∀ depth, (Json.string text).indented depth = '"' :: (text.toList ++ ['"']) := by
    intro depth
    simp only [indented, compact, quoted_of_isPlain h]
  constructor
  · intro depth fuel rest _ hfuel
    obtain ⟨fuel, rfl⟩ : ∃ before, fuel = before + 1 := ⟨fuel - 1, by omega⟩
    have hread := string?_of_isPlain h [] rest
    rw [htext, List.cons_append, List.append_assoc, Form.value?, skip_cons (by decide)]
    simp only [List.cons_append, List.nil_append, hread, Option.map_some]
    rfl
  · intro depth c hc
    rw [htext] at hc
    simp only [List.mem_cons, List.mem_append, List.not_mem_nil, or_false] at hc
    rcases hc with rfl | hc | rfl
    · decide
    · exact hascii c hc
    · decide
  · simp only [Form.decoded, reread_of_ascii hascii]

/-! ## Objects -/

/-- A member is read under its key. -/
structure ReadsMember (member : String × Json) (form : List Char × Form) : Prop where
  key : IsPlain member.1
  raw : form.1 = member.1.toList
  value : Reads member.2 form.2

theorem follows_indentedMembers (depth : Nat) (members : List (String × Json))
    (rest : List Char) : Follows (indentedMembers depth members ++ rest) := by
  intro c hc
  cases members with
  | nil =>
      cases hc
      exact Or.inr rfl
  | cons member members =>
      cases hc
      exact Or.inl rfl

/-- The text of a member, behind a line break, and what follows it. -/
def memberText (depth : Nat) (member : String × Json) (rest : List Char) : List Char :=
  newline (depth + 1) ++
    (quoted member.1 ++ ':' :: ' ' :: (member.2.indented (depth + 1) ++ rest))

theorem indentedMembers_cons (depth : Nat) (member : String × Json)
    (members : List (String × Json)) (rest : List Char) :
    indentedMembers depth (member :: members) ++ rest =
      ',' :: memberText depth member (indentedMembers depth members ++ rest) := by
  simp [indentedMembers, memberText]

/-- The blanks before a member are passed over. -/
theorem skip_memberText {member : String × Json} (h : IsPlain member.1) (depth : Nat)
    (rest : List Char) : Form.skip (memberText depth member rest) =
      '"' :: (member.1.toList ++
        '"' :: (':' :: ' ' :: (member.2.indented (depth + 1) ++ rest))) := by
  rw [memberText, skip_newline, quoted_of_isPlain h]
  simp only [List.cons_append, List.append_assoc, List.nil_append]
  exact skip_cons (by decide) _

/-- A member is read, and then either the closing brace or the members that follow. -/
theorem members?_memberText {member : String × Json} {form : List Char × Form}
    (h : ReadsMember member form) (depth fuel : Nat) {rest last : List Char}
    {forms : List (List Char × Form)} (hr : Follows rest)
    (hf : (memberText depth member rest).length < fuel + 1)
    (hrest : Form.skip rest = '\x7d' :: last ∧ forms = [] ∨
      ∃ more, Form.skip rest = ',' :: more ∧ Form.members? fuel more = some (forms, last)) :
    Form.members? (fuel + 1) (memberText depth member rest) = some (form :: forms, last) := by
  obtain ⟨key, value⟩ := member
  obtain ⟨raw, form⟩ := form
  obtain ⟨hkey, hraw, hvalue⟩ := h
  simp only at hkey hraw hvalue
  subst hraw
  have hlength : (value.indented (depth + 1) ++ rest).length < fuel := by
    simp only [memberText, newline, List.length_append, List.length_cons] at hf ⊢
    omega
  have hblank : Form.skip (' ' :: (value.indented (depth + 1) ++ rest)) =
      Form.skip (value.indented (depth + 1) ++ rest) := rfl
  have hread : Form.value? fuel (' ' :: (value.indented (depth + 1) ++ rest)) =
      some (form, rest) :=
    (value?_congr hblank fuel).trans (hvalue.value (depth + 1) fuel rest hr hlength)
  have hcolon : Form.skip (':' :: ' ' :: (value.indented (depth + 1) ++ rest)) =
      ':' :: ' ' :: (value.indented (depth + 1) ++ rest) := skip_cons (by decide) _
  rw [Form.members?, skip_memberText hkey]
  simp only [string?_of_isPlain hkey, List.reverse_nil, List.nil_append, hcolon, hread]
  rcases hrest with ⟨hend, rfl⟩ | ⟨more, hmore, hforms⟩
  · simp only [hend]
  · simp only [hmore, hforms, Option.map_some]

/-- One or more members are read up to the closing brace.  The induction is on the members
after the first. -/
theorem members?_indented {members : List (String × Json)} {forms : List (List Char × Form)}
    (h : List.Forall₂ ReadsMember members forms) {member : String × Json}
    {form : List Char × Form} (hm : ReadsMember member form) (depth fuel : Nat)
    (rest : List Char)
    (hf : (memberText depth member (indentedMembers depth members ++ rest)).length < fuel) :
    Form.members? fuel (memberText depth member (indentedMembers depth members ++ rest)) =
      some (form :: forms, rest) := by
  obtain ⟨fuel, rfl⟩ : ∃ before, fuel = before + 1 := ⟨fuel - 1, by omega⟩
  refine members?_memberText hm depth fuel (follows_indentedMembers depth members rest) hf ?_
  induction h generalizing member form fuel with
  | nil =>
      refine Or.inl ⟨?_, rfl⟩
      rw [indentedMembers, List.append_assoc, skip_newline]
      exact skip_cons (by decide) rest
  | @cons next nextForm members forms hnext _ ih =>
      rw [indentedMembers_cons] at hf ⊢
      have hshorter : (memberText depth next (indentedMembers depth members ++ rest)).length <
          fuel := by
        rw [memberText] at hf
        simp only [newline, List.length_append, List.length_cons] at hf ⊢
        omega
      obtain ⟨fuel, rfl⟩ : ∃ before, fuel = before + 1 := ⟨fuel - 1, by omega⟩
      refine Or.inr ⟨_, skip_cons (by decide) _, ?_⟩
      exact members?_memberText hnext depth fuel (follows_indentedMembers depth members rest)
        hshorter (ih hnext fuel hshorter)

theorem indented_object_cons (depth : Nat) (member : String × Json)
    (members : List (String × Json)) (rest : List Char) :
    (Json.object (member :: members)).indented depth ++ rest =
      '\x7b' :: memberText depth member (indentedMembers depth members ++ rest) := by
  simp [indented, memberText]

theorem ascii_newline {depth : Nat} {c : Char} (h : c ∈ newline depth) : c.toNat < 0x80 := by
  rcases List.mem_cons.mp h with rfl | hspace
  · decide
  · rw [List.eq_of_mem_replicate hspace]
    decide

theorem ascii_quoted {text : String} (h : IsPlain text) {c : Char} (hc : c ∈ quoted text) :
    c.toNat < 0x80 := by
  rw [quoted_of_isPlain h] at hc
  simp only [List.mem_cons, List.mem_append, List.not_mem_nil, or_false] at hc
  rcases hc with rfl | hc | rfl
  · decide
  · exact (of_isPlain (h c hc)).2.1
  · decide

theorem ascii_memberText {member : String × Json} {form : List Char × Form}
    (h : ReadsMember member form) {depth : Nat} {rest : List Char}
    (hr : ∀ c ∈ rest, c.toNat < 0x80) {c : Char} (hc : c ∈ memberText depth member rest) :
    c.toNat < 0x80 := by
  simp only [memberText, List.mem_append, List.mem_cons] at hc
  rcases hc with hline | hkey | rfl | rfl | hvalue | hrest
  · exact ascii_newline hline
  · exact ascii_quoted h.key hkey
  · decide
  · decide
  · exact h.value.ascii (depth + 1) c hvalue
  · exact hr c hrest

theorem ascii_indentedMembers {members : List (String × Json)}
    {forms : List (List Char × Form)} (h : List.Forall₂ ReadsMember members forms) (depth : Nat) :
    ∀ c ∈ indentedMembers depth members, c.toNat < 0x80 := by
  induction h with
  | nil =>
      intro c hc
      rcases List.mem_append.mp hc with hline | hbrace
      · exact ascii_newline hline
      · rw [List.mem_singleton.mp hbrace]
        decide
  | @cons member form members forms hm _ ih =>
      intro c hc
      have hcons := indentedMembers_cons depth member members []
      rw [List.append_nil, List.append_nil] at hcons
      rw [hcons] at hc
      rcases List.mem_cons.mp hc with rfl | hmember
      · decide
      · exact ascii_memberText hm ih hmember

theorem decodedMembers_eq {members : List (String × Json)} {forms : List (List Char × Form)}
    (h : List.Forall₂ ReadsMember members forms) : Form.decodedMembers forms = forms := by
  induction h with
  | nil => rfl
  | @cons member form members forms hm _ ih =>
      obtain ⟨raw, form⟩ := form
      have hraw : Form.reread raw = raw := by
        rw [show raw = member.1.toList from hm.raw]
        exact reread_of_ascii fun c hc => (of_isPlain (hm.key c hc)).2.1
      rw [Form.decodedMembers, hraw, hm.value.decoded, ih]

/-- An object is read with all its members, in their order. -/
theorem reads_object {members : List (String × Json)} {forms : List (List Char × Form)}
    (h : List.Forall₂ ReadsMember members forms) : Reads (.object members) (.object forms) := by
  have hdecoded : Form.decoded (.object forms) = .object forms := by
    rw [Form.decoded, decodedMembers_eq h]
  cases h with
  | nil =>
      refine ⟨fun depth fuel rest _ hfuel => ?_, fun depth c hc => ?_, hdecoded⟩
      · obtain ⟨fuel, rfl⟩ : ∃ before, fuel = before + 1 := ⟨fuel - 1, by omega⟩
        simp only [indented, compact, List.cons_append, List.nil_append]
        rw [Form.value?, skip_cons (by decide)]
        simp only [skip_cons (c := '\x7d') (by decide)]
      · simp only [indented, compact, List.mem_cons, List.not_mem_nil, or_false] at hc
        rcases hc with rfl | rfl <;> decide
  | @cons member form members forms hm hrest =>
      refine ⟨fun depth fuel rest _ hfuel => ?_, fun depth c hc => ?_, hdecoded⟩
      · obtain ⟨fuel, rfl⟩ : ∃ before, fuel = before + 1 := ⟨fuel - 1, by omega⟩
        rw [indented_object_cons] at hfuel ⊢
        have hshorter : (memberText depth member (indentedMembers depth members ++ rest)).length <
            fuel := by
          rw [List.length_cons] at hfuel
          omega
        have hread := members?_indented hrest hm depth fuel rest hshorter
        have hskip := skip_memberText hm.key depth (indentedMembers depth members ++ rest)
        have hagain : Form.skip (Form.skip
            (memberText depth member (indentedMembers depth members ++ rest))) =
              Form.skip (memberText depth member (indentedMembers depth members ++ rest)) := by
          rw [hskip]
          exact skip_cons (by decide) _
        rw [← members?_congr hagain fuel, hskip] at hread
        rw [Form.value?, skip_cons (by decide)]
        simp only [hskip]
        split
        · rename_i heq
          cases heq
        · rw [hread]
          rfl
      · have hcons := indented_object_cons depth member members []
        rw [List.append_nil, List.append_nil] at hcons
        rw [hcons] at hc
        rcases List.mem_cons.mp hc with rfl | hmember
        · decide
        · exact ascii_memberText hm (ascii_indentedMembers hrest depth) hmember

/-- What is written is read, also from bytes. -/
theorem Reads.ofBytes? {json : Json} {form : Form} (h : Reads json form) :
    Form.ofBytes? (Bytes.ofText json.renderIndented) = some form := by
  have hread := h.value 0 ((json.indented 0).length + 1) [] (fun c hc => nomatch hc)
    (by rw [List.append_nil]; exact Nat.lt_succ_self _)
  rw [List.append_nil] at hread
  have htext : Form.ofText? (json.indented 0) = some form := by
    rw [Form.ofText?, hread]
    rfl
  rw [Form.ofBytes?, renderIndented, map_ofText_of_ascii (h.ascii 0), htext, Option.map_some,
    h.decoded]

end ScriptModules.Json
