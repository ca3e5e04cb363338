import ScriptModules.Proofs.Cache.EntryFile
import ScriptModules.Text.Lossy

/-!
# Reading text as it was written

What is UTF-8 is read without replacements (`lossy_ofText`), so names that are UTF-8 do not look
alike.  A character is written in up to four bytes.  The first one says how many there are, and
each of the others adds six bits to the value (`lossyFrom_next`).
-/

namespace ScriptModules.Text

/-- A byte in the middle of a character. -/
def following (bits : Nat) : UInt8 :=
  UInt8.ofNat (bits + 128)

theorem toNat_ofNat {n : Nat} (h : n < 256) : (UInt8.ofNat n).toNat = n := by
  rw [UInt8.toNat_ofNat', Nat.mod_eq_of_lt h]

theorem ofNat_le_ofNat {m n : Nat} (hm : m < 256) (hn : n < 256) :
    UInt8.ofNat m ≤ UInt8.ofNat n ↔ m ≤ n := by
  rw [UInt8.le_iff_toNat_le, toNat_ofNat hm, toNat_ofNat hn]

/-- A byte in the middle of a character adds its bits to the value. -/
theorem lossyFrom_next (low high : Nat) {missing value bits : Nat} {bytes : Bytes}
    (hbits : bits < 64) (hlow : low ≤ bits + 128) (hhigh : bits + 128 ≤ high) (hmax : high < 256) :
    lossyFrom (missing + 1) value (UInt8.ofNat low) (UInt8.ofNat high) (following bits :: bytes) =
      if missing = 0 then Char.ofNat (64 * value + bits) :: lossyFrom 0 0 0 0 bytes
      else lossyFrom missing (64 * value + bits) 0x80 0xBF bytes := by
  have hin : (UInt8.ofNat low ≤ following bits && following bits ≤ UInt8.ofNat high) = true := by
    rw [Bool.and_eq_true, decide_eq_true_iff, decide_eq_true_iff, following,
      ofNat_le_ofNat (by omega) (by omega), ofNat_le_ofNat (by omega) (by omega)]
    exact ⟨hlow, hhigh⟩
  have hvalue : (following bits).toNat - 128 = bits := by
    rw [following, toNat_ofNat (by omega), Nat.add_sub_cancel]
  rw [lossyFrom, if_pos hin, hvalue]

/-- The last byte of a character. -/
theorem lossyFrom_last (low high : Nat) {value bits : Nat} {bytes : Bytes}
    (hbits : bits < 64) (hlow : low ≤ bits + 128) (hhigh : bits + 128 ≤ high) (hmax : high < 256) :
    lossyFrom 1 value (UInt8.ofNat low) (UInt8.ofNat high) (following bits :: bytes) =
      Char.ofNat (64 * value + bits) :: lossyFrom 0 0 0 0 bytes :=
  lossyFrom_next low high hbits hlow hhigh hmax

/-- The first byte of a character of several. -/
theorem lossyFrom_first {first missing : Nat} {low high : UInt8} {bytes : Bytes}
    (hfirst : 0x80 ≤ first) (hmax : first < 256)
    (hlead : lead? (UInt8.ofNat first) = some (missing, low, high)) :
    lossyFrom 0 0 0 0 (UInt8.ofNat first :: bytes) =
      lossyFrom missing (first % 2 ^ (6 - missing)) low high bytes := by
  have hge : ¬ UInt8.ofNat first < 0x80 := by
    rw [UInt8.not_lt]
    exact (ofNat_le_ofNat (by decide) hmax).mpr hfirst
  rw [lossyFrom, if_neg hge, hlead, toNat_ofNat hmax]

theorem lead?_two {bits : Nat} (hlow : 2 ≤ bits) (hhigh : bits < 32) :
    lead? (UInt8.ofNat (bits + 192)) = some (1, 0x80, 0xBF) := by
  have hall : ∀ bits < 32, 2 ≤ bits →
      lead? (UInt8.ofNat (bits + 192)) = some (1, 0x80, 0xBF) := by decide
  exact hall bits hhigh hlow

/-- The byte after the first one of three is not everything that it could be: values that fit
into fewer bytes are left out, and so are those that no character has. -/
theorem lead?_three {bits : Nat} (h : bits < 16) :
    lead? (UInt8.ofNat (bits + 224)) = some (2, UInt8.ofNat (if bits = 0 then 0xA0 else 0x80),
      UInt8.ofNat (if bits = 13 then 0x9F else 0xBF)) := by
  have hall : ∀ bits < 16, lead? (UInt8.ofNat (bits + 224)) =
      some (2, UInt8.ofNat (if bits = 0 then 0xA0 else 0x80),
        UInt8.ofNat (if bits = 13 then 0x9F else 0xBF)) := by decide
  exact hall bits h

theorem lead?_four {bits : Nat} (h : bits < 5) :
    lead? (UInt8.ofNat (bits + 240)) = some (3, UInt8.ofNat (if bits = 0 then 0x90 else 0x80),
      UInt8.ofNat (if bits = 4 then 0x8F else 0xBF)) := by
  have hall : ∀ bits < 5, lead? (UInt8.ofNat (bits + 240)) =
      some (3, UInt8.ofNat (if bits = 0 then 0x90 else 0x80),
        UInt8.ofNat (if bits = 4 then 0x8F else 0xBF)) := by decide
  exact hall bits h

/-- A character is read as it was written. -/
theorem lossyFrom_char (c : Char) (bytes : Bytes) :
    lossyFrom 0 0 0 0 (String.utf8EncodeChar c ++ bytes) = c :: lossyFrom 0 0 0 0 bytes := by
  have hvalid : c.val.toNat < 0xD800 ∨ 0xDFFF < c.val.toNat ∧ c.val.toNat < 0x110000 := c.valid
  have hchar : Char.ofNat c.val.toNat = c := Char.ofNat_toNat c
  generalize hvalue : c.val.toNat = value at hvalid hchar
  simp only [String.utf8EncodeChar, hvalue]
  split
  case isTrue hone =>
    have hlt : UInt8.ofNat value < 0x80 := by
      rw [UInt8.lt_iff_toNat_lt, toNat_ofNat (by omega)]
      exact Nat.lt_succ_of_le hone
    rw [List.singleton_append, lossyFrom, if_pos hlt, toNat_ofNat (by omega), hchar]
  split
  case isTrue hnot htwo =>
    rw [Nat.mod_eq_of_lt (show value / 64 < 32 by omega), List.cons_append, List.singleton_append,
      lossyFrom_first (by omega) (by omega) (lead?_two (by omega) (by omega))]
    refine (lossyFrom_last 0x80 0xBF (by omega) (by omega) (by omega)
      (by omega)).trans ?_
    rw [show 64 * ((value / 64 + 192) % 2 ^ (6 - 1)) + value % 64 = value by omega, hchar]
  split
  case isTrue hnot htwo hthree =>
    rw [Nat.mod_eq_of_lt (show value / 4096 < 16 by omega), List.cons_append, List.cons_append,
      List.singleton_append,
      lossyFrom_first (by omega) (by omega) (lead?_three (by omega))]
    refine (lossyFrom_next _ _ (by omega) (by split <;> omega) (by split <;> omega)
      (by split <;> omega)).trans ?_
    rw [if_neg (by decide)]
    refine (lossyFrom_last 0x80 0xBF (by omega) (by omega) (by omega)
      (by omega)).trans ?_
    rw [show 64 * (64 * ((value / 4096 + 224) % 2 ^ (6 - 2)) + value / 64 % 64) + value % 64 =
      value by omega, hchar]
  case isFalse hnot htwo hthree =>
    rw [Nat.mod_eq_of_lt (show value / 262144 < 8 by omega), List.cons_append, List.cons_append,
      List.cons_append, List.singleton_append,
      lossyFrom_first (by omega) (by omega) (lead?_four (by omega))]
    refine (lossyFrom_next _ _ (by omega) (by split <;> omega) (by split <;> omega)
      (by split <;> omega)).trans ?_
    rw [if_neg (by decide)]
    refine (lossyFrom_next 0x80 0xBF (by omega) (by omega) (by omega)
      (by omega)).trans ?_
    rw [if_neg (by decide)]
    refine (lossyFrom_last 0x80 0xBF (by omega) (by omega) (by omega)
      (by omega)).trans ?_
    rw [show 64 * (64 * (64 * ((value / 262144 + 240) % 2 ^ (6 - 3)) + value / 4096 % 64) +
      value / 64 % 64) + value % 64 = value by omega, hchar]

/-- Text is read as it was written. -/
theorem lossy_ofText (text : String) : lossy (Bytes.ofText text) = text.toList := by
  rw [← String.ofList_toList (s := text), Bytes.ofText_ofList, String.toList_ofList]
  induction text.toList with
  | nil => rfl
  | cons c characters ih =>
      rw [List.flatMap_cons, lossy, lossyFrom_char]
      exact congrArg (c :: ·) ih

end ScriptModules.Text
