import Mathlib
import ScriptModules.Bytes
import ScriptModules.Text.Numeral

/-!
# Decimal digits

The digits that are written for a number, and the number that is read from them.  Digits end
at the first character that is none.
-/

namespace ScriptModules.Text

/-! ## Digits of a number -/

theorem isDigit_of_mem_toDigits {n : Nat} {c : Char} (h : c ∈ Nat.toDigits 10 n) :
    c.isDigit = true :=
  Nat.isDigit_of_mem_toDigits (by decide) (by decide) h

/-- Only zero is written with a zero at the front. -/
theorem head_toDigits {n : Nat} (h : 0 < n) : (Nat.toDigits 10 n).head? ≠ some '0' := by
  induction n using Nat.strongRecOn with
  | ind n ih =>
      rw [Nat.toDigits_eq_if (by decide)]
      split
      · simp
        omega
      · rw [List.head?_append_of_ne_nil _ Nat.toDigits_ne_nil]
        exact ih (n / 10) (by omega) (by omega)

theorem hexValue_of_isDigit {c : Char} (h : c.isDigit = true) : hexValue c = c.toNat - 48 := by
  have hle : c ≤ '9' := by
    simp only [Char.isDigit, Bool.and_eq_true, decide_eq_true_eq] at h
    exact h.2
  rw [hexValue, if_pos hle]

/-- What digits stand for. -/
theorem numeral_eq_ofDigitChars {digits : List Char} (h : ∀ c ∈ digits, c.isDigit = true) :
    numeral 10 digits = Nat.ofDigitChars 10 digits 0 := by
  rw [Nat.ofDigitChars_eq_foldl, numeral]
  refine List.foldl_ext _ _ 0 fun n c hc => ?_
  rw [hexValue_of_isDigit (h c hc)]
  rfl

/-! ## Where digits end -/

/-- A text does not begin with a digit. -/
def EndsDigits (rest : List Char) : Prop :=
  ∀ c ∈ rest.head?, c.isDigit = false

theorem endsDigits_cons {c : Char} {rest : List Char} (h : c.isDigit = false) :
    EndsDigits (c :: rest) := by
  intro other hother
  cases hother
  exact h

theorem takeWhile_isDigit_append {digits rest : List Char}
    (hd : ∀ c ∈ digits, c.isDigit = true) (hr : EndsDigits rest) :
    (digits ++ rest).takeWhile Char.isDigit = digits := by
  rw [List.takeWhile_append_of_pos hd]
  cases rest with
  | nil => simp
  | cons c rest => simp [hr c rfl]

theorem dropWhile_isDigit_append {digits rest : List Char}
    (hd : ∀ c ∈ digits, c.isDigit = true) (hr : EndsDigits rest) :
    (digits ++ rest).dropWhile Char.isDigit = rest := by
  rw [List.dropWhile_append_of_pos hd]
  cases rest with
  | nil => rfl
  | cons c rest => simp [hr c rfl]

end ScriptModules.Text
