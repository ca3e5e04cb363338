/-!
# Digits and numerals

Digits of bases up to 16.  Hexadecimal digits of either case are read; lowercase ones
are written.

A text may hold more digits than any number that matters has.  Reading it up to a
bound gives the number cut off there, and never works with a larger one.
-/

namespace ScriptModules.Text

/-! ## Digits -/

/-- Whether a character is a hexadecimal digit of either case. -/
def isHexDigit (c : Char) : Bool :=
  c.isDigit || ('a' ≤ c && c ≤ 'f') || ('A' ≤ c && c ≤ 'F')

/-- The number a digit stands for. -/
def hexValue (c : Char) : Nat :=
  if c ≤ '9' then c.toNat - 48 else if c ≤ 'F' then c.toNat - 55 else c.toNat - 87

/-- The digit of a number below 16. -/
def hexDigit (n : Nat) : Char :=
  if n < 10 then Char.ofNat (48 + n) else Char.ofNat (87 + n)

/-- A digit that was written stands for its number. -/
theorem hexValue_hexDigit {n : Nat} (h : n < 16) : hexValue (hexDigit n) = n := by
  have all : ∀ m ∈ List.range 16, hexValue (hexDigit m) = m := by decide
  exact all n (List.mem_range.mpr h)

/-! ## Numerals -/

/-- The number that digits of a base stand for, the highest first. -/
def numeral (base : Nat) (digits : List Char) : Nat :=
  digits.foldl (fun n d => base * n + hexValue d) 0

/-- The number that hexadecimal digits stand for. -/
def hexNumber (digits : List Char) : Nat :=
  numeral 16 digits

/-- The number that digits stand for, or the bound if it is larger. -/
def numeralUpTo (bound base : Nat) (digits : List Char) : Nat :=
  digits.foldl (fun n d => min bound (base * n + hexValue d)) 0

/-- Another digit makes no difference to a number that is past the bound. -/
theorem min_mul_min_add (bound base n d : Nat) (h : 0 < base) :
    min bound (base * min bound n + d) = min bound (base * n + d) := by
  rcases Nat.le_total n bound with hn | hn
  · rw [Nat.min_eq_right hn]
  · have hb : bound ≤ base * bound := Nat.le_mul_of_pos_left bound h
    have hm : base * bound ≤ base * n := Nat.mul_le_mul_left base hn
    rw [Nat.min_eq_left hn]
    omega

/-- Reading up to a bound cuts the number off there. -/
theorem numeralUpTo_eq_min (bound base : Nat) (digits : List Char) (h : 0 < base) :
    numeralUpTo bound base digits = min bound (numeral base digits) := by
  have all : ∀ (ds : List Char) (n : Nat),
      ds.foldl (fun n d => min bound (base * n + hexValue d)) (min bound n) =
        min bound (ds.foldl (fun n d => base * n + hexValue d) n) := by
    intro ds
    induction ds with
    | nil => intro n; rfl
    | cons d ds ih =>
      intro n
      simp only [List.foldl_cons]
      rw [min_mul_min_add bound base n _ h]
      exact ih _
  have start := all digits 0
  rwa [Nat.min_eq_right (Nat.zero_le bound)] at start

end ScriptModules.Text
