/-!
# Byte strings

Sources, bytecode and cache entries are byte strings.  A byte string is a list
of bytes, so that an encoder is built by `++` and a decoder by taking bytes off
the front.

Two encodings of numbers and text live here: a natural number as a fixed number
of bytes, least significant first, and text as UTF-8.
-/

namespace ScriptModules

-- Powers and sums of numbers are those of `Nat` itself, also next to an algebra with its own.
attribute [default_instance 20000] instPowNat
attribute [scoped instance (high)] instPowNat Zero.ofOfNat0

/-- A byte string. -/
abbrev Bytes := List UInt8

namespace Bytes

/-! ## Text -/

/-- The UTF-8 encoding of a text. -/
def ofText (text : String) : Bytes :=
  text.toUTF8.data.toList

/-- The text whose UTF-8 encoding this is, if there is one. -/
def text? (bytes : Bytes) : Option String :=
  String.fromUTF8? ⟨bytes.toArray⟩

/-! ## Numbers, least significant byte first -/

/-- The lowest `width` bytes of a number. -/
def ofNat : (width : Nat) → Nat → Bytes
  | 0, _ => []
  | width + 1, n => UInt8.ofNat (n % 256) :: ofNat width (n / 256)

/-- The number with the given bytes. -/
def toNat : Bytes → Nat
  | [] => 0
  | byte :: bytes => byte.toNat + 256 * toNat bytes

@[simp] theorem length_ofNat (width n : Nat) : (ofNat width n).length = width := by
  induction width generalizing n with
  | zero => rfl
  | succ width ih => simp [ofNat, ih]

/-- Reading back gives the number without the bits that did not fit. -/
theorem toNat_ofNat (width n : Nat) : toNat (ofNat width n) = n % 256 ^ width := by
  induction width generalizing n with
  | zero => simp [ofNat, toNat, Nat.mod_one]
  | succ width ih =>
    have h : n % 256 % 2 ^ 8 = n % 256 := Nat.mod_eq_of_lt (Nat.mod_lt n (by decide))
    rw [ofNat, toNat, ih, UInt8.toNat_ofNat', h, Nat.pow_succ', Nat.mod_mul]

/-- Bytes are the encoding of the number they name, at their own width. -/
theorem ofNat_toNat (bytes : Bytes) : ofNat bytes.length (toNat bytes) = bytes := by
  induction bytes with
  | nil => rfl
  | cons byte bytes ih =>
    have h : byte.toNat < 256 := byte.toNat_lt
    rw [List.length_cons, ofNat, toNat]
    congr 1
    · rw [Nat.add_mul_mod_self_left, Nat.mod_eq_of_lt h, UInt8.ofNat_toNat]
    · rw [Nat.add_mul_div_left _ _ (by decide), Nat.div_eq_of_lt h, Nat.zero_add, ih]

end Bytes

end ScriptModules
