/-!
# Blank characters

The characters with the Unicode property `White_Space`, and trimming by them.
The property is wider than `Char.isWhitespace`: it also holds of the vertical
tab, the form feed and the blanks outside ASCII.
-/

namespace ScriptModules

/-- The characters with the property `White_Space`. -/
def isBlank (c : Char) : Bool :=
  let n := c.toNat
  (0x09 ≤ n && n ≤ 0x0D) || n == 0x20 || n == 0x85 || n == 0xA0 || n == 0x1680 ||
    (0x2000 ≤ n && n ≤ 0x200A) || n == 0x2028 || n == 0x2029 || n == 0x202F ||
    n == 0x205F || n == 0x3000

/-- Every character that is blank in ASCII is blank. -/
theorem isBlank_of_isWhitespace {c : Char} (h : c.isWhitespace = true) : isBlank c = true := by
  simp only [Char.isWhitespace, Bool.or_eq_true, decide_eq_true_eq] at h
  rcases h with ((rfl | rfl) | rfl) | rfl <;> decide

/-- The characters without the blank ones at the front. -/
def trimStart (text : List Char) : List Char :=
  text.dropWhile isBlank

/-- The characters without the blank ones at either end. -/
def trim (text : List Char) : List Char :=
  (trimStart (trimStart text).reverse).reverse

example : trim "\u2003 a b\x0b\n".toList = "a b".toList := by decide

end ScriptModules
