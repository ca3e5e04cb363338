import ScriptModules.Bytes

/-!
# Reading bytes as text, whatever they are

Bytes that are not UTF-8 become the replacement character.  One such character
stands for each longest run that begins a character and cannot go on.
-/

namespace ScriptModules.Text

/-- The number of bytes after a first byte, and the range of the next one. -/
def lead? (byte : UInt8) : Option (Nat × UInt8 × UInt8) :=
  if 0xC2 ≤ byte && byte ≤ 0xDF then some (1, 0x80, 0xBF)
  else if byte = 0xE0 then some (2, 0xA0, 0xBF)
  else if byte = 0xED then some (2, 0x80, 0x9F)
  else if 0xE1 ≤ byte && byte ≤ 0xEF then some (2, 0x80, 0xBF)
  else if byte = 0xF0 then some (3, 0x90, 0xBF)
  else if 0xF1 ≤ byte && byte ≤ 0xF3 then some (3, 0x80, 0xBF)
  else if byte = 0xF4 then some (3, 0x80, 0x8F)
  else none

/-- Reads bytes.  `missing` more bytes are expected for the character begun with
`value`, the next of them between `low` and `high`; none are between characters. -/
def lossyFrom : (missing : Nat) → (value : Nat) → (low high : UInt8) → Bytes → List Char
  | 0, _, _, _, [] => []
  | _ + 1, _, _, _, [] => ['\ufffd']
  | 0, _, _, _, byte :: bytes =>
    if byte < 0x80 then Char.ofNat byte.toNat :: lossyFrom 0 0 0 0 bytes
    else match lead? byte with
      | some (n, low, high) => lossyFrom n (byte.toNat % 2 ^ (6 - n)) low high bytes
      | none => '\ufffd' :: lossyFrom 0 0 0 0 bytes
  | missing + 1, value, low, high, byte :: bytes =>
    if low ≤ byte && byte ≤ high then
      let value := 64 * value + (byte.toNat - 128)
      if missing = 0 then Char.ofNat value :: lossyFrom 0 0 0 0 bytes
      else lossyFrom missing value 0x80 0xBF bytes
    else if byte < 0x80 then '\ufffd' :: Char.ofNat byte.toNat :: lossyFrom 0 0 0 0 bytes
    else match lead? byte with
      | some (n, low, high) => '\ufffd' :: lossyFrom n (byte.toNat % 2 ^ (6 - n)) low high bytes
      | none => '\ufffd' :: '\ufffd' :: lossyFrom 0 0 0 0 bytes

/-- The text bytes are, with replacements. -/
def lossy (bytes : Bytes) : List Char :=
  lossyFrom 0 0 0 0 bytes

end ScriptModules.Text
