import ScriptModules.Bytes
import ScriptModules.Text.Numeral

/-!
# Digests

A digest is a string of exactly 32 bytes.  Its written form is 64 hexadecimal
digits: lowercase when written, either case when read.
-/

namespace ScriptModules

/-- A 32-byte digest. -/
structure Digest where
  /-- The bytes. -/
  bytes : Bytes
  /-- There are 32 of them. -/
  length_eq : bytes.length = 32
  deriving DecidableEq

namespace Digest

/-! ## Hexadecimal text -/

/-- Two digits per byte, the high half first. -/
def hexOfBytes (bytes : Bytes) : List Char :=
  bytes.flatMap fun byte => [Text.hexDigit (byte.toNat / 16), Text.hexDigit (byte.toNat % 16)]

/-- The digits of bytes as a text. -/
def hexText (bytes : Bytes) : String := String.ofList (hexOfBytes bytes)

/-- The bytes an even number of digits names. -/
def bytesOfHex? : List Char → Option Bytes
  | [] => some []
  | [_] => none
  | high :: low :: rest =>
    if Text.isHexDigit high && Text.isHexDigit low then
      (bytesOfHex? rest).map (UInt8.ofNat (Text.hexNumber [high, low]) :: ·)
    else none

/-- The 64 lowercase digits of a digest. -/
def toHex (digest : Digest) : String :=
  hexText digest.bytes

/-- The digest named by 64 digits; anything else names none. -/
def ofHex? (text : String) : Option Digest := do
  let bytes ← bytesOfHex? text.toList
  if h : bytes.length = 32 then return ⟨bytes, h⟩ else none

end Digest

end ScriptModules
