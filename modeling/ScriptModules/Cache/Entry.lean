import ScriptModules.Fingerprint

/-!
# Entry files of a compile cache

An entry file holds bytecode and everything needed to tell that it is the right
one:

    "LSBC" | version (2) | fingerprint (32) | length (2) | engine | length (8) | payload | checksum (32)

Numbers stand least significant byte first.  The reader accepts a file only if
nothing is missing and nothing is left over.  The checksum function is a
parameter; caches use SHA-256.
-/

namespace ScriptModules.Cache

/-- Why an entry file is not accepted. -/
inductive EntryFault where
  | truncated
  | badMagic
  | unsupportedVersion (version : Nat)
  | otherFingerprint
  | otherEngine
  /-- The payload is said to be of another length than what is left. -/
  | wrongLength (length : Nat)
  | badChecksum
  deriving DecidableEq, Repr

namespace Entry

/-- The bytes every entry file begins with. -/
def magic : Bytes := [0x4C, 0x53, 0x42, 0x43]

/-- The version of the format. -/
def formatVersion : Nat := 1

/-- The longest engine version that is written in full. -/
def engineLimit : Nat := 65535

/-- The entry file of a payload. -/
def encode (checksum : Bytes → Digest) (fingerprint : Fingerprint) (engine : String)
    (payload : Bytes) : Bytes :=
  let engine := (Bytes.ofText engine).take engineLimit
  magic ++ Bytes.ofNat 2 formatVersion ++ fingerprint.bytes ++ Bytes.ofNat 2 engine.length ++ engine ++
    Bytes.ofNat 8 payload.length ++ payload ++ (checksum payload).bytes

/-- The first `n` bytes and the rest. -/
def takeBytes (n : Nat) (bytes : Bytes) : Except EntryFault (Bytes × Bytes) :=
  if n ≤ bytes.length then .ok (bytes.take n, bytes.drop n) else .error .truncated

/-- The largest number of 64 bits, at which sums of lengths stop. -/
def lengthLimit : Nat := 2 ^ 64 - 1

/-- The payload of an entry file for a fingerprint and an engine. -/
def decode (checksum : Bytes → Digest) (fingerprint : Fingerprint) (engine : String)
    (file : Bytes) : Except EntryFault Bytes := do
  let (start, rest) ← takeBytes 4 file
  if start ≠ magic then throw .badMagic
  let (version, rest) ← takeBytes 2 rest
  if version.toNat ≠ formatVersion then throw (.unsupportedVersion version.toNat)
  let (stated, rest) ← takeBytes 32 rest
  if stated ≠ fingerprint.bytes then throw .otherFingerprint
  let (engineLength, rest) ← takeBytes 2 rest
  let (engineBytes, rest) ← takeBytes engineLength.toNat rest
  if engineBytes ≠ Bytes.ofText engine then throw .otherEngine
  let (length, rest) ← takeBytes 8 rest
  if rest.length ≠ min (length.toNat + 32) lengthLimit then throw (.wrongLength length.toNat)
  let (payload, rest) ← takeBytes length.toNat rest
  let (sum, _) ← takeBytes 32 rest
  if sum ≠ (checksum payload).bytes then throw .badChecksum
  return payload

end Entry

end ScriptModules.Cache
