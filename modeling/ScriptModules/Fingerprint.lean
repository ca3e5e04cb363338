import ScriptModules.Format
import ScriptModules.Path
import ScriptModules.Sha256

/-!
# Fingerprints

A fingerprint stands for everything the bytecode of a source depends on: the
source, the version of the engine and the compile options.  It is the SHA-256
digest of a byte string in which each of these is a field with its length in
front, so that no byte can move from one field to the next.

In *portable* mode the source is normalized first.  Every occurrence of the
project's root, with slashes of either kind, becomes `<root>`, and in the rest of
that path backslashes become slashes.  So the fingerprint does not depend on
where the project stands.
-/

namespace ScriptModules

/-- The fingerprint of a source. -/
abbrev Fingerprint := Digest

namespace Fingerprint

/-! ## Portable sources -/

/-- What an occurrence of the root becomes. -/
def placeholder : Bytes := Bytes.ofText "<root>"

/-- Bytes at which a path ends: blanks, quotes, parentheses, commas, semicolons. -/
def isDelimiter (byte : UInt8) : Bool :=
  [0x20, 0x09, 0x0A, 0x0C, 0x0D, 0x22, 0x27, 0x60, 0x28, 0x29, 0x2C, 0x3B].contains byte

/-- A slash for a backslash. -/
def toSlash (byte : UInt8) : UInt8 :=
  if byte = 0x5C then 0x2F else byte

/-- A backslash for a slash. -/
def toBackslash (byte : UInt8) : UInt8 :=
  if byte = 0x2F then 0x5C else byte

/-- A root without the slashes and backslashes at its end. -/
def trimRoot (root : Path) : Bytes :=
  (Bytes.ofText root.toString).reverse.dropWhile (fun b => b == 0x2F || b == 0x5C) |>.reverse

/-- The spellings of a root: as it is, and with slashes of one kind only. -/
def spellings (root : Bytes) : List Bytes :=
  let all := [root, root.map toSlash, root.map toBackslash]
  (all.mergeSort fun a b => decide (a ≤ b)).eraseDups

/-- Replaces roots.  `skip` bytes are still to be passed over, being part of a root
that has been replaced; `inside` tells whether this is the path after a root; `done`
holds what has been written, last byte first. -/
def replaceRoots (roots : List Bytes) : (skip : Nat) → (inside : Bool) → (done : Bytes) → Bytes → Bytes
  | _, _, done, [] => done.reverse
  | skip + 1, inside, done, _ :: rest => replaceRoots roots skip inside done rest
  | 0, inside, done, byte :: rest =>
    if inside && !isDelimiter byte then replaceRoots roots 0 true (toSlash byte :: done) rest
    else match roots.find? fun root => root.isPrefixOf (byte :: rest) with
      | some root => replaceRoots roots (root.length - 1) true (placeholder.reverse ++ done) rest
      | none => replaceRoots roots 0 false (byte :: done) rest

/-- The source without the place of its project.  A root of less than two bytes
would stand in too many places and is not replaced. -/
def normalize (source : Bytes) (root : Path) : Bytes :=
  let root := trimRoot root
  if root.length < 2 then source else replaceRoots (spellings root) 0 false [] source

/-! ## The digest -/

/-- A field with its length in front. -/
def field (bytes : Bytes) : Bytes :=
  Bytes.ofNat 8 bytes.length ++ bytes

/-- The text of compile options. -/
def optionsText (options : CompileOptions) : String :=
  "\x7b\"format\":\"" ++ options.format.name ++ "\",\"kind\":\"" ++ options.kind.name ++
    "\",\"strict\":" ++ toString options.strict ++ ",\"strip_debug\":" ++
    toString options.stripDebug ++ "\x7d"

/-- The byte string that is hashed. -/
def message (source : Bytes) (engine : String) (options : CompileOptions)
    (portableRoot : Option Path) : Bytes :=
  let source := match portableRoot with
    | some root => normalize source root
    | none => source
  field (Bytes.ofText "loadstar-compile-cache") ++ field source ++ field (Bytes.ofText engine) ++
    field (Bytes.ofText (optionsText options)) ++
    field [if portableRoot.isSome then 1 else 0]

/-- The fingerprint of a source for an engine and options. -/
def compute (source : Bytes) (engine : String) (options : CompileOptions)
    (portableRoot : Option Path) : Fingerprint :=
  sha256 (message source engine options portableRoot)

/-- A short form for diagnostics. -/
def shortText (fingerprint : Fingerprint) : String :=
  let digits := String.ofList (fingerprint.toHex.toList.take 12)
  s!"Fingerprint({digits})"

end Fingerprint

end ScriptModules
