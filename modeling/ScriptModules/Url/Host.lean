import ScriptModules.Bytes
import ScriptModules.Url.Domain

/-!
# Hosts

Which texts may stand as the host of a URL (WHATWG URL Standard).  A host of a
special scheme is a domain, an IPv4 address or an IPv6 address in brackets.  A
domain that ends in a number is an IPv4 address.  A host of another scheme is
opaque, apart from addresses in brackets.
-/

namespace ScriptModules.Url

open ScriptModules.Text

/-! ## Percent signs -/

/-- The bytes of a text in which `%` and two hexadecimal digits stand for a byte. -/
def percentDecode : List Char → Bytes
  | '%' :: a :: b :: rest =>
    if isHexDigit a ∧ isHexDigit b then UInt8.ofNat (hexNumber [a, b]) :: percentDecode rest
    else Bytes.ofText "%" ++ percentDecode (a :: b :: rest)
  | c :: rest => Bytes.ofText (String.singleton c) ++ percentDecode rest
  | [] => []

/-! ## IPv4 -/

/-- A part of an IPv4 address: octal after a zero, hexadecimal after `0x`.  The
outer option is none if this is no number; the inner is none if it is too large. -/
def ipv4Number? (text : List Char) : Option (Option Nat) :=
  let (base, digits) : Nat × List Char := match text with
    | '0' :: 'x' :: rest => (16, rest)
    | '0' :: 'X' :: rest => (16, rest)
    | '0' :: d :: rest => (8, d :: rest)
    | text => (10, text)
  let value := numeralUpTo (2 ^ 32) base digits
  if text = [] then none
  else if digits.all fun c => isHexDigit c && hexValue c < base then
    some (if value < 2 ^ 32 then some value else none)
  else none

/-- Whether the last part of a domain is a number, so that the whole must be an
IPv4 address. -/
def endsInNumber (domain : List Char) : Bool :=
  let last := match (piecesAt '.' domain).reverse with
    | [] :: part :: _ => part
    | part :: _ => part
    | [] => []
  (last != [] && last.all Char.isDigit) || (ipv4Number? last).isSome

/-- Whether a text is an IPv4 address of one to four parts, the last of which fills
the bytes that the others leave. -/
def isIpv4 (domain : List Char) : Bool :=
  let parts := piecesAt '.' domain
  let parts := if parts.getLast? = some [] then parts.dropLast else parts
  match parts.mapM fun part => (ipv4Number? part).join with
  | none => false
  | some numbers =>
    numbers.length ≤ 4 && numbers.dropLast.all (· ≤ 255) &&
      (numbers.getLast?.any fun last => last < 256 ^ (5 - numbers.length))

/-! ## IPv6 -/

/-- Whether a text is a group of an IPv6 address. -/
def isGroup (text : List Char) : Bool :=
  text != [] && text.length ≤ 4 && text.all isHexDigit

/-- Whether a text is an IPv4 address as it may end an IPv6 address: four decimal
bytes without leading zeros. -/
def isDottedQuad (text : List Char) : Bool :=
  let parts := piecesAt '.' text
  parts.length == 4 && parts.all fun part =>
    part != [] && part.length ≤ 3 && part.all Char.isDigit &&
      !(part.length != 1 && part.head? == some '0') &&
      numeral 10 part ≤ 255

/-- The number of groups a list of pieces stands for, if all are well formed.  An
IPv4 address at the end takes the place of two. -/
def groups? : List (List Char) → Option Nat
  | [] => some 0
  | [last] => if isGroup last then some 1 else if isDottedQuad last then some 2 else none
  | piece :: pieces => if isGroup piece then (groups? pieces).map (· + 1) else none

/-- Splits a text at the first double colon. -/
def splitDoubleColon : List Char → Option (List Char × List Char)
  | ':' :: ':' :: rest => some ([], rest)
  | c :: rest => (splitDoubleColon rest).map fun (before, after) => (c :: before, after)
  | [] => none

/-- Whether a text is an IPv6 address: eight groups, or fewer with a double colon
for the missing ones. -/
def isIpv6 (text : List Char) : Bool :=
  let groupsOf (part : List Char) : Option Nat :=
    if part = [] then some 0 else groups? (piecesAt ':' part)
  match splitDoubleColon text with
  | none => groups? (piecesAt ':' text) == some 8
  | some (before, after) =>
    !before.contains '.' && match groupsOf before, groupsOf after with
      | some m, some n => m + n ≤ 7
      | _, _ => false

/-! ## Hosts -/

/-- A host as far as it matters for local files. -/
inductive Host where
  /-- No host at all. -/
  | absent
  /-- The host `localhost`. -/
  | localhost
  /-- Any other host. -/
  | other
  deriving DecidableEq, Repr

/-- Characters that no opaque host contains. -/
def isForbiddenInHost (c : Char) : Bool :=
  ['\x00', '\t', '\n', '\r', ' ', '#', '/', ':', '<', '>', '?', '@', '[', '\\', ']', '^',
    '|'].contains c

/-- The address in brackets, if the text begins with one. -/
def bracketed? : List Char → Option (Option Host)
  | '[' :: rest =>
    match rest.reverse with
    | ']' :: inside => some (if isIpv6 inside.reverse then some .other else none)
    | _ => some none
  | _ => none

/-- The host of a URL with a special scheme. -/
def host? (text : List Char) : Option Host :=
  match bracketed? text with
  | some answer => answer
  | none => do
    let decoded ← (percentDecode text).text?
    let domain ← Domain.ofText? decoded.toList
    if domain = [] then none
    else if endsInNumber domain then
      if isIpv4 domain then some .other else none
    else some (if String.ofList domain = "localhost" then .localhost else .other)

/-- The host of a URL with another scheme. -/
def opaqueHost? (text : List Char) : Option Host :=
  match bracketed? text with
  | some answer => answer
  | none =>
    if text.any isForbiddenInHost then none
    else some (if text = [] then .absent else .other)

end ScriptModules.Url
