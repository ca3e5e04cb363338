import ScriptModules.Json.Value
import ScriptModules.Decimal.Shortest

/-!
# Writing JSON

The compact form has no blanks at all.  The indented form puts every item and
member on a line of its own, two spaces deeper than its container, and a space
after the colon; empty containers stay on one line.

A binary64 number is written with its shortest digits and always shows that it
is one: by a point, or by an exponent.  It is positional when its first digit
stands between the fifth place after the point and the sixteenth before it.
-/

namespace ScriptModules.Json

/-! ## Strings and numbers -/

/-- A character as it stands in a string.  Quotes, backslashes and control
characters are escaped, with a letter where there is one. -/
def escape (c : Char) : List Char :=
  if c = '"' then ['\\', '"']
  else if c = '\\' then ['\\', '\\']
  else if c = '\x08' then ['\\', 'b']
  else if c = '\x0c' then ['\\', 'f']
  else if c = '\n' then ['\\', 'n']
  else if c = '\r' then ['\\', 'r']
  else if c = '\t' then ['\\', 't']
  else if c.toNat < 0x20 then
    ['\\', 'u', '0', '0', Text.hexDigit (c.toNat / 16), Text.hexDigit (c.toNat % 16)]
  else [c]

/-- A string in quotes. -/
def quoted (text : String) : List Char :=
  '"' :: (text.toList.flatMap escape ++ ['"'])

/-- The decimal digits of a number. -/
def decimal (n : Nat) : List Char :=
  (toString n).toList

/-- An integer. -/
def ofInt (n : Int) : List Char :=
  if n < 0 then '-' :: decimal n.natAbs else decimal n.natAbs

/-- Shortest digits with a point or an exponent. -/
def ofScientific (s : Decimal.Scientific) : List Char :=
  let ds := decimal s.digits
  let place : Int := ds.length + s.exponent
  if s.digits = 0 then ['0', '.', '0']
  else if 0 ≤ s.exponent ∧ place ≤ 16 then ds ++ List.replicate s.exponent.toNat '0' ++ ['.', '0']
  else if 0 < place ∧ place ≤ 16 then ds.take place.toNat ++ '.' :: ds.drop place.toNat
  else if -5 < place ∧ place ≤ 0 then ['0', '.'] ++ List.replicate (-place).toNat '0' ++ ds
  else
    let power := place - 1
    let fraction := if ds.length = 1 then [] else '.' :: ds.drop 1
    let sign := if power < 0 then '-' else '+'
    ds.take 1 ++ fraction ++ ['e', sign] ++ decimal power.natAbs

/-- A finite binary64 number. -/
def ofFloat (f : Float) : List Char :=
  let bits := f.toBits
  let digits := ofScientific (Decimal.shortest (bits &&& 0x7FFFFFFFFFFFFFFF))
  if bits >>> 63 = 0 then digits else '-' :: digits

/-! ## The compact form -/

mutual

/-- The compact form of a value. -/
def compact : Json → List Char
  | .null => ['n', 'u', 'l', 'l']
  | .bool true => ['t', 'r', 'u', 'e']
  | .bool false => ['f', 'a', 'l', 's', 'e']
  | .integer n => ofInt n
  | .float f => ofFloat f
  | .string text => quoted text
  | .array [] => ['[', ']']
  | .array (item :: items) => '[' :: (compact item ++ compactItems items)
  | .object [] => ['\x7b', '\x7d']
  | .object ((key, value) :: members) =>
    '\x7b' :: (quoted key ++ ':' :: compact value ++ compactMembers members)

/-- The items after the first, and the closing bracket. -/
def compactItems : List Json → List Char
  | [] => [']']
  | item :: items => ',' :: (compact item ++ compactItems items)

/-- The members after the first, and the closing brace. -/
def compactMembers : List (String × Json) → List Char
  | [] => ['\x7d']
  | (key, value) :: members =>
    ',' :: (quoted key ++ ':' :: compact value ++ compactMembers members)

end

/-- The compact text of a value. -/
def render (json : Json) : String :=
  String.ofList json.compact

/-! ## The indented form -/

/-- A line break and the blanks before what stands `depth` deep. -/
def newline (depth : Nat) : List Char :=
  '\n' :: List.replicate (2 * depth) ' '

mutual

/-- The indented form of a value that stands `depth` deep. -/
def indented (depth : Nat) : Json → List Char
  | .array (item :: items) =>
    '[' :: (newline (depth + 1) ++ indented (depth + 1) item ++ indentedItems depth items)
  | .object ((key, value) :: members) =>
    '\x7b' :: (newline (depth + 1) ++ quoted key ++ ':' :: ' ' :: indented (depth + 1) value ++
      indentedMembers depth members)
  | json => compact json

/-- The items after the first, and the closing bracket. -/
def indentedItems (depth : Nat) : List Json → List Char
  | [] => newline depth ++ [']']
  | item :: items =>
    ',' :: (newline (depth + 1) ++ indented (depth + 1) item ++ indentedItems depth items)

/-- The members after the first, and the closing brace. -/
def indentedMembers (depth : Nat) : List (String × Json) → List Char
  | [] => newline depth ++ ['\x7d']
  | (key, value) :: members =>
    ',' :: (newline (depth + 1) ++ quoted key ++ ':' :: ' ' :: indented (depth + 1) value ++
      indentedMembers depth members)

end

/-- The indented text of a value. -/
def renderIndented (json : Json) : String :=
  String.ofList (json.indented 0)

end ScriptModules.Json
