import ScriptModules.Text.Numeral
import ScriptModules.Text.Split

/-!
# Semantic versions

Versions as in Semantic Versioning 2.0: three numbers, an optional pre-release
after a hyphen and optional build metadata after a plus.  Numbers fit 64 bits and
have no leading zero; the same holds of the numeric parts of a pre-release, except
that these may be of any length.
-/

namespace ScriptModules.Package

/-- A semantic version. -/
structure Version where
  major : Nat
  minor : Nat
  patch : Nat
  /-- The pre-release, empty if there is none. -/
  pre : String
  /-- The build metadata, empty if there are none. -/
  build : String
  deriving DecidableEq, Repr

namespace Version

/-- A number at the front and the text after it. -/
def number? (text : List Char) : Option (Nat × List Char) :=
  let ds := text.takeWhile Char.isDigit
  let n := Text.numeralUpTo (2 ^ 64) 10 ds
  if ds = [] ∨ (ds.head? = some '0' ∧ ds.length ≠ 1) ∨ 2 ^ 64 ≤ n then none
  else some (n, text.drop ds.length)

/-- The text after a point. -/
def point? : List Char → Option (List Char)
  | '.' :: rest => some rest
  | _ => none

/-- The characters of identifiers and the points between them. -/
def isIdentifierChar (c : Char) : Bool :=
  c.isAlphanum || c == '-'

/-- Whether a part may stand in a pre-release (`strict`) or in build metadata. -/
def isPart (strict : Bool) (part : List Char) : Bool :=
  part != [] && part.all isIdentifierChar &&
    !(strict && part.all Char.isDigit && part.head? == some '0' && part.length != 1)

/-- The parts between points. -/
def parts (text : List Char) : List (List Char) :=
  Text.piecesAt '.' text

/-- Build metadata, which run to the end. -/
def build? (text : List Char) : Option String :=
  if (parts text).all (isPart false) then some (String.ofList text) else none

/-- What follows the three numbers. -/
def suffix? : List Char → Option (String × String)
  | [] => some ("", "")
  | '+' :: rest => (build? rest).map ("", ·)
  | '-' :: rest =>
    let pre := rest.takeWhile (· != '+')
    if (parts pre).all (isPart true) then
      match rest.drop pre.length with
      | '+' :: metadata => (build? metadata).map (String.ofList pre, ·)
      | _ => some (String.ofList pre, "")
    else none
  | _ => none

/-- The version a text is. -/
def ofText? (text : String) : Option Version := do
  let (major, rest) ← number? text.toList
  let (minor, rest) ← number? (← point? rest)
  let (patch, rest) ← number? (← point? rest)
  let (pre, build) ← suffix? rest
  return ⟨major, minor, patch, pre, build⟩

end Version

end ScriptModules.Package
