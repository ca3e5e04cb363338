import ScriptModules.Text.Composed
import ScriptModules.Text.Direction
import ScriptModules.Text.Joining
import ScriptModules.Url.Mapping
import ScriptModules.Url.Punycode

/-!
# Domains

The domain that a text names (UTS #46, for domains that are looked up).  A domain is
a row of *labels* with points between them.  Every character is replaced by what it
counts as, the text is composed, and then each label has to be well formed:

* A label that begins with `xn--` has to be in ASCII.  It stands for the label that
  the rest of it encodes.  That one has to have a character outside ASCII, and
  replacing and composing must not change it.
* A label does not begin with a mark.
* A joiner stands only where it can have an effect.
* If any label is written from right to left, no label mixes directions (RFC 5893).
* A label outside ASCII is not too long.

Empty labels are well formed.
-/

namespace ScriptModules.Url.Domain

open ScriptModules.Text

/-! ## Replacing -/

/-- The text in which every character is replaced by what it counts as. -/
def mapped? (text : List Char) : Option (List Char) :=
  (text.mapM domainChars?).map fun chars => composed chars.flatten

/-- Whether replacing and composing change nothing. -/
def isMapped (text : List Char) : Bool :=
  text.all (fun c => domainChars? c == some [c]) && composed text == text

/-- Characters that no domain contains. -/
def isForbidden (c : Char) : Bool :=
  c.toNat ≤ 0x20 || c.toNat == 0x7F ||
    ['#', '/', ':', '<', '>', '?', '@', '[', '\\', ']', '^', '|', '%'].contains c

/-! ## Encoded labels -/

/-- What an encoded label begins with. -/
def encodedPrefix : List Char := ['x', 'n', '-', '-']

/-- The most characters after the beginning of an encoded label. -/
def encodedLimit : Nat := 2000

/-- The label that a piece of a domain stands for. -/
def label? (piece : List Char) : Option (List Char) :=
  if encodedPrefix.isPrefixOf piece then do
    let code := piece.drop encodedPrefix.length
    guard (code ≠ [] ∧ code.getLast? ≠ some '-' ∧ code.length ≤ encodedLimit)
    guard (code.all fun c => c.toNat < 0x80)
    let label ← Punycode.decode? code
    guard (isMapped label)
    return label
  else some piece

/-! ## Joiners -/

/-- The character that keeps two letters from being joined. -/
def nonJoiner : Char := '\u200c'

/-- The character that joins two letters. -/
def joiner : Char := '\u200d'

/-- Whether the first character of a text that does not stand aside has one of the
given joining types. -/
def joins (types text : List Char) : Bool :=
  match text.dropWhile (joiningType · == 'T') with
  | c :: _ => types.contains (joiningType c)
  | [] => false

/-- Whether a joiner has an effect between two texts, the first of which is given
backwards.  Both joiners have one after a sign that takes away a vowel.  The other
place is between two letters that would be joined, for the one that keeps them
apart. -/
def joinerFits (c : Char) (before after : List Char) : Bool :=
  (before.head?.any fun sign => combiningClass sign == viramaClass) ||
    (c == nonJoiner && joins ['L', 'D'] before && joins ['R', 'D'] after)

/-- Whether all joiners of a text have an effect.  `before` holds the characters
before it, last first. -/
def joinersFit : (before : List Char) → List Char → Bool
  | _, [] => true
  | before, c :: cs =>
    ((c != nonJoiner && c != joiner) || joinerFits c before cs) && joinersFit (c :: before) cs

/-! ## Direction -/

/-- Whether a class of characters makes a domain one that is written from right to
left. -/
def isRightward (d : Direction) : Bool :=
  [.right, .arabic, .arabicNumber].contains d

/-- The classes that every label may have. -/
def sharedClasses : List Direction :=
  [.europeanNumber, .separator, .commonSeparator, .terminator, .other, .neutral, .nonspacing]

/-- Whether a label does not mix directions.  Its first character decides on its
direction.  Marks at its end do not count. -/
def directionFits (label : List Char) : Bool :=
  match label.map direction with
  | [] => true
  | first :: rest =>
    let rest := rest.reverse.dropWhile (· == .nonspacing)
    let fits (inside atEnd : List Direction) : Bool :=
      rest.all (inside.contains ·) && rest.head?.all (atEnd.contains ·)
    match first with
    | .left => fits (.left :: sharedClasses) [.left, .europeanNumber]
    | .right | .arabic =>
      fits (.right :: .arabic :: .arabicNumber :: sharedClasses)
          [.right, .arabic, .europeanNumber, .arabicNumber] &&
        !(rest.contains .europeanNumber && rest.contains .arabicNumber)
    | _ => false

/-! ## Domains -/

/-- The most characters of a label outside ASCII. -/
def labelLimit : Nat := 1000

/-- Whether a label is well formed, apart from direction. -/
def isLabel (label : List Char) : Bool :=
  !label.head?.any isMark && joinersFit [] label &&
    (label.all (·.toNat < 0x80) || label.length ≤ labelLimit)

/-- The domain that a text names, with encoded labels as they are. -/
def ofText? (text : List Char) : Option (List Char) := do
  let domain ← mapped? text
  let labels ← (piecesAt '.' domain).mapM label?
  guard (labels.all isLabel && !domain.any isForbidden)
  guard (!(labels.any fun label => label.any fun c => isRightward (direction c)) ||
    labels.all directionFits)
  return domain

end ScriptModules.Url.Domain
