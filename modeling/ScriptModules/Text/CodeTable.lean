import ScriptModules.Text.Numeral
import ScriptModules.Text.Split

/-!
# Tables of code points

A table gives a value to some code points.  It is a list of *runs* of code points
with one value, in order and apart from each other, so a look-up can halve the
table again and again.

Tables are written as words between spaces.  A word begins with a code point, or
with the first and the last of a run, in hexadecimal; after a colon comes the
value.  `41-5A:L` gives `L` to 26 code points.  A table of *sequences* gives a list
of code points to each of its code points.  Its words begin with the first code
point of a run, and the lists of the run follow, with commas between them:
`BC:31+2044+34,31+2044+32` has an entry for BC and one for BD.
-/

namespace ScriptModules.Text

/-- Code points that have the same value. -/
structure Run (α : Type) where
  /-- The first code point. -/
  first : Nat
  /-- The last code point. -/
  last : Nat
  /-- What they have in common. -/
  value : α

/-- A table of runs in order. -/
abbrev CodeTable (α : Type) := Array (Run α)

namespace CodeTable

variable {α : Type}

/-! ## Reading -/

/-- The parts of a word before and after a mark.  Without the mark the second part
is empty. -/
def partsAt (mark : Char) (word : List Char) : List Char × List Char :=
  let front := word.takeWhile (· != mark)
  (front, word.drop (front.length + 1))

/-- The words of lines. -/
def words (lines : List String) : List (List Char) :=
  lines.flatMap fun line => piecesAt ' ' line.toList

/-- The run of a word. -/
def readRun (value : List Char → α) (word : List Char) : Run α :=
  let (range, text) := partsAt ':' word
  let (first, last) := partsAt '-' range
  ⟨hexNumber first, hexNumber (if last = [] then first else last), value text⟩

/-- The table with the runs in the given lines. -/
def ofLines (value : List Char → α) (lines : List String) : CodeTable α :=
  ((words lines).map (readRun value)).toArray

/-- A table whose values do not matter. -/
def setOfLines (lines : List String) : CodeTable Unit :=
  ofLines (fun _ => ()) lines

/-- The characters of code points with plus signs between them. -/
def readSequence (text : List Char) : List Char :=
  (piecesAt '+' text).map fun digits => Char.ofNat (hexNumber digits)

/-- The entries of a word, for a code point and those after it. -/
def readSequences (word : List Char) : List (Run (List Char)) :=
  let (first, texts) := partsAt ':' word
  (piecesAt ',' texts).zipIdx.map fun (text, i) =>
    ⟨hexNumber first + i, hexNumber first + i, readSequence text⟩

/-- The table of sequences in the given lines. -/
def sequencesOfLines (lines : List String) : CodeTable (List Char) :=
  ((words lines).flatMap readSequences).toArray

/-! ## Looking up -/

/-- The number of runs that begin at a code point or before it.  It is known to be
between `low` and `high`. -/
def rank (table : CodeTable α) (code : Nat) (low high : Nat) : Nat :=
  if low < high then
    let middle := (low + high) / 2
    if table[middle]?.any fun run => run.first ≤ code then rank table code (middle + 1) high
    else rank table code low middle
  else low
termination_by high - low

/-- The run that holds a character. -/
def find? (table : CodeTable α) (c : Char) : Option (Run α) :=
  match table.rank c.toNat 0 table.size with
  | 0 => none
  | n + 1 => table[n]?.filter fun run => c.toNat ≤ run.last

/-- The value of a character. -/
def value? (table : CodeTable α) (c : Char) : Option α :=
  (table.find? c).map Run.value

/-- Whether a character is in a table. -/
def holds (table : CodeTable α) (c : Char) : Bool :=
  (table.find? c).isSome

end CodeTable

end ScriptModules.Text
