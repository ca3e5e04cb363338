import ScriptModules.Bytes
import ScriptModules.Text.Numeral

/-!
# JSON as written

The grammar of JSON (RFC 8259), read into a tree that keeps what was written:
the digits of a number, the characters between the quotes of a string, members
in their order with repetitions.  Whether a form has a *value* is a separate
question (`Json.ofForm?`).  A reader that ignores a member of an object asks
only that it is well formed, so a number out of range or half of a surrogate
pair is no fault there.

A file may hold a form and not be UTF-8.  That is a fault only in a string whose
text is asked for.

Nesting is not limited here.  The reader runs on fuel, and every call passes at
least one character, so the length of the text is enough.
-/

namespace ScriptModules.Json

/-- A number as written. -/
structure Numeral where
  /-- Whether it starts with a minus. -/
  negative : Bool
  /-- The digits before the point. -/
  whole : List Char
  /-- The digits after the point; none without a point. -/
  fraction : List Char
  /-- Sign and digits of the exponent. -/
  exponent : Option (Bool × List Char)
  deriving DecidableEq, Repr

/-- A value as written.  A string is kept as the characters between its quotes. -/
inductive Form where
  | null
  | bool (value : Bool)
  | number (numeral : Numeral)
  | string (raw : List Char)
  | array (items : List Form)
  | object (members : List (List Char × Form))
  deriving Repr

namespace Form

/-! ## Characters -/

/-- The blanks allowed between tokens. -/
def isSpace (c : Char) : Bool :=
  c == ' ' || c == '\t' || c == '\n' || c == '\r'

/-- The text from its first character that is no blank. -/
def skip (text : List Char) : List Char :=
  text.dropWhile isSpace

/-! ## Strings and numbers -/

/-- The characters up to the closing quote and the text after it.  `taken` holds
the characters already passed, last first.  Control characters are refused, and
so is a backslash that begins no escape. -/
def string? : (taken : List Char) → List Char → Option (List Char × List Char)
  | taken, '"' :: rest => some (taken.reverse, rest)
  | taken, '\\' :: 'u' :: a :: b :: c :: d :: rest =>
    if [a, b, c, d].all Text.isHexDigit then
      string? (d :: c :: b :: a :: 'u' :: '\\' :: taken) rest
    else none
  | taken, '\\' :: c :: rest =>
    if ['"', '\\', '/', 'b', 'f', 'n', 'r', 't'].contains c then
      string? (c :: '\\' :: taken) rest
    else none
  | taken, c :: rest =>
    if c == '\\' || c.toNat < 0x20 then none else string? (c :: taken) rest
  | _, [] => none

/-- The digits at the front and the text after them. -/
def digits (text : List Char) : List Char × List Char :=
  text.span Char.isDigit

/-- The exponent at the front, if there is one; `none` if it has no digits. -/
def exponent? : List Char → Option (Option (Bool × List Char) × List Char)
  | [] => some (none, [])
  | mark :: rest =>
    if mark == 'e' || mark == 'E' then
      let (negative, rest) := match rest with
        | '-' :: rest => (true, rest)
        | '+' :: rest => (false, rest)
        | rest => (false, rest)
      match digits rest with
      | ([], _) => none
      | (ds, rest) => some (some (negative, ds), rest)
    else some (none, mark :: rest)

/-- A number whose sign has been read.  A whole part of several digits does not
start with a zero, and a point is followed by a digit. -/
def unsigned? (negative : Bool) (text : List Char) : Option (Form × List Char) :=
  match digits text with
  | ([], _) => none
  | ('0' :: _ :: _, _) => none
  | (whole, '.' :: rest) =>
    match digits rest with
    | ([], _) => none
    | (fraction, rest) =>
      (exponent? rest).map fun (e, rest) => (.number ⟨negative, whole, fraction, e⟩, rest)
  | (whole, rest) => (exponent? rest).map fun (e, rest) => (.number ⟨negative, whole, [], e⟩, rest)

/-- The text after a word at the front. -/
def afterWord? : (word text : List Char) → Option (List Char)
  | [], text => some text
  | _ :: _, [] => none
  | w :: word, c :: text => if w == c then afterWord? word text else none

/-! ## Values -/

mutual

/-- The value at the front and the text after it. -/
def value? : (fuel : Nat) → List Char → Option (Form × List Char)
  | 0, _ => none
  | fuel + 1, text =>
    match skip text with
    | 'n' :: rest => (afterWord? ['u', 'l', 'l'] rest).map (Form.null, ·)
    | 't' :: rest => (afterWord? ['r', 'u', 'e'] rest).map (Form.bool true, ·)
    | 'f' :: rest => (afterWord? ['a', 'l', 's', 'e'] rest).map (Form.bool false, ·)
    | '"' :: rest => (string? [] rest).map fun (raw, rest) => (.string raw, rest)
    | '-' :: rest => unsigned? true rest
    | '[' :: rest =>
      match skip rest with
      | ']' :: rest => some (.array [], rest)
      | rest => (items? fuel rest).map fun (items, rest) => (.array items, rest)
    | '\x7b' :: rest =>
      match skip rest with
      | '\x7d' :: rest => some (.object [], rest)
      | rest => (members? fuel rest).map fun (members, rest) => (.object members, rest)
    | rest => unsigned? false rest

/-- One or more items up to the closing bracket. -/
def items? : (fuel : Nat) → List Char → Option (List Form × List Char)
  | 0, _ => none
  | fuel + 1, text =>
    match value? fuel text with
    | none => none
    | some (item, rest) =>
      match skip rest with
      | ']' :: rest => some ([item], rest)
      | ',' :: rest => (items? fuel rest).map fun (items, rest) => (item :: items, rest)
      | _ => none

/-- One or more members up to the closing brace. -/
def members? : (fuel : Nat) → List Char → Option (List (List Char × Form) × List Char)
  | 0, _ => none
  | fuel + 1, text =>
    match skip text with
    | '"' :: rest =>
      match string? [] rest with
      | none => none
      | some (key, rest) =>
        match skip rest with
        | ':' :: rest =>
          match value? fuel rest with
          | none => none
          | some (value, rest) =>
            match skip rest with
            | '\x7d' :: rest => some ([(key, value)], rest)
            | ',' :: rest => (members? fuel rest).map fun (ms, rest) => ((key, value) :: ms, rest)
            | _ => none
        | _ => none
    | _ => none

end

end Form

/-- The form a text is: one value, with blanks around it. -/
def Form.ofText? (text : List Char) : Option Form :=
  match Form.value? (text.length + 1) text with
  | some (form, rest) => if (Form.skip rest).isEmpty then some form else none
  | none => none

/-! ## Bytes -/

/-- A string that has no text: half of a surrogate pair. -/
def Form.noText : List Char := ['\\', 'u', 'd', '8', '0', '0']

/-- A string whose characters stand for the bytes with their numbers, read as UTF-8. -/
def Form.reread (raw : List Char) : List Char :=
  match Bytes.text? (raw.map fun c => UInt8.ofNat c.toNat) with
  | some text => text.toList
  | none => noText

mutual

/-- A form in which every string is read as UTF-8. -/
def Form.decoded : Form → Form
  | .string raw => .string (reread raw)
  | .array items => .array (decodedItems items)
  | .object members => .object (decodedMembers members)
  | form => form

/-- Items in which every string is read as UTF-8. -/
def Form.decodedItems : List Form → List Form
  | [] => []
  | item :: items => decoded item :: decodedItems items

/-- Members in which every string is read as UTF-8. -/
def Form.decodedMembers : List (List Char × Form) → List (List Char × Form)
  | [] => []
  | (key, form) :: members => (reread key, decoded form) :: decodedMembers members

end

/-- The form that bytes are.  Outside strings everything is ASCII, so strings can be
found before they are read as UTF-8. -/
def Form.ofBytes? (bytes : Bytes) : Option Form :=
  (ofText? (bytes.map fun byte => Char.ofNat byte.toNat)).map decoded

end ScriptModules.Json
