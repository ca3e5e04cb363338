import ScriptModules.Json.Numeral

/-!
# JSON values

The value of a JSON text.  An object is a list of members in the order of their
keys, without repetitions: of two members with one key, the later one counts.
A value nests at most 127 deep when it is read from a text.
-/

namespace ScriptModules

/-- A JSON value. -/
inductive Json where
  | null
  | bool (value : Bool)
  | integer (value : Int)
  | float (value : Float)
  | string (value : String)
  | array (items : List Json)
  | object (members : List (String × Json))
  deriving Inhabited

namespace Json

/-! ## Members in order -/

/-- Adds or replaces the member with this key, keeping the order of keys. -/
def insertMember (key : String) (value : Json) : List (String × Json) → List (String × Json)
  | [] => [(key, value)]
  | (k, v) :: rest =>
    if key < k then (key, value) :: (k, v) :: rest
    else if key = k then (key, value) :: rest
    else (k, v) :: insertMember key value rest

/-- The object with the given members, the later of two with one key. -/
def ofMembers (members : List (String × Json)) : Json :=
  .object (members.foldl (fun object (key, value) => insertMember key value object) [])

/-- The members of an object; other values have none. -/
def members : Json → List (String × Json)
  | .object members => members
  | _ => []

/-- The items of an array; other values have none. -/
def items : Json → List Json
  | .array items => items
  | _ => []

/-- The value of a member. -/
def get? (json : Json) (key : String) : Option Json := json.members.lookup key

/-- The value of a member, unless it is null. -/
def given? (json : Json) (key : String) : Option Json :=
  match json.get? key with
  | some .null => none
  | found => found

/-- The object with further members. -/
def extend (json : Json) (more : List (String × Json)) : Json := ofMembers (json.members ++ more)

/-! ## Making values -/

/-- A natural number. -/
def ofNat (n : Nat) : Json := .integer n

/-- An array of texts. -/
def ofTexts (texts : List String) : Json := .array (texts.map .string)

/-- A value, or null. -/
def orNull {α : Type} (encode : α → Json) (value : Option α) : Json :=
  (value.map encode).getD .null

/-- A text, or null. -/
def textOrNull (text : Option String) : Json := orNull .string text

/-- A member that may be missing. -/
def optional (key : String) (value : Option Json) : List (String × Json) :=
  (value.map fun value => (key, value)).toList

/-! ## The text of a string -/

/-- The 16-bit unit of four hexadecimal digits. -/
def unitOfHex (a b c d : Char) : Nat :=
  Text.hexNumber [a, b, c, d]

/-- The character a letter after a backslash stands for. -/
def unescape : Char → Char
  | 'b' => '\x08'
  | 'f' => '\x0c'
  | 'n' => '\n'
  | 'r' => '\r'
  | 't' => '\t'
  | c => c

/-- Resolves the escapes of a string.  A unit of the upper surrogate half must be
followed by one of the lower half, which alone names no character. -/
def decode? : (taken : List Char) → List Char → Option String
  | taken, [] => some (String.ofList taken.reverse)
  | taken, '\\' :: 'u' :: a :: b :: c :: d :: rest =>
    let unit := unitOfHex a b c d
    if 0xDC00 ≤ unit ∧ unit ≤ 0xDFFF then none
    else if 0xD800 ≤ unit ∧ unit ≤ 0xDBFF then
      match rest with
      | '\\' :: 'u' :: e :: f :: g :: h :: rest =>
        let low := unitOfHex e f g h
        if 0xDC00 ≤ low ∧ low ≤ 0xDFFF then
          decode? (Char.ofNat (0x10000 + 1024 * (unit - 0xD800) + (low - 0xDC00)) :: taken) rest
        else none
      | _ => none
    else decode? (Char.ofNat unit :: taken) rest
  | taken, '\\' :: c :: rest => decode? (unescape c :: taken) rest
  | taken, c :: rest => decode? (c :: taken) rest

/-! ## The value of a form -/

/-- How deep the values of a text may nest. -/
def depthLimit : Nat := 127

mutual

/-- The value of a form that nests at most `depth` deep. -/
def ofForm? (depth : Nat) : Form → Option Json
  | .null => some .null
  | .bool b => some (.bool b)
  | .number n =>
    match n.value? with
    | some (.exact i) => some (.integer i)
    | some (.float f) => some (.float f)
    | none => none
  | .string raw => (decode? [] raw).map .string
  | .array items => if depth = 0 then none else (ofItems? (depth - 1) items).map .array
  | .object members => if depth = 0 then none else (ofMembers? (depth - 1) members).map ofMembers

/-- The values of items. -/
def ofItems? (depth : Nat) : List Form → Option (List Json)
  | [] => some []
  | item :: items => do
    let value ← ofForm? depth item
    let values ← ofItems? depth items
    return value :: values

/-- The keys and values of members. -/
def ofMembers? (depth : Nat) : List (List Char × Form) → Option (List (String × Json))
  | [] => some []
  | (key, form) :: members => do
    let key ← decode? [] key
    let value ← ofForm? depth form
    let values ← ofMembers? depth members
    return (key, value) :: values

end

/-- The value of a text. -/
def ofText? (text : String) : Option Json :=
  Form.ofText? text.toList >>= ofForm? depthLimit

end Json

end ScriptModules
