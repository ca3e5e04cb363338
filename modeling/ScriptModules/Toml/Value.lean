import ScriptModules.Toml.Item
import ScriptModules.Toml.Scalar

/-!
# Keys and values in TOML

Keys with their points, arrays and inline tables.  An array may spread over lines
and end in a comma; an inline table may do neither.  Inline tables follow the
same rules of definition as a document, but nothing can be added to one later.

Values nest less than 80 deep, and a dotted key has fewer than 80 parts.
-/

namespace ScriptModules.Toml

/-- One past how deep values nest, and how many parts a key has. -/
def depthLimit : Nat := 80

/-! ## Blanks -/

/-- The text from its first character that is no blank inside a line. -/
def skipBlanks (text : List Char) : List Char :=
  text.dropWhile isBlankInLine

/-- Characters that may stand in a comment. -/
def isCommentChar (c : Char) : Bool :=
  c == '\t' || (0x20 ≤ c.toNat && c.toNat ≠ 0x7F)

/-- The text after a comment at the front. -/
def skipComment : List Char → List Char
  | '#' :: rest => rest.dropWhile isCommentChar
  | text => text

/-- The text after blanks, comments and line breaks, which begins in a comment or not. -/
def skipBetween : (inComment : Bool) → List Char → List Char
  | _, [] => []
  | _, '\n' :: rest => skipBetween false rest
  | _, '\r' :: '\n' :: rest => skipBetween false rest
  | false, '#' :: rest => skipBetween true rest
  | inComment, c :: rest =>
    if if inComment then isCommentChar c else isBlankInLine c then skipBetween inComment rest
    else c :: rest

/-- The text after blanks, comments and line breaks. -/
def skipAll (text : List Char) : List Char :=
  skipBetween false text

/-! ## Keys -/

/-- Characters of a key without quotes. -/
def isBareKeyChar (c : Char) : Bool :=
  c.isAlphanum || c == '-' || c == '_'

/-- One part of a key. -/
def keyPart? (text : List Char) : Option (String × List Char) :=
  match text with
  | '"' :: _ => lineString? text
  | '\'' :: _ => lineString? text
  | _ =>
    let part := text.takeWhile isBareKeyChar
    if part = [] then none else some (String.ofList part, text.drop part.length)

/-- The parts of a key, with blanks around them, and the text after it. -/
def keyParts? : (fuel : Nat) → List Char → Option (List String × List Char)
  | 0, _ => none
  | fuel + 1, text => do
    let (part, rest) ← keyPart? (skipBlanks text)
    match skipBlanks rest with
    | '.' :: rest =>
      let (parts, rest) ← keyParts? fuel rest
      return (part :: parts, rest)
    | rest => return ([part], rest)

/-- A key: the parts before the last, and the last. -/
def key? (text : List Char) : Option (List String × String × List Char) := do
  let (parts, rest) ← keyParts? depthLimit text
  if parts.length < depthLimit then return (parts.dropLast, ← parts.getLast?, rest) else none

/-! ## Values -/

mutual

/-- The value at the front and the text after it.  It nests less than `depth` deep. -/
def value? : (fuel depth : Nat) → List Char → Option (Json × List Char)
  | 0, _, _ => none
  | fuel + 1, depth, text =>
    match text with
    | '"' :: _ => (string? text).map fun (s, rest) => (.string s, rest)
    | '\'' :: _ => (string? text).map fun (s, rest) => (.string s, rest)
    | '[' :: rest =>
      if depth ≤ 1 then none
      else match skipAll rest with
        | ']' :: rest => some (.array [], rest)
        | rest => (items? fuel (depth - 1) rest).map fun (items, rest) => (.array items, rest)
    | '\x7b' :: rest =>
      if depth ≤ 1 then none
      else match skipBlanks rest with
        | '\x7d' :: rest => some (.object [], rest)
        | rest =>
          (members? fuel (depth - 1) [] rest).map fun (members, rest) =>
            (.ofMembers (Item.membersToJson members), rest)
    | 't' :: 'r' :: 'u' :: 'e' :: rest => some (.bool true, rest)
    | 'f' :: 'a' :: 'l' :: 's' :: 'e' :: rest => some (.bool false, rest)
    | _ => numberOrTime? text

/-- One or more items up to the closing bracket. -/
def items? : (fuel depth : Nat) → List Char → Option (List Json × List Char)
  | 0, _, _ => none
  | fuel + 1, depth, text =>
    match value? fuel depth (skipAll text) with
    | none => none
    | some (item, rest) =>
      match skipAll rest with
      | ']' :: rest => some ([item], rest)
      | ',' :: rest =>
        match skipAll rest with
        | ']' :: rest => some ([item], rest)
        | rest => (items? fuel depth rest).map fun (items, rest) => (item :: items, rest)
      | _ => none

/-- One or more members up to the closing brace, added to those before. -/
def members? : (fuel depth : Nat) → Members → List Char → Option (Members × List Char)
  | 0, _, _, _ => none
  | fuel + 1, depth, before, text =>
    match key? text with
    | some (path, key, '=' :: rest) =>
      match value? fuel depth (skipBlanks rest) with
      | none => none
      | some (value, rest) =>
        match before.define path key value with
        | none => none
        | some members =>
          match skipBlanks rest with
          | '\x7d' :: rest => some (members, rest)
          | ',' :: rest => members? fuel depth members rest
          | _ => none
    | _ => none

end

end ScriptModules.Toml
