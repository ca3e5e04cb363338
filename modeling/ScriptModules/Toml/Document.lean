import ScriptModules.Toml.Value

/-!
# TOML documents

A document is a sequence of lines: definitions, headers of tables, headers of
arrays of tables, and lines without content.  Definitions go into the table that
the last header opened; the first ones go into the root.

While a table is open it is not part of the root.  It is put there when the next
header comes, or the end.
-/

namespace ScriptModules.Toml

/-- What has been read of a document. -/
structure Draft where
  /-- The tables that are closed. -/
  root : Members
  /-- The path of the open table above its name, and its name; none for the root. -/
  place : Option (List String × String)
  /-- Whether the open table is an element of an array. -/
  element : Bool
  /-- The open table. -/
  opened : Members

namespace Draft

/-- The draft of an empty document. -/
def empty : Draft := ⟨[], none, false, []⟩

/-- Puts the open table into the root. -/
def close (draft : Draft) : Option Members :=
  match draft.place with
  | none => some draft.opened
  | some (path, name) =>
    Members.descend false (fun _ table =>
      match table.lookup name, draft.element with
      | none, false => some (table.set name (.table false false draft.opened))
      | some (.table true _ _), false => some (table.set name (.table false false draft.opened))
      | none, true => some (table.set name (.tables [draft.opened]))
      | some (.tables elements), true => some (table.set name (.tables (draft.opened :: elements)))
      | _, _ => none) path false draft.root

/-- The members of the table a header names, if a header may name it: the members
are those it got as a table above others. -/
def reopened? (path : List String) (name : String) (root : Members) : Option (Option Members) :=
  match path with
  | [] =>
    match root.lookup name with
    | none => some none
    | some (.table true false members) => some (some members)
    | some _ => none
  | key :: path =>
    match root.lookup key with
    | none => some none
    | some (.table _ _ members) => reopened? path name members
    | some (.tables (last :: _)) => reopened? path name last
    | some _ => none

/-- Opens the table of a header. -/
def openTable (draft : Draft) (path : List String) (name : String) : Option Draft := do
  let root ← draft.close
  let members ← reopened? path name root
  let root ← Members.descend false (fun _ table => some (table.filter (·.1 ≠ name))) path false root
  return ⟨root, some (path, name), false, members.getD []⟩

/-- Opens a new element of the array of a header. -/
def openElement (draft : Draft) (path : List String) (name : String) : Option Draft := do
  let root ← draft.close
  let root ← Members.descend false (fun _ table =>
    match table.lookup name with
    | none => some (table.set name (.tables []))
    | some (.tables _) => some table
    | some _ => none) path false root
  return ⟨root, some (path, name), true, []⟩

/-- Adds a definition. -/
def define (draft : Draft) (path : List String) (key : String) (value : Json) : Option Draft := do
  return { draft with opened := ← draft.opened.define path key value }

end Draft

/-! ## Lines -/

/-- The text after the end of a line: blanks, a comment, and a line break or the end. -/
def endOfLine? (text : List Char) : Option (List Char) :=
  match skipComment (skipBlanks text) with
  | [] => some []
  | '\n' :: rest => some rest
  | '\r' :: '\n' :: rest => some rest
  | _ => none

/-- Reads one line that has content.  The fuel is for its value. -/
def line? (fuel : Nat) (draft : Draft) (text : List Char) : Option (Draft × List Char) :=
  match text with
  | '[' :: '[' :: rest => do
    let (path, name, rest) ← key? rest
    match rest with
    | ']' :: ']' :: rest => return (← draft.openElement path name, ← endOfLine? rest)
    | _ => none
  | '[' :: rest => do
    let (path, name, rest) ← key? rest
    match rest with
    | ']' :: rest => return (← draft.openTable path name, ← endOfLine? rest)
    | _ => none
  | _ => do
    let (path, key, rest) ← key? text
    match rest with
    | '=' :: rest =>
      let (value, rest) ← value? fuel depthLimit (skipBlanks rest)
      return (← draft.define path key value, ← endOfLine? rest)
    | _ => none

/-- Reads the lines of a document. -/
def lines? : (fuel : Nat) → Draft → List Char → Option Draft
  | 0, _, _ => none
  | fuel + 1, draft, text =>
    match skipBlanks text with
    | [] => some draft
    | '\n' :: rest => lines? fuel draft rest
    | '\r' :: '\n' :: rest => lines? fuel draft rest
    | '#' :: rest => (endOfLine? ('#' :: rest)).bind fun rest => lines? fuel draft rest
    | content => (line? fuel draft content).bind fun (draft, rest) => lines? fuel draft rest

/-- The value of a document: an object.  A byte order mark at the start is passed
over. -/
def read? (text : String) : Option Json := do
  let text := match text.toList with
    | '\ufeff' :: rest => rest
    | text => text
  let draft ← lines? (text.length + 1) .empty text
  return .ofMembers (Item.membersToJson (← draft.close))

end ScriptModules.Toml
