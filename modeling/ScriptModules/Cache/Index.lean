import ScriptModules.Digest
import ScriptModules.Json.Fields
import ScriptModules.Json.Printer
import ScriptModules.Timestamp

/-!
# The index of a compile cache

What a cache remembers of its entries from one run to the next: a JSON file that
maps the fingerprint of each entry to its size, its last access, the number of
that access and the count of hits.  A file that cannot be read in full counts as
an empty index.
-/

namespace ScriptModules.Cache

/-- What is known of an entry. -/
structure EntryMeta where
  /-- The length of its file. -/
  size : Nat
  lastAccess : Timestamp
  /-- The number of the last access; accesses of one cache are numbered in turn. -/
  sequence : UInt64
  hits : UInt64
  deriving DecidableEq

/-- What an index holds, by the written form of fingerprints. -/
abbrev Index := List (String × EntryMeta)

namespace Index

/-- The version of the format. -/
def formatVersion : Nat := 1

/-! ## Writing -/

/-- The value of an entry. -/
def entryJson (entry : EntryMeta) : Json :=
  .object [("size", .integer entry.size),
    ("lastAccess", .string (String.ofList entry.lastAccess.write)),
    ("seq", .integer entry.sequence.toNat), ("hits", .integer entry.hits.toNat)]

/-- The text of an index, entries in the order of their names. -/
def render (index : Index) : String :=
  Json.renderIndented (.object [("version", .integer formatVersion),
    ("entries", .ofMembers (index.map fun (name, entry) => (name, entryJson entry)))])

/-! ## Reading -/

/-- A time. -/
def time? (form : Json.Form) : Option Timestamp :=
  form.text? >>= fun text => Timestamp.read? text.toList

/-- The largest number of 64 bits. -/
def limit : Nat := 2 ^ 64 - 1

/-- What a form says of an entry. -/
def entry? (form : Json.Form) : Option EntryMeta := do
  let fields ← form.fields? ["size", "lastAccess", "seq", "hits"]
  return {
    size := ← Json.Form.requiredField? (Json.Form.natural? limit) "size" fields
    lastAccess := ← Json.Form.requiredField? time? "lastAccess" fields
    sequence := .ofNat (← Json.Form.requiredField? (Json.Form.natural? limit) "seq" fields)
    hits := .ofNat (← Json.Form.requiredField? (Json.Form.natural? limit) "hits" fields) }

/-- The entries of an object. -/
def entries? : List (List Char × Json.Form) → Option Index
  | [] => some []
  | (key, form) :: rest => do
    let name ← Json.decode? [] key
    let entry ← entry? form
    return (name, entry) :: (← entries? rest)

/-- The entries of a form; of two with one name the later counts. -/
def ofForm? (form : Json.Form) : Option Index := do
  let fields ← form.fields? ["version", "entries"]
  let version ← Json.Form.requiredField? (Json.Form.natural? 65535) "version" fields
  match fields.lookup "entries" with
  | some (.object members) =>
    let index ← entries? members
    if version = formatVersion then return index.reverse else none
  | _ => none

/-- The index in a file. -/
def read (content : Bytes) : Index :=
  (Json.Form.ofBytes? content >>= ofForm?).getD []

/-- Whether an index holds an entry besides some. -/
def holdsBesides (index : Index) (names : List String) : Bool :=
  index.any fun (name, _) => !names.contains name

end Index

end ScriptModules.Cache
