import ScriptModules.Json.Value

/-!
# Records in JSON text

How a record with named fields is read from a form.  An object gives the fields
by name: a field that stands twice is an error, an unknown one is ignored, so
that its value only has to be well formed.  An array gives the fields by
position, in the order of the record, and must not be longer than it.
-/

namespace ScriptModules.Json.Form

/-- The form of each member that names a field, with the key decoded.  Every key
has to name some text. -/
def knownMembers? (names : List String) : List (List Char × Form) → Option (List (String × Form))
  | [] => some []
  | (raw, form) :: members => do
    let key ← Json.decode? [] raw
    let known ← knownMembers? names members
    if ¬ names.contains key then return known
    else if known.any (·.1 == key) then none
    else return (key, form) :: known

/-- The forms given for the named fields, if this can be a record at all. -/
def fields? (names : List String) : Form → Option (List (String × Form))
  | .object members => knownMembers? names members
  | .array items => if items.length ≤ names.length then some (names.zip items) else none
  | _ => none

/-! ## Values of fields -/

/-- A text. -/
def text? : Form → Option String
  | .string raw => Json.decode? [] raw
  | _ => none

/-- A number without a sign that is at most `limit`. -/
def natural? (limit : Nat) : Form → Option Nat
  | .number n =>
    match n.value? with
    | some (.exact (.ofNat i)) => if i ≤ limit then some i else none
    | _ => none
  | _ => none

/-- A value that may be null. -/
def optional? {α : Type} (read : Form → Option α) : Form → Option (Option α)
  | .null => some none
  | form => (read form).map some

/-- A field that may be missing or null. -/
def field? {α : Type} (read : Form → Option α) (name : String) (fields : List (String × Form)) :
    Option (Option α) :=
  match fields.lookup name with
  | none => some none
  | some form => optional? read form

/-- A field that has to be there. -/
def requiredField? {α : Type} (read : Form → Option α) (name : String)
    (fields : List (String × Form)) : Option α :=
  fields.lookup name >>= read

end ScriptModules.Json.Form
