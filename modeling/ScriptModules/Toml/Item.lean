import ScriptModules.Json.Value

/-!
# What a TOML document defines

A document defines its tables piece by piece, and most errors in one are
definitions that clash.  So a table remembers how it came about.

* A table named by a header is *explicit*, and no second header may name it.
* A table that only stands above one named by a header is *implicit*; a later
  header may still name it.
* A table that arises from the points of a dotted key is implicit and *dotted*.
  Further dotted keys may add to it, headers may not name it.

A header may also name an array of tables, which it makes one longer.  Paths then
lead through the last table of the array.  Values, among them arrays and inline
tables, are closed: nothing is ever added to them.
-/

namespace ScriptModules.Toml

/-- What stands under a key. -/
inductive Item where
  | value (value : Json)
  | table (implicit dotted : Bool) (members : List (String × Item))
  /-- An array of tables, last one first. -/
  | tables (elements : List (List (String × Item)))
  deriving Inhabited

/-- The members of a table, in the order of their definition. -/
abbrev Members := List (String × Item)

namespace Item

mutual

/-- The value of an item. -/
def toJson : Item → Json
  | .value v => v
  | .table _ _ members => .ofMembers (membersToJson members)
  | .tables elements => .array (elementsToJson elements).reverse

/-- The values of members. -/
def membersToJson : List (String × Item) → List (String × Json)
  | [] => []
  | (key, item) :: rest => (key, item.toJson) :: membersToJson rest

/-- The values of tables. -/
def elementsToJson : List (List (String × Item)) → List Json
  | [] => []
  | members :: rest => .ofMembers (membersToJson members) :: elementsToJson rest

end

end Item

namespace Members

/-- Puts an item under a key, in place of what stood there. -/
def set (members : Members) (key : String) (item : Item) : Members :=
  (key, item) :: members.filter (·.1 ≠ key)

/-- Changes the table a path leads to.  The path makes the tables it misses:
dotted ones if the path belongs to a dotted key, else plain implicit ones.  The
change is told whether the table it gets is dotted. -/
def descend (dotted : Bool) (change : (isDotted : Bool) → Members → Option Members) :
    (path : List String) → (isDotted : Bool) → Members → Option Members
  | [], isDotted, members => change isDotted members
  | key :: path, _, members =>
    match members.lookup key with
    | none => do
      return members.set key (.table true dotted (← descend dotted change path dotted []))
    | some (.table implicit isDotted inner) =>
      if dotted && !implicit then none
      else do
        return members.set key (.table implicit isDotted (← descend dotted change path isDotted inner))
    | some (.tables (last :: before)) => do
      return members.set key (.tables ((← descend dotted change path false last) :: before))
    | some _ => none

/-- Defines a key by a dotted path from a table.  The key must be new, and points
must have led through dotted tables only. -/
def define (members : Members) (path : List String) (key : String) (value : Json) :
    Option Members :=
  descend true (fun isDotted table =>
    if isDotted == path.isEmpty || (table.lookup key).isSome then none
    else some ((key, .value value) :: table)) path false members

end Members

end ScriptModules.Toml
