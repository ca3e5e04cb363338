import ScriptModules.Json.Value

/-!
# The exports of a package

The `exports` field of a manifest says which files of a package can be reached
from outside, and under which *conditions*.

A *target* is a text, which is the answer; an array, where the first item with an
answer counts; or a map from conditions to targets.  In a map the conditions are
tried in the order in which the caller lists them, then `default`, and the first
with an answer counts.  Any other value, null among them, has no answer.

A map with a key that begins with a point maps *subpaths* (`.` or `./x`) to
targets.  Any other `exports` field is the target of the subpath `.` alone.
-/

namespace ScriptModules.Package

mutual

/-- The answer of a target. -/
def target? (conditions : List String) : Json → Option String
  | .string path => some path
  | .array items => targetOfItems? conditions items
  | .object members =>
    let answers := targetsOfMembers conditions members
    (conditions ++ ["default"]).findSome? fun condition => (answers.lookup condition).join
  | _ => none

/-- The answer of the first item that has one. -/
def targetOfItems? (conditions : List String) : List Json → Option String
  | [] => none
  | item :: items =>
    match target? conditions item with
    | some path => some path
    | none => targetOfItems? conditions items

/-- The answer of every member. -/
def targetsOfMembers (conditions : List String) :
    List (String × Json) → List (String × Option String)
  | [] => []
  | (key, target) :: members =>
    (key, target? conditions target) :: targetsOfMembers conditions members

end

/-- Whether a map maps subpaths. -/
def mapsSubpaths (members : List (String × Json)) : Bool :=
  members.any fun member => member.1.startsWith "."

/-- The target of a subpath in an `exports` field. -/
def exportTarget? (exports : Json) (subpath : String) (conditions : List String) :
    Option String :=
  match exports with
  | .string path => if subpath = "." then some path else none
  | .object members =>
    if mapsSubpaths members then members.lookup subpath >>= target? conditions
    else if subpath = "." then target? conditions exports
    else none
  | .array _ => if subpath = "." then target? conditions exports else none
  | _ => none

end ScriptModules.Package
