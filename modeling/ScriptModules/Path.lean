import ScriptModules.Text.Lossy

/-!
# Paths

A path is a byte string in which slashes separate pieces.  It keeps its spelling,
since paths are shown to users and become module ids, but most questions look at
its *components*: repeated slashes, slashes at the end and `.` pieces make no
difference, except that a relative path may begin with `.`.  Nothing here looks
at a file system, so `..` is a component like any other.

A path need not be UTF-8.  What is shown of it then has replacement characters,
so two paths may look the same and differ.
-/

namespace ScriptModules

/-- The name of a file or directory inside its parent. -/
abbrev Name := Bytes

/-- A path as spelled. -/
structure Path where
  /-- The spelling. -/
  bytes : Bytes
  deriving DecidableEq, Repr

/-- A component of a path. -/
inductive Component where
  /-- The slash an absolute path begins with. -/
  | root
  /-- The `.` a relative path begins with. -/
  | current
  /-- A piece `..`. -/
  | parent
  /-- Any other piece. -/
  | normal (name : Name)
  deriving DecidableEq, Repr

namespace Path

/-- The slash between two pieces. -/
def slash : UInt8 := 0x2F

/-- The point in `.`, in `..` and before an extension. -/
def point : UInt8 := 0x2E

/-- The path a text spells. -/
def ofString (text : String) : Path :=
  ⟨Bytes.ofText text⟩

/-- The spelling as it is shown. -/
def toString (path : Path) : String :=
  String.ofList (Text.lossy path.bytes)

instance : ToString Path := ⟨toString⟩

/-- Whether the path begins with a slash. -/
def isAbsolute (path : Path) : Bool :=
  path.bytes.head? == some slash

/-! ## Pieces -/

/-- What stands between the slashes.  There is one more of these than slashes. -/
def split : Bytes → List Bytes
  | [] => [[]]
  | byte :: bytes =>
    if byte = slash then [] :: split bytes
    else match split bytes with
      | piece :: pieces => (byte :: piece) :: pieces
      | [] => [[byte]]

/-- The spelling with the given pieces between slashes. -/
def unsplit : List Bytes → Bytes
  | [] => []
  | [piece] => piece
  | piece :: pieces => piece ++ slash :: unsplit pieces

theorem split_ne_nil (bytes : Bytes) : split bytes ≠ [] := by
  cases bytes with
  | nil => simp [split]
  | cons byte bytes =>
    rw [split]
    split
    · simp
    · split <;> simp

theorem unsplit_cons {piece : Bytes} {pieces : List Bytes} (h : pieces ≠ []) :
    unsplit (piece :: pieces) = piece ++ slash :: unsplit pieces := by
  cases pieces with
  | nil => exact absurd rfl h
  | cons _ _ => rfl

@[simp] theorem unsplit_split (bytes : Bytes) : unsplit (split bytes) = bytes := by
  induction bytes with
  | nil => rfl
  | cons byte bytes ih =>
    unfold split
    split
    · rename_i h
      rw [unsplit_cons (split_ne_nil bytes), ih, h]
      rfl
    · cases hs : split bytes with
      | nil => exact absurd hs (split_ne_nil bytes)
      | cons piece pieces =>
        rw [hs] at ih
        cases pieces with
        | nil => simpa [unsplit] using ih
        | cons q qs =>
          rw [unsplit_cons (by simp)] at ih
          simp only [unsplit_cons, ne_eq, reduceCtorEq, not_false_eq_true]
          rw [← ih]
          rfl

/-- Whether a piece stands for nothing: it is empty or a single point. -/
def isIdle (piece : Bytes) : Bool :=
  piece == [] || piece == [point]

/-! ## Components -/

/-- The component of a piece that is not the first of a path. -/
def component? (piece : Bytes) : Option Component :=
  if isIdle piece then none
  else if piece = [point, point] then some .parent
  else some (.normal piece)

/-- The components.  Two paths with equal components name the same place. -/
def components (path : Path) : List Component :=
  let pieces := split path.bytes
  let rest := pieces.filterMap component?
  if path.isAbsolute then .root :: rest
  else if pieces.head? = some [point] then .current :: rest
  else rest

/-- Drops idle pieces at the end of a path, whose pieces are given last first.
The first piece of a path stays. -/
def dropIdle : List Bytes → List Bytes
  | [] => []
  | [first] => [first]
  | piece :: pieces => if isIdle piece then dropIdle pieces else piece :: pieces

/-- The path with the given pieces, last first.  A lone empty piece is the root. -/
def ofPieces (pieces : List Bytes) : Path :=
  if pieces = [[]] then ⟨[slash]⟩ else ⟨unsplit pieces.reverse⟩

/-- The paths above a path, whose pieces are given last first, nearest first.  The
last above a relative path is the empty one. -/
def above : List Bytes → List Path
  | [] => []
  | [first] => if first = [] then [] else [⟨[]⟩]
  | piece :: pieces => if isIdle piece then above pieces else ofPieces (dropIdle pieces) :: above pieces

/-- The path and all paths above it, nearest first. -/
def ancestors (path : Path) : List Path :=
  path :: above (split path.bytes).reverse

/-- The path without its last component. -/
def parent? (path : Path) : Option Path :=
  (above (split path.bytes).reverse).head?

/-- The last component, if it is a name. -/
def fileName? (path : Path) : Option Name :=
  match path.components.getLast? with
  | some (.normal name) => some name
  | _ => none

/-! ## Extensions -/

/-- What stands after the last point of a name.  A point at the start of a name
begins no extension. -/
def extensionOfName? (name : Name) : Option Bytes :=
  let after := name.reverse.takeWhile (· != point)
  let before := name.reverse.drop after.length
  if before.length ≤ 1 then none else some after.reverse

/-- The extension of the last component. -/
def extension? (path : Path) : Option Bytes :=
  path.fileName? >>= extensionOfName?

/-! ## Joining -/

/-- A path seen from another.  An absolute path stays as it is. -/
def join (base path : Path) : Path :=
  if path.isAbsolute then path
  else if base.bytes = [] ∨ base.bytes.getLast? = some slash then ⟨base.bytes ++ path.bytes⟩
  else ⟨base.bytes ++ slash :: path.bytes⟩

/-- The path with a text put right after it. -/
def append (path : Path) (suffix : String) : Path :=
  ⟨path.bytes ++ Bytes.ofText suffix⟩

/-! ## Examples -/

private def spelled (paths : List Path) : List String := paths.map toString

example : spelled (ofString "/p//x/./y/").ancestors = ["/p//x/./y/", "/p//x", "/p", "/"] := by
  decide +kernel
example : spelled (ofString "./a/..").ancestors = ["./a/..", "./a", ".", ""] := by decide +kernel
example : (ofString "/p//x").components = (ofString "/p/./x/").components := by decide +kernel
example : (ofString "/p/x.tar.gz").extension? = some (Bytes.ofText "gz") := by decide +kernel
example : (ofString "/p/.profile").extension? = none := by decide +kernel

end Path

end ScriptModules
