import ScriptModules.Path
import ScriptModules.Url.Host

/-!
# URLs

Reading a text as an absolute URL (WHATWG URL Standard).  Of a URL two things
matter here: its scheme, and for the scheme `file` the path it names on this
machine, if it does.

Spaces and control characters at the ends of the text do not count, and neither do
tabs and line breaks anywhere, save that one of these may end a drive letter.  The
schemes that always have a host are special.  In them a backslash counts as a slash.
-/

namespace ScriptModules

/-- A URL. -/
structure Url where
  /-- The scheme, in lower case. -/
  scheme : String
  /-- The local path a `file` URL names. -/
  localPath : Option Path
  deriving DecidableEq

namespace Url

/-! ## Schemes -/

/-- Characters of a scheme after the first. -/
def isSchemeChar (c : Char) : Bool :=
  c.isAlphanum || c == '+' || c == '-' || c == '.'

/-- Whether a character is passed over in a URL: a tab or a line break. -/
def isIgnored (c : Char) : Bool :=
  c == '\t' || c == '\n' || c == '\r'

/-- A text without the characters that are passed over. -/
def plain (text : List Char) : List Char :=
  text.filter fun c => !isIgnored c

/-- A text without spaces and control characters at its ends. -/
def trimmed (text : List Char) : List Char :=
  let isControl (c : Char) : Bool := c.toNat ≤ 0x20
  ((text.dropWhile isControl).reverse.dropWhile isControl).reverse

/-- The scheme, and the text after the colon. -/
def scheme? (text : List Char) : Option (String × List Char) :=
  let scheme := text.takeWhile isSchemeChar
  match text.drop scheme.length with
  | ':' :: rest =>
    if scheme.head?.any Char.isAlpha then some (String.ofList (scheme.map Char.toLower), rest)
    else none
  | _ => none

/-- Whether a scheme other than `file` always has a host. -/
def isSpecial (scheme : String) : Bool :=
  ["http", "https", "ws", "wss", "ftp"].contains scheme

/-! ## Hosts and ports -/

/-- Whether a character ends the part with the host. -/
def endsAuthority (special : Bool) (c : Char) : Bool :=
  c == '/' || c == '?' || c == '#' || (special && c == '\\')

/-- The text of a host up to the colon of a port; colons in brackets belong to it. -/
def hostText : (bracket : Bool) → List Char → List Char
  | _, [] => []
  | bracket, c :: cs =>
    if c = ':' ∧ ¬ bracket then []
    else c :: hostText (if c = '[' then true else if c = ']' then false else bracket) cs

/-- One past the largest port. -/
def portBound : Nat := 65536

/-- Whether a text is a port with its colon, or nothing.  A port ends at a backslash,
whatever the scheme. -/
def isPort : List Char → Bool
  | [] => true
  | ':' :: rest =>
    let port := rest.takeWhile (· != '\\')
    port.all Char.isDigit && Text.numeralUpTo portBound 10 port < portBound
  | _ => false

/-- Splits a text at the last occurrence of a character. -/
def splitLast (c : Char) (text : List Char) : Option (List Char × List Char) :=
  let after := text.reverse.takeWhile (· != c)
  match text.reverse.drop after.length with
  | _ :: before => some (before.reverse, after.reverse)
  | [] => none

/-- Whether what follows two slashes has a proper user, host and port. -/
def hasAuthority (special : Bool) (text : List Char) : Bool :=
  let authority := text.takeWhile fun c => !endsAuthority special c
  let (user, place) := (splitLast '@' authority).getD ([], authority)
  let more := text.drop authority.length != []
  let emptyUser := authority.head? == some '@' && user == []
  let named := user.any (· != ':') || 2 ≤ user.length
  let host := hostText false place
  let port := place.drop host.length
  if emptyUser && place == [] && more then false
  else match if special then host? host else opaqueHost? host with
    | none => false
    | some .absent => port == [] && !named
    | some _ => isPort port

/-! ## Pieces of paths -/

/-- Whether a character separates the pieces of a special path. -/
def isSlash (c : Char) : Bool :=
  c == '/' || c == '\\'

/-- Whether a piece is a drive letter with a colon or a bar. -/
def isDrive : List Char → Bool
  | [letter, mark] => letter.isAlpha && (mark == ':' || mark == '|')
  | _ => false

/-- Whether a piece stands for the directory itself. -/
def isSingleDot (piece : List Char) : Bool :=
  ["." , "%2e"].contains (String.ofList (piece.map Char.toLower))

/-- Whether a piece stands for the directory above. -/
def isDoubleDot (piece : List Char) : Bool :=
  ["..", ".%2e", "%2e.", "%2e%2e"].contains (String.ofList (piece.map Char.toLower))

/-- The two parts of a piece that is a drive letter with its colon, then a character
that is passed over, then more. -/
def driveAndMore? (piece : List Char) : Option (List Char × List Char) :=
  match piece.dropWhile isIgnored with
  | letter :: rest =>
    match rest.dropWhile isIgnored with
    | ':' :: rest =>
      if letter.isAlpha && rest.head?.any isIgnored && plain rest != [] then
        some ([letter, ':'], plain rest)
      else none
    | _ => none
  | [] => none

/-- Resolves dots.  `above` holds the pieces kept so far, last first, and `onDrive`
tells whether the first of them is a drive letter that was a whole piece.  A drive
letter is never left.  If one comes first, it gets a colon, and what follows it in
the same piece becomes a piece that stays as it is. -/
def resolveDots : (onDrive : Bool) → (above : List (List Char)) → List (List Char) →
    Bool × List (List Char)
  | onDrive, above, [] => (onDrive, above.reverse)
  | onDrive, above, text :: pieces =>
    let piece := plain text
    let ending := if pieces = [] then [[]] else []
    if isDoubleDot piece then
      resolveDots onDrive (ending ++ if above.head?.any isDrive then above else above.drop 1) pieces
    else if isSingleDot piece then resolveDots onDrive (ending ++ above) pieces
    else match above, driveAndMore? text with
      | [], some (drive, more) => resolveDots onDrive [more, drive] pieces
      | [], none =>
        if isDrive piece then resolveDots true [piece.take 1 ++ [':']] pieces
        else resolveDots onDrive [piece] pieces
      | above, _ => resolveDots onDrive (piece :: above) pieces

/-- The pieces of the path of a `file` URL, and whether the first is a drive letter
that was a whole piece. -/
def pathPieces (text : List Char) : Bool × List (List Char) :=
  let path := text.takeWhile fun c => c != '?' && c != '#'
  resolveDots false [] (Text.piecesAt '/' (path.map fun c => if isSlash c then '/' else c))

/-! ## Local paths -/

/-- The local path that the path of a `file` URL names.  Empty pieces at the front do
not count.  A path that ends like a drive letter gets a slash. -/
def localPathOf (text : List Char) : Path :=
  let pieces := (pathPieces text).2.dropWhile (· == [])
  let bytes := (if pieces = [] then [[]] else pieces).flatMap fun piece =>
    Path.slash :: percentDecode piece
  match bytes.reverse.map fun byte => Char.ofNat byte.toNat with
  | mark :: letter :: _ :: _ =>
    if isDrive [letter, mark] then ⟨bytes ++ [Path.slash]⟩ else ⟨bytes⟩
  | _ => ⟨bytes⟩

/-- The text after the first character that is not passed over, if that is a slash. -/
def afterSlash? (text : List Char) : Option (List Char) :=
  match text.dropWhile isIgnored with
  | c :: rest => if isSlash c then some rest else none
  | [] => none

/-- The local path of a `file` URL with a host, from the host on.  A path without a
host that begins with a slash has an empty piece in front.  The host is forgotten if
the path begins with a drive letter. -/
def hostedPath? (text : List Char) : Option (Option Path) :=
  let host := plain (text.takeWhile fun c => !endsAuthority true c)
  let rest := text.dropWhile fun c => !endsAuthority true c
  if isDrive host then some (some (localPathOf text))
  else do
    match ← if host = [] then some .absent else host? host with
    | .other =>
      let rest := (afterSlash? rest).getD rest
      return if (pathPieces rest).1 then some (localPathOf rest) else none
    | _ => return some (localPathOf rest)

/-- The URL of a `file` scheme, from the colon on. -/
def file? (text : List Char) : Option Url :=
  match afterSlash? text with
  | none => some ⟨"file", some (localPathOf text)⟩
  | some rest =>
    match afterSlash? rest with
    | none => some ⟨"file", some (localPathOf rest)⟩
    | some rest => (hostedPath? rest).map fun path => ⟨"file", path⟩

/-! ## Reading -/

/-- The URL a text is, if it is an absolute one. -/
def parse? (text : String) : Option Url := do
  let text := trimmed text.toList
  let (scheme, rest) ← scheme? (plain text)
  if scheme = "file" then file? ((text.dropWhile (· != ':')).drop 1)
  else if isSpecial scheme then
    if hasAuthority true (rest.dropWhile isSlash) then
      return ⟨scheme, none⟩
    else none
  else match rest with
    | '/' :: '/' :: rest => if hasAuthority false rest then return ⟨scheme, none⟩ else none
    | _ => return ⟨scheme, none⟩

end Url

end ScriptModules
