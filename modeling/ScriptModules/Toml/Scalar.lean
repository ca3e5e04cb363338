import ScriptModules.Json.Value

/-!
# Strings, numbers and dates in TOML

The grammar of the values of TOML 1.0 that hold no other values.  Each reader
takes the text from the value on and gives the value and the text after it.

A date or time has no counterpart among JSON values.  It is read as an object
with one member under a private name, which no record has as a field.
-/

namespace ScriptModules.Toml

/-! ## Strings -/

/-- Characters that stand for themselves in a basic string. -/
def isBasicChar (c : Char) : Bool :=
  c == '\t' || (0x20 ≤ c.toNat && c.toNat ≠ 0x7F && c != '"' && c != '\\')

/-- Characters that may stand in a literal string. -/
def isLiteralChar (c : Char) : Bool :=
  c == '\t' || (0x20 ≤ c.toNat && c.toNat ≠ 0x7F && c != '\'')

/-- The number hexadecimal digits name. -/
def hexNumber? (digits : List Char) : Option Nat :=
  if digits.all Text.isHexDigit then some (Text.hexNumber digits)
  else none

/-- The character of a code point. -/
def char? (n : Nat) : Option Char :=
  if n.isValidChar then some (Char.ofNat n) else none

/-- The character an escape names, and the text after it. -/
def escape? : List Char → Option (Char × List Char)
  | 'b' :: rest => some ('\x08', rest)
  | 'f' :: rest => some ('\x0c', rest)
  | 'n' :: rest => some ('\n', rest)
  | 'r' :: rest => some ('\r', rest)
  | 't' :: rest => some ('\t', rest)
  | '\\' :: rest => some ('\\', rest)
  | '"' :: rest => some ('"', rest)
  | 'u' :: a :: b :: c :: d :: rest => do
    return (← char? (← hexNumber? [a, b, c, d]), rest)
  | 'U' :: a :: b :: c :: d :: e :: f :: g :: h :: rest => do
    return (← char? (← hexNumber? [a, b, c, d, e, f, g, h]), rest)
  | _ => none

/-- The text up to the closing quotes, and the text after them.  A backslash keeps the
character after it from closing a string that has escapes. -/
def upTo? (closing : List Char) (escapes : Bool) :
    (taken : List Char) → List Char → Option (List Char × List Char)
  | _, [] => none
  | taken, c :: rest =>
    if closing.isPrefixOf (c :: rest) then some (taken.reverse, rest.drop (closing.length - 1))
    else if escapes && c == '\\' then
      match rest with
      | [] => none
      | d :: rest => upTo? closing escapes (d :: c :: taken) rest
    else upTo? closing escapes (c :: taken) rest

/-- The text up to three quotes, and the text after them.  Of further quotes right
after them, up to two belong to the string. -/
def upToThree? (quote : Char) (escapes : Bool) (text : List Char) :
    Option (List Char × List Char) := do
  let (body, rest) ← upTo? [quote, quote, quote] escapes [] text
  let inside := (rest.take 2).takeWhile (· == quote)
  return (body ++ inside, rest.drop inside.length)

/-- A line break at the front is passed over. -/
def skipNewline : List Char → List Char
  | '\n' :: rest => rest
  | '\r' :: '\n' :: rest => rest
  | text => text

/-- Whether a character is a blank inside a line. -/
def isBlankInLine (c : Char) : Bool :=
  c == ' ' || c == '\t'

/-- Blanks and line breaks at the front are passed over. -/
def skipLines : List Char → List Char
  | ' ' :: rest => skipLines rest
  | '\t' :: rest => skipLines rest
  | '\n' :: rest => skipLines rest
  | '\r' :: '\n' :: rest => skipLines rest
  | text => text

/-- What stands between double quotes, without its escapes.  If it may have several
lines, a backslash at the end of one takes away the line break and the blanks after
it. -/
def unescaped? (lines : Bool) : (fuel : Nat) → (taken : List Char) → List Char → Option String
  | 0, _, _ => none
  | fuel + 1, taken, text =>
    match text with
    | [] => some (String.ofList taken.reverse)
    | '\\' :: rest =>
      match lines, rest.dropWhile isBlankInLine with
      | true, '\n' :: after => unescaped? lines fuel taken (skipLines after)
      | true, '\r' :: '\n' :: after => unescaped? lines fuel taken (skipLines after)
      | _, _ => do
        let (c, rest) ← escape? rest
        unescaped? lines fuel (c :: taken) rest
    | c :: rest =>
      if isBasicChar c || c == '"' then unescaped? lines fuel (c :: taken) rest
      else if lines then
        match c, rest with
        | '\n', rest => unescaped? lines fuel ('\n' :: taken) rest
        | '\r', '\n' :: rest => unescaped? lines fuel ('\n' :: taken) rest
        | _, _ => none
      else none

/-- What stands between single quotes in a string of several lines: every line break
is the same character. -/
def literalLines? : (taken : List Char) → List Char → Option String
  | taken, [] => some (String.ofList taken.reverse)
  | taken, '\n' :: rest => literalLines? ('\n' :: taken) rest
  | taken, '\r' :: '\n' :: rest => literalLines? ('\n' :: taken) rest
  | taken, c :: rest =>
    if isLiteralChar c || c == '\'' then literalLines? (c :: taken) rest else none

/-- A string on one line, which is what a key may be too. -/
def lineString? : List Char → Option (String × List Char)
  | '"' :: rest => do
    let (body, rest) ← upTo? ['"'] true [] rest
    return (← unescaped? false (body.length + 1) [] body, rest)
  | '\'' :: rest => do
    let (body, rest) ← upTo? ['\''] false [] rest
    if body.all isLiteralChar then some (String.ofList body, rest) else none
  | _ => none

/-- A string of any kind. -/
def string? : List Char → Option (String × List Char)
  | '"' :: '"' :: '"' :: rest => do
    let (body, rest) ← upToThree? '"' true (skipNewline rest)
    return (← unescaped? true (body.length + 1) [] body, rest)
  | '\'' :: '\'' :: '\'' :: rest => do
    let (body, rest) ← upToThree? '\'' false (skipNewline rest)
    return (← literalLines? [] body, rest)
  | text => lineString? text

/-! ## Numbers -/

/-- Digits that pass a test, with single underscores between them; the digits
without the underscores, and the text after them. -/
def underscored? (isDigit : Char → Bool) (text : List Char) : Option (List Char × List Char) :=
  let body := text.takeWhile fun c => isDigit c || c == '_'
  let clashes := (body.zip (body.drop 1)).any fun pair => pair.1 == '_' && pair.2 == '_'
  if body.head?.any isDigit && body.getLast?.any isDigit && !clashes then
    some (body.filter (· != '_'), text.drop body.length)
  else none

/-- A bound that no integer of 64 bits and no exponent that matters reaches. -/
def valueBound : Nat := 2 ^ 64

/-- The number digits stand for in a base up to 16, or `valueBound` if it is larger. -/
def valueInBase (base : Nat) (digits : List Char) : Nat :=
  Text.numeralUpTo valueBound base digits

/-- An integer that fits 64 bits with a sign. -/
def integer? (n : Int) : Option Json :=
  if -(2 ^ 63) ≤ n ∧ n < 2 ^ 63 then some (.integer n) else none

/-- An integer in a base other than ten, from its digits on. -/
def based? (base : Nat) (isDigit : Char → Bool) (text : List Char) : Option (Json × List Char) := do
  let (digits, rest) ← underscored? isDigit text
  return (← integer? (valueInBase base digits), rest)

/-- The exponent at the front, if there is one; `none` if it has no digits. -/
def exponent? : List Char → Option (Option Int × List Char)
  | [] => some (none, [])
  | mark :: rest =>
    if mark == 'e' || mark == 'E' then do
      let (negative, rest) := match rest with
        | '-' :: rest => (true, rest)
        | '+' :: rest => (false, rest)
        | rest => (false, rest)
      let (digits, rest) ← underscored? Char.isDigit rest
      let n : Int := valueInBase 10 digits
      return (some (if negative then -n else n), rest)
    else some (none, mark :: rest)

/-- A binary64 number.  One above the largest finite value is refused. -/
def float? (negative : Bool) (whole fraction : List Char) (exponent : Int) : Option Json :=
  let shift := exponent - fraction.length
  let f := Float.ofScientific (Text.numeral 10 (whole ++ fraction)) (shift < 0) shift.natAbs
  if negative then some (.float (-f))
  else if f.isInf then none else some (.float f)

/-- A decimal integer or a binary64 number whose sign has been read.  The whole
part does not start with a zero unless it is one. -/
def decimal? (negative : Bool) (text : List Char) : Option (Json × List Char) := do
  let (whole, rest) ← match text with
    | '0' :: rest => some (['0'], rest)
    | _ => underscored? Char.isDigit text
  match rest with
  | '.' :: rest =>
    let (fraction, rest) ← underscored? Char.isDigit rest
    let (exponent, rest) ← exponent? rest
    return (← float? negative whole fraction (exponent.getD 0), rest)
  | _ =>
    match ← exponent? rest with
    | (some exponent, rest) => return (← float? negative whole [] exponent, rest)
    | (none, rest) =>
      let n : Int := valueInBase 10 whole
      return (← integer? (if negative then -n else n), rest)

/-- A number. -/
def number? : List Char → Option (Json × List Char)
  | '0' :: 'x' :: rest => based? 16 Text.isHexDigit rest
  | '0' :: 'o' :: rest => based? 8 (fun c => '0' ≤ c && c ≤ '7') rest
  | '0' :: 'b' :: rest => based? 2 (fun c => c == '0' || c == '1') rest
  | '+' :: rest => signed false rest
  | '-' :: rest => signed true rest
  | text => signed false text
where
  /-- A number whose sign has been read. -/
  signed (negative : Bool) : List Char → Option (Json × List Char)
    | 'i' :: 'n' :: 'f' :: rest =>
      let infinity : Float := 1 / 0
      some (.float (if negative then -infinity else infinity), rest)
    | 'n' :: 'a' :: 'n' :: rest => some (.float (0 / 0), rest)
    | text => decimal? negative text

/-! ## Dates and times -/

/-- A number of exactly `width` digits. -/
def fixed? (width : Nat) (text : List Char) : Option (Nat × List Char) :=
  let ds := text.take width
  if ds.length = width ∧ ds.all Char.isDigit then
    some (valueInBase 10 ds, text.drop width)
  else none

/-- The text after a character. -/
def after? (c : Char) : List Char → Option (List Char)
  | d :: rest => if c = d then some rest else none
  | [] => none

/-- The days of a month. -/
def monthLength (year month : Nat) : Nat :=
  if month = 2 then
    if year % 4 = 0 ∧ (year % 100 ≠ 0 ∨ year % 400 = 0) then 29 else 28
  else if month = 4 ∨ month = 6 ∨ month = 9 ∨ month = 11 then 30
  else 31

/-- A date. -/
def date? (text : List Char) : Option (List Char) := do
  let (year, rest) ← fixed? 4 text
  let (month, rest) ← fixed? 2 (← after? '-' rest)
  let (day, rest) ← fixed? 2 (← after? '-' rest)
  if 1 ≤ month ∧ month ≤ 12 ∧ 1 ≤ day ∧ day ≤ monthLength year month then some rest else none

/-- Hours and minutes. -/
def clock? (text : List Char) : Option (List Char) := do
  let (hour, rest) ← fixed? 2 text
  let (minute, rest) ← fixed? 2 (← after? ':' rest)
  if hour ≤ 23 ∧ minute ≤ 59 then some rest else none

/-- A time of day. -/
def time? (text : List Char) : Option (List Char) := do
  let rest ← clock? text
  let (second, rest) ← fixed? 2 (← after? ':' rest)
  if 60 < second then none
  match rest with
  | '.' :: rest =>
    let ds := rest.takeWhile Char.isDigit
    if ds = [] then none else some (rest.drop ds.length)
  | rest => some rest

/-- A zone at the front, if there is one. -/
def zone? : List Char → Option (List Char)
  | 'Z' :: rest => some rest
  | 'z' :: rest => some rest
  | '+' :: rest => clock? rest
  | '-' :: rest => clock? rest
  | rest => some rest

/-- Whether a text begins like a date or a time. -/
def looksLikeTime (text : List Char) : Bool :=
  ((fixed? 4 text).any fun (_, rest) => rest.head? == some '-') ||
    ((fixed? 2 text).any fun (_, rest) => rest.head? == some ':')

/-- A date, a time, or both with or without a zone. -/
def dateTime? (text : List Char) : Option (Json × List Char) := do
  let rest ← match fixed? 4 text with
    | none => time? text
    | some _ =>
      let rest ← date? text
      match rest with
      | mark :: after =>
        if mark == 'T' || mark == 't' then time? after >>= zone?
        else if mark == ' ' && (fixed? 2 after).any fun (_, r) => r.head? == some ':' then
          time? after >>= zone?
        else some rest
      | [] => some []
  let spelled := text.take (text.length - rest.length)
  return (.object [("$date-time", .string (String.ofList spelled))], rest)

/-- A value that starts with a digit or a sign. -/
def numberOrTime? (text : List Char) : Option (Json × List Char) :=
  if looksLikeTime text then dateTime? text else number? text

end ScriptModules.Toml
