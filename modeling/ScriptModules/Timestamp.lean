import ScriptModules.Text.Blank
import ScriptModules.Text.Numeral

/-!
# Timestamps

A point in time, as seconds since the start of 1970 (UTC) and nanoseconds, with
its text form of RFC 3339.  During a leap second the seconds stand still and the
nanoseconds run on past 999 999 999.

The writer gives as many digits of the fraction as are needed, in groups of
three, and always UTC.  The reader is more liberal: it takes blanks between the
parts, a blank for the `T`, `UTC` for the zone, and any zone less than a day
away.

Dates are counted in eras of 400 years, each of 146 097 days, and in years that
begin with March, so that the leap day is the last day of its year.
-/

namespace ScriptModules

/-- A point in time. -/
structure Timestamp where
  /-- Whole seconds since the start of 1970. -/
  seconds : Int
  /-- Nanoseconds past them. -/
  nanos : Nat
  deriving DecidableEq, Repr, Inhabited

namespace Timestamp

/-- Whether the first is strictly earlier. -/
def before (s t : Timestamp) : Bool :=
  s.seconds < t.seconds || (s.seconds == t.seconds && s.nanos < t.nanos)

/-! ## Dates -/

/-- A day of the Gregorian calendar. -/
structure Date where
  year : Int
  month : Nat
  day : Nat
  deriving DecidableEq, Repr

/-- The number of days in a month. -/
def daysInMonth (year : Int) (month : Nat) : Nat :=
  if month = 2 then
    if year % 4 = 0 ∧ (year % 100 ≠ 0 ∨ year % 400 = 0) then 29 else 28
  else if month = 4 ∨ month = 6 ∨ month = 9 ∨ month = 11 then 30
  else 31

/-- Days from the start of 1970 to a date. -/
def Date.toDays (date : Date) : Int :=
  let year := if date.month ≤ 2 then date.year - 1 else date.year
  let era := year.fdiv 400
  let yearOfEra := year.fmod 400
  let month : Int := if 2 < date.month then date.month - 3 else date.month + 9
  let dayOfYear := (153 * month + 2) / 5 + date.day - 1
  era * 146097 + yearOfEra * 365 + yearOfEra / 4 - yearOfEra / 100 + dayOfYear - 719468

/-- The date a number of days after the start of 1970. -/
def Date.ofDays (days : Int) : Date :=
  let shifted := days + 719468
  let era := shifted.fdiv 146097
  let dayOfEra := (shifted.fmod 146097).toNat
  let yearOfEra := (dayOfEra - dayOfEra / 1460 + dayOfEra / 36524 - dayOfEra / 146096) / 365
  let dayOfYear := dayOfEra - (365 * yearOfEra + yearOfEra / 4 - yearOfEra / 100)
  let month := (5 * dayOfYear + 2) / 153
  let day := dayOfYear - (153 * month + 2) / 5 + 1
  let year := era * 400 + yearOfEra
  if month < 10 then ⟨year, month + 3, day⟩ else ⟨year + 1, month - 9, day⟩

example : Date.ofDays 11016 = ⟨2000, 2, 29⟩ ∧ Date.toDays ⟨2000, 2, 29⟩ = 11016 := by decide
example : Date.ofDays (-1) = ⟨1969, 12, 31⟩ ∧ Date.toDays ⟨1969, 12, 31⟩ = -1 := by decide

/-! ## Writing -/

/-- A number with at least `width` digits. -/
def padded (width n : Nat) : List Char :=
  let ds := (toString n).toList
  List.replicate (width - ds.length) '0' ++ ds

/-- A year: four digits, or a sign and at least four. -/
def writeYear (year : Int) : List Char :=
  if 0 ≤ year ∧ year ≤ 9999 then padded 4 year.toNat
  else (if year < 0 then '-' else '+') :: padded 4 year.natAbs

/-- A fraction of a second: nothing, or a point with 3, 6 or 9 digits. -/
def writeFraction (nanos : Nat) : List Char :=
  if nanos = 0 then []
  else if nanos % 1000000 = 0 then '.' :: padded 3 (nanos / 1000000)
  else if nanos % 1000 = 0 then '.' :: padded 6 (nanos / 1000)
  else '.' :: padded 9 nanos

/-- The text form, in UTC. -/
def write (t : Timestamp) : List Char :=
  let date := Date.ofDays (t.seconds.fdiv 86400)
  let second := (t.seconds.fmod 86400).toNat
  let leap := if 1000000000 ≤ t.nanos then 1 else 0
  writeYear date.year ++ '-' :: padded 2 date.month ++ '-' :: padded 2 date.day ++
    'T' :: padded 2 (second / 3600) ++ ':' :: padded 2 (second / 60 % 60) ++
    ':' :: padded 2 (second % 60 + leap) ++ writeFraction (t.nanos % 1000000000) ++ ['Z']

/-! ## Reading -/

/-- A number of one to `width` digits after blanks, and the text after it. -/
def readNumber (width : Nat) (text : List Char) : Option (Nat × List Char) :=
  let text := trimStart text
  let ds := (text.take width).takeWhile Char.isDigit
  if ds = [] then none
  else some (Text.numeral 10 ds, text.drop ds.length)

/-- A year: up to four digits, or a sign and any number of them. -/
def readYear (text : List Char) : Option (Int × List Char) :=
  match trimStart text with
  | '-' :: rest => if rest.head?.any Char.isDigit then signed rest fun n => -(n : Int) else none
  | '+' :: rest => if rest.head?.any Char.isDigit then signed rest fun n => n else none
  | text => (readNumber 4 text).map fun (n, rest) => (n, rest)
where
  /-- All digits at the front, with a sign applied. -/
  signed (text : List Char) (sign : Nat → Int) : Option (Int × List Char) :=
    (readNumber text.length text).map fun (n, rest) => (sign n, rest)

/-- The text after a mark, which may stand behind blanks. -/
def readMark (mark : Char) (text : List Char) : Option (List Char) :=
  match trimStart text with
  | c :: rest => if c = mark then some rest else none
  | [] => none

/-- Nanoseconds from a fraction at the front; digits past the ninth are passed over. -/
def readFraction : List Char → Option (Nat × List Char)
  | '.' :: rest =>
    let ds := rest.takeWhile Char.isDigit
    if ds = [] then none
    else
      let kept := ds.take 9
      some (Text.numeral 10 kept * 10 ^ (9 - kept.length), rest.drop ds.length)
  | text => some (0, text)

/-- Two digits at the front. -/
def readPair : List Char → Option (Nat × List Char)
  | a :: b :: rest =>
    if a.isDigit ∧ b.isDigit then some (Text.numeral 10 [a, b], rest) else none
  | _ => none

/-- The zone at the front, in seconds east of UTC. -/
def readZone (text : List Char) : Option (Int × List Char) :=
  match trimStart text with
  | 'Z' :: rest => some (0, rest)
  | 'z' :: rest => some (0, rest)
  | '+' :: rest => (offset rest).map fun (n, rest) => ((n : Int), rest)
  | '-' :: rest => (offset rest).map fun (n, rest) => (-(n : Int), rest)
  | '\u2212' :: rest => (offset rest).map fun (n, rest) => (-(n : Int), rest)
  | u :: t :: c :: rest => if [u, t, c].map Char.toUpper = ['U', 'T', 'C'] then some (0, rest) else none
  | _ => none
where
  /-- Hours and minutes, with colons or blanks between them. -/
  offset (text : List Char) : Option (Nat × List Char) := do
    let (hours, text) ← readPair text
    let (minutes, text) ← readPair (text.dropWhile fun c => c = ':' || isBlank c)
    if minutes < 60 ∧ 3600 * hours + 60 * minutes < 86400 then
      return (3600 * hours + 60 * minutes, text)
    else none

/-- Whether dates go as far as a year. -/
def isYear (year : Int) : Bool :=
  -262143 ≤ year && year ≤ 262142

/-- The time a text names.  Its date has to be one in its own zone and in UTC. -/
def read? (text : List Char) : Option Timestamp := do
  let (year, text) ← readYear text
  let text ← readMark '-' text
  let (month, text) ← readNumber 2 text
  let text ← readMark '-' text
  let (day, text) ← readNumber 2 text
  let text ← match text with
    | c :: rest => if c = 'T' ∨ c = 't' ∨ c = ' ' then some rest else none
    | [] => none
  let (hour, text) ← readNumber 2 text
  let text ← readMark ':' text
  let (minute, text) ← readNumber 2 text
  let text ← readMark ':' text
  let (second, text) ← readNumber 2 text
  let (nanos, text) ← readFraction text
  let (zone, text) ← readZone text
  if trimStart text = [] ∧ isYear year ∧ 1 ≤ month ∧ month ≤ 12 ∧ 1 ≤ day ∧
      day ≤ daysInMonth year month ∧ hour < 24 ∧ minute < 60 ∧ second ≤ 60 then
    let leap := if second = 60 then 1 else 0
    let time : Int := 3600 * hour + 60 * minute + (second - leap : Nat)
    let seconds := 86400 * Date.toDays ⟨year, month, day⟩ + time - zone
    if isYear (Date.ofDays (seconds.fdiv 86400)).year then
      return ⟨seconds, nanos + 1000000000 * leap⟩
    else none
  else none

end Timestamp

end ScriptModules
