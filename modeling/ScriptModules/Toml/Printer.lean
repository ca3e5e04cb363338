import ScriptModules.Json.Printer

/-!
# Writing TOML

A record is written as a document with one definition for each field, and the
fields that are records themselves as tables after them.  An array of two or
more texts takes one line for each of them.

A text is written in the first form of quotes that shows it without escapes:
double, single, three double, three single.  If there is none, it is escaped,
and spread over lines if it has line breaks.
-/

namespace ScriptModules.Toml

/-! ## Texts -/

/-- The longest run of a character. -/
def longestRun (c : Char) (text : List Char) : Nat :=
  (text.foldl (fun (best, run) d => if d = c then (max best (run + 1), run + 1) else (best, 0))
    (0, 0)).1

/-- Whether a character can only be written escaped. -/
def needsEscape (c : Char) : Bool :=
  c != '\t' && c != '\n' && (c.toNat < 0x20 || c.toNat == 0x7F)

/-- A character as it is written between double quotes. -/
def escape (lines : Bool) (c : Char) : List Char :=
  if c = '\x08' then ['\\', 'b']
  else if c = '\t' then ['\\', 't']
  else if c = '\n' then if lines then [c] else ['\\', 'n']
  else if c = '\x0c' then ['\\', 'f']
  else if c = '\r' then ['\\', 'r']
  else if c = '\\' then ['\\', '\\']
  else if c.toNat < 0x20 ∨ c.toNat = 0x7F then
    ['\\', 'u', '0', '0', (Text.hexDigit (c.toNat / 16)).toUpper, (Text.hexDigit (c.toNat % 16)).toUpper]
  else [c]

/-- The text between double quotes.  Up to `allowed` quotes in a row stand as they
are; `run` counts those just written. -/
def escaped (lines : Bool) (allowed : Nat) : (run : Nat) → List Char → List Char
  | _, [] => []
  | run, c :: cs =>
    if c = '"' then
      if allowed ≤ run then '\\' :: '"' :: escaped lines allowed 0 cs
      else '"' :: escaped lines allowed (run + 1) cs
    else escape lines c ++ escaped lines allowed 0 cs

/-- A text in quotes. -/
def quoted (text : String) : List Char :=
  let cs := text.toList
  let coded := cs.any needsEscape
  let slashed := cs.contains '\\'
  let broken := cs.contains '\n'
  let doubles := longestRun '"' cs
  let singles := longestRun '\'' cs
  let start := if broken then ['\n'] else []
  let three (c : Char) : List Char := [c, c, c]
  if !coded && !slashed && doubles == 0 && !broken then '"' :: (escaped false 0 0 cs ++ ['"'])
  else if !coded && singles == 0 && !broken then '\'' :: (cs ++ ['\''])
  else if !coded && !slashed && doubles ≤ 2 then
    three '"' ++ start ++ escaped true 2 0 cs ++ three '"'
  else if !coded && singles ≤ 2 then three '\'' ++ start ++ cs ++ three '\''
  else if broken then three '"' ++ start ++ escaped true 2 0 cs ++ three '"'
  else '"' :: (escaped false 0 0 cs ++ ['"'])

/-! ## Values -/

/-- An array of texts. -/
def textArray (texts : List String) : List Char :=
  match texts with
  | [] => ['[', ']']
  | [text] => '[' :: (quoted text ++ [']'])
  | texts =>
    '[' :: (texts.flatMap (fun text => '\n' :: ' ' :: ' ' :: ' ' :: ' ' :: (quoted text ++ [','])) ++
      ['\n', ']'])

/-- A truth value. -/
def boolean (b : Bool) : List Char :=
  (if b then "true" else "false").toList

/-- A natural number, if it fits 64 bits with a sign. -/
def natural? (n : Nat) : Option (List Char) :=
  if n < 2 ^ 63 then some (Json.decimal n) else none

/-- The line of a definition. -/
def definition (key : String) (value : List Char) : List Char :=
  key.toList ++ ' ' :: '=' :: ' ' :: (value ++ ['\n'])

end ScriptModules.Toml
