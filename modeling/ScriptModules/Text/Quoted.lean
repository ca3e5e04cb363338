import ScriptModules.Text.Hidden

/-!
# Quoted text in diagnostics

The form in which a diagnostic shows a text: in double quotes, with the quote,
the backslash and everything without a plain form escaped.  A character that has
no letter of its own is written by its code point in hexadecimal.
-/

namespace ScriptModules.Text

/-- A character inside the quotes. -/
def quoteChar (c : Char) : List Char :=
  if c = '\x00' then ['\\', '0']
  else if c = '\t' then ['\\', 't']
  else if c = '\r' then ['\\', 'r']
  else if c = '\n' then ['\\', 'n']
  else if c = '\\' then ['\\', '\\']
  else if c = '"' then ['\\', '"']
  else if isHidden c then ['\\', 'u', '\x7b'] ++ Nat.toDigits 16 c.toNat ++ ['\x7d']
  else [c]

/-- A text in quotes. -/
def quote (text : String) : String :=
  String.ofList ('"' :: (text.toList.flatMap quoteChar ++ ['"']))

end ScriptModules.Text
