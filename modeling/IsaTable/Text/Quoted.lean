import IsaTable.Text.Invisible

/-! # Quoted texts

    A text as it is shown inside a message: between double quotes, with every
    character that could be mistaken for another, or for the end, written as
    an escape.
-/

namespace IsaTable.Text

/-- A character inside a quoted text.  The double quote and the backslash are
    escaped by a backslash; an invisible character is written by its code
    point. -/
def quoteChar (c : Char) : List Char :=
  if c = '\x00' then ['\\', '0']
  else if c = '\t' then ['\\', 't']
  else if c = '\r' then ['\\', 'r']
  else if c = '\n' then ['\\', 'n']
  else if c = '\\' ∨ c = '"' then ['\\', c]
  else if isInvisible c then ['\\', 'u', '\x7b'] ++ Nat.toDigits 16 c.toNat ++ ['\x7d']
  else [c]

/-- A text between double quotes. -/
def quote (text : String) : String :=
  String.ofList ('"' :: (text.toList.flatMap quoteChar) ++ ['"'])

/-- A single quote cannot be mistaken for the end. -/
example : quote "a\"b'\n" = "\"a\\\"b'\\n\"" := by decide +kernel

end IsaTable.Text
