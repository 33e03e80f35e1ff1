/-! # Lines

    A line ends at a line feed.  One carriage return directly before that
    line feed belongs to the line end and is dropped; a final line feed
    starts no further line, and a last line without one keeps its carriage
    return.
-/

namespace IsaTable.Text

/-- The line without one carriage return at its end. -/
def dropReturn (line : List Char) : List Char :=
  if line.getLast? = some '\r' then line.dropLast else line

/-- The lines behind the pieces between line feeds: the last piece was ended
    by the end of the text, all others by a line feed. -/
def linesOfPieces : List (List Char) → List (List Char)
  | [] => []
  | [last] => if last.isEmpty then [] else [last]
  | piece :: next :: rest => dropReturn piece :: linesOfPieces (next :: rest)

/-- The lines of a text, without their line ends. -/
def lines (text : List Char) : List (List Char) :=
  linesOfPieces (text.splitOn '\n')

@[simp] theorem lines_nil : lines [] = [] := rfl

/-- A carriage return that no line feed follows stays. -/
example : lines "a\r\n\rb\r".toList = [['a'], ['\r', 'b', '\r']] := by decide

/-- A final line feed starts no line, but an empty line counts. -/
example : lines "\n\na\n".toList = [[], [], ['a']] := by decide

end IsaTable.Text
