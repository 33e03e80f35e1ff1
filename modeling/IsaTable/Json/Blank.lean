import IsaTable.Json.Error

/-! # Between the tokens of JSON

    JSON allows four blank characters between tokens.  Every reader of this
    library takes the text that is left and returns what it leaves, and the
    lemmas here say that skipping blanks never lengthens it.
-/

namespace IsaTable.Json

/-- What a reader returns: a value with the text that is left, or an error. -/
abbrev Result (α : Type) :=
  Except Error (α × List Char)

/-- The four blanks of JSON; fewer than those of pattern text. -/
def isBlank (c : Char) : Bool :=
  c == ' ' || c == '\t' || c == '\n' || c == '\r'

/-- The text from its first character that is not blank. -/
def skipBlank (s : List Char) : List Char :=
  s.dropWhile isBlank

@[simp] theorem skipBlank_nil : skipBlank [] = [] := rfl

/-- A character that is not blank ends the skipping. -/
theorem skipBlank_cons_of_not_blank {c : Char} (h : isBlank c = false) (s : List Char) :
    skipBlank (c :: s) = c :: s := by
  simp [skipBlank, h]

theorem length_skipBlank_le (s : List Char) : (skipBlank s).length ≤ s.length :=
  (List.dropWhile_sublist isBlank).length_le

/-- What follows the first character after the blanks is shorter than the
    text. -/
theorem length_lt_of_skipBlank {s r : List Char} {c : Char} (h : skipBlank s = c :: r) :
    r.length < s.length := by
  have := length_skipBlank_le s
  simp only [h, List.length_cons] at this
  omega

end IsaTable.Json
