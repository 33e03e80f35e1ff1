/-! # Blank characters, trimming and words

    Blank means Unicode White_Space.  Only the line feed ends a line
    (`IsaTable.Text.Lines`); every other blank character merely separates
    words.

    Main definitions:
    - `isBlank`, the character class;
    - `trim`, a text without the blanks at its two ends;
    - `words`, the maximal blank-free runs of a text, in order.
-/

namespace IsaTable.Text

/-! ## §1. The class -/

/-- The code points with the property White_Space. -/
def blankRanges : List (Nat × Nat) :=
  [(0x09, 0x0D), (0x20, 0x20), (0x85, 0x85), (0xA0, 0xA0), (0x1680, 0x1680),
   (0x2000, 0x200A), (0x2028, 0x2029), (0x202F, 0x202F), (0x205F, 0x205F),
   (0x3000, 0x3000)]

/-- A character is blank when its code point lies in one of `blankRanges`. -/
def isBlank (c : Char) : Bool :=
  blankRanges.any fun r => decide (r.1 ≤ c.toNat ∧ c.toNat ≤ r.2)

@[simp] theorem isBlank_space : isBlank ' ' = true := by decide

@[simp] theorem isBlank_tab : isBlank '\t' = true := by decide

@[simp] theorem isBlank_newline : isBlank '\n' = true := by decide

@[simp] theorem isBlank_return : isBlank '\r' = true := by decide

@[simp] theorem isBlank_hash : isBlank '#' = false := by decide

@[simp] theorem isBlank_comma : isBlank ',' = false := by decide

/-- Every character that the standard library counts as white space is
    blank; the converse fails, since that class is ASCII only. -/
theorem isBlank_of_isWhitespace {c : Char} (h : c.isWhitespace = true) :
    isBlank c = true := by
  simp only [Char.isWhitespace, Bool.or_eq_true, decide_eq_true_eq] at h
  rcases h with ((rfl | rfl) | rfl) | rfl <;> decide

/-! ## §2. Trimming -/

/-- The text without the blanks at its start. -/
def trimStart (text : List Char) : List Char :=
  text.dropWhile isBlank

/-- The text without the blanks at its end. -/
def trimEnd (text : List Char) : List Char :=
  (text.reverse.dropWhile isBlank).reverse

/-- The text without the blanks at either end. -/
def trim (text : List Char) : List Char :=
  trimEnd (trimStart text)

@[simp] theorem trimStart_nil : trimStart [] = [] := rfl

@[simp] theorem trimEnd_nil : trimEnd [] = [] := rfl

@[simp] theorem trim_nil : trim [] = [] := rfl

/-! ## §3. Words -/

/-- The maximal blank-free runs of a text, in order.  Cutting at every blank
    leaves empty pieces between neighbouring blanks; they are no words. -/
def words (text : List Char) : List (List Char) :=
  (text.splitOnP isBlank).filter fun piece => !piece.isEmpty

@[simp] theorem words_nil : words [] = [] := rfl

/-- **Words end at blanks.**  A blank separates the words before it from the
    words after it. -/
theorem words_append_blank {c : Char} (h : isBlank c = true) (before after : List Char) :
    words (before ++ c :: after) = words before ++ words after := by
  unfold words
  rw [List.splitOnP_append_cons before after h, List.filter_append]

/-- A blank at the start belongs to no word. -/
theorem words_cons_blank {c : Char} (h : isBlank c = true) (text : List Char) :
    words (c :: text) = words text := by
  simpa using words_append_blank h [] text

/-- A text without blanks is one word. -/
theorem words_of_no_blank {text : List Char} (hne : text ≠ [])
    (h : ∀ c ∈ text, isBlank c = false) : words text = [text] := by
  rw [words, List.splitOnP_eq_singleton h]
  simp [hne]

/-- A word is never empty. -/
theorem ne_nil_of_mem_words {text word : List Char} (h : word ∈ words text) :
    word ≠ [] := by
  have := (List.mem_filter.1 h).2
  intro contra
  simp [contra] at this

end IsaTable.Text
