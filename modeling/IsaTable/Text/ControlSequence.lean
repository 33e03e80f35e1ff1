/-! # Control sequences

    What is left of a text when everything in it that gives orders to a
    terminal is left out: control characters other than the usual white
    space, and the sequences that an escape character begins.

    * A **control sequence** (`ESC [`) ends with a letter or another of the
      characters from `@` to `~`.
    * A **command** (`ESC ]`) ends with a bell.
    * A **string** (`ESC P` and a head, or `ESC X`, `ESC ^`, `ESC _`) ends
      where the encoding of the text has the byte `0x9C`.
    * Any other escape sequence ends with its first character from `0` to
      `~`.

    A new escape character ends what has begun and begins anew; cancel and
    substitute end it.  White space in a sequence of the first or the last
    kind shows, and so does what follows it up to the next control character,
    where the sequence goes on.

    Main definitions:
    - `Sequence.next?`, how a sequence goes on;
    - `Display.step`, what happens to a character;
    - `visible`, the text that is left.
-/

namespace IsaTable.Text

/-! ## §1. Characters -/

/-- White space that is laid out like printed characters. -/
def isLayout (c : Char) : Bool :=
  c = '\t' ∨ c = '\n' ∨ c = '\x0c' ∨ c = '\r'

/-- Whether a character outside of sequences shows. -/
def isPlain (c : Char) : Bool :=
  isLayout c ∨ (0x20 ≤ c.toNat ∧ c ≠ '\x7f')

/-- Whether a character lies between two ASCII characters. -/
def isBetween (low high c : Char) : Bool :=
  low.toNat ≤ c.toNat ∧ c.toNat ≤ high.toNat

/-! ## §2. Sequences -/

/-- A sequence that has begun, by what can follow. -/
inductive Sequence where
  /-- An escape character, and nothing after it yet. -/
  | escape
  /-- An escape sequence of which only the last character is missing. -/
  | escapeTail
  /-- A control sequence. -/
  | control
  /-- A command. -/
  | command
  /-- The head of a device's string, and nothing of it yet. -/
  | deviceHead
  /-- The parameters in that head. -/
  | deviceParameters
  /-- What may stand between the parameters and the end of the head. -/
  | deviceTail
  /-- The body of a string. -/
  | string
  deriving DecidableEq, Repr

namespace Sequence

/-- Whether layout shows inside the sequence. -/
def showsLayout : Sequence → Bool
  | escape | escapeTail | control => true
  | _ => false

/-- What an escape character and the character after it begin, if that is
    more than the two. -/
def afterEscape (c : Char) : Option Sequence :=
  if c = '[' then some control
  else if c = ']' then some command
  else if c = 'P' then some deviceHead
  else if c = 'X' ∨ c = '^' ∨ c = '_' then some string
  else if isBetween '0' '~' c then none
  else if isBetween ' ' '/' c then some escapeTail
  else some escape

/-- The sequence after one more character; without one it has ended.  A
    character that has no place in a sequence changes nothing. -/
def next? (s : Sequence) (c : Char) : Option Sequence :=
  if c = '\x1b' then some escape
  else if c = '\x18' ∨ c = '\x1a' then none
  else
    match s with
    | escape => afterEscape c
    | escapeTail => if isBetween '0' '~' c then none else some escapeTail
    | control => if isBetween '@' '~' c then none else some control
    | command => if c = '\x07' then none else some command
    | deviceHead =>
      if isBetween ' ' '/' c then some deviceTail
      else if isBetween '0' '?' c then some deviceParameters
      else if isBetween '@' '~' c then some string
      else some deviceHead
    | deviceParameters =>
      if isBetween ' ' '/' c then some deviceTail
      else if isBetween '<' '~' c then some string
      else some deviceParameters
    | deviceTail => if isBetween '0' '~' c then some string else some deviceTail
    | string => if 0x9C ∈ String.utf8EncodeChar c then none else some string

end Sequence

/-! ## §3. Displays -/

/-- Where a display stands in a text. -/
inductive Display where
  /-- Outside of sequences. -/
  | plain
  /-- In a sequence. -/
  | inside (s : Sequence)
  /-- In a sequence, in what shows after layout. -/
  | interrupted (s : Sequence)
  deriving DecidableEq, Repr

namespace Display

/-- In the sequence, if there is one. -/
def ofSequence : Option Sequence → Display
  | some s => inside s
  | none => plain

/-- Takes a character, and tells whether it shows.  A character beyond ASCII
    that shows ends the sequence that was interrupted. -/
def step : Display → Char → Display × Bool
  | plain, c =>
    if isPlain c then (plain, true)
    else (if c = '\x1b' then inside .escape else plain, false)
  | inside s, c =>
    if isLayout c ∧ s.showsLayout then (interrupted s, true)
    else (ofSequence (s.next? c), false)
  | interrupted s, c =>
    if isPlain c then (if c.toNat < 0x80 then interrupted s else plain, true)
    else (ofSequence (s.next? c), false)

/-- The characters that show. -/
def shown : Display → List Char → List Char
  | _, [] => []
  | d, c :: rest =>
    if (d.step c).2 then c :: shown (d.step c).1 rest else shown (d.step c).1 rest

/-- Characters are left out, but none is added or moved. -/
theorem shown_sublist (d : Display) (chars : List Char) : (d.shown chars).Sublist chars := by
  induction chars generalizing d with
  | nil => simp [shown]
  | cons c rest ih =>
    unfold shown
    split
    · exact (ih _).cons_cons c
    · exact (ih _).cons c

/-- Plain characters all show. -/
theorem shown_of_plain {chars : List Char} (h : ∀ c ∈ chars, isPlain c = true) :
    plain.shown chars = chars := by
  induction chars with
  | nil => rfl
  | cons c rest ih =>
    have hc := h c (by simp)
    have hr := ih fun d hd => h d (by simp [hd])
    simp [shown, step, hc, hr]

end Display

/-- What is left of a text without the orders in it. -/
def visible (text : String) : String :=
  String.ofList (Display.plain.shown text.toList)

/-- Colours are left out, and so are control characters. -/
example : visible "a\x1b[31mred\x1b[0m\x01\tz" = "ared\tz" := by decide +kernel

/-- A line end in an unfinished sequence shows, and so does what follows. -/
example : visible "a\x1b[?25\nhz" = "a\nhz" := by decide +kernel

end IsaTable.Text
