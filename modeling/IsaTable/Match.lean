import IsaTable.Field

/-! # Matches

    A match is a pair of words: a word is accepted when its masked positions
    agree with the expected bits.  Fields are folded into it one after the
    other; a position that two fields cover holds the union of what they
    demand there.
-/

namespace IsaTable

/-- The pair that an instruction word is tested against. -/
structure Match where
  /-- Every constrained position. -/
  mask : Word
  /-- The bit expected at each position. -/
  bits : Word
  deriving DecidableEq, Repr

namespace Match

/-- Constrains nothing and accepts every word. -/
def empty : Match :=
  ⟨0, 0⟩

/-- Adds one field: its positions to the mask, its placed value to the
    bits. -/
def accumulate (m : Match) (f : Field) : Match :=
  ⟨m.mask ||| f.mask, m.bits ||| f.placedValue⟩

/-- All fields of a list, added in order to the empty match. -/
def ofFields (fields : List Field) : Match :=
  fields.foldl accumulate empty

/-- Whether the field constrains a position that is constrained already. -/
def overlaps (m : Match) (f : Field) : Bool :=
  m.mask &&& f.mask != 0

/-- Whether the masked positions of the word are the expected bits. -/
def accepts (m : Match) (w : Word) : Bool :=
  w &&& m.mask == m.bits

/-- Whether every expected bit lies under the mask. -/
def isConsistent (m : Match) : Bool :=
  m.bits &&& ~~~m.mask == 0

@[simp] theorem ofFields_nil : ofFields [] = empty := rfl

@[simp] theorem mask_accumulate (m : Match) (f : Field) :
    (m.accumulate f).mask = m.mask ||| f.mask := rfl

@[simp] theorem bits_accumulate (m : Match) (f : Field) :
    (m.accumulate f).bits = m.bits ||| f.placedValue := rfl

/-- The empty match accepts every word. -/
@[simp] theorem accepts_empty (w : Word) : empty.accepts w = true := by
  simp [accepts, empty]

/-- The empty match is consistent. -/
@[simp] theorem isConsistent_empty : empty.isConsistent = true := by
  decide

end Match

/-- An instruction name with its match. -/
structure Entry where
  /-- The name, kept verbatim. -/
  opcode : String
  /-- What the words of the instruction look like. -/
  matcher : Match
  deriving DecidableEq, Repr

end IsaTable
