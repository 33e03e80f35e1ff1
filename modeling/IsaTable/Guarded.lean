import IsaTable.Compile

/-! # Guarded arithmetic

    The arithmetic on bounds once more, on bytes as they are declared and with
    every step guarded: a difference below zero, a run of ones whose width is
    not 1 to 32, or a shift by 32 or more has no result.  On a checked field
    no guard ever fails, and the results are those of `IsaTable.Word` and
    `IsaTable.Match`.
-/

namespace IsaTable.Guarded

/-! ## §1. Single steps -/

/-- The difference of two bytes, if it is not below zero. -/
def difference? (larger smaller : UInt8) : Option UInt8 :=
  if smaller ≤ larger then some (larger - smaller) else none

/-- A shift to the left by less than the size of a word. -/
def shiftLeft? (w : Word) (amount : Nat) : Option Word :=
  if amount < 32 then some (w <<< amount) else none

/-- A shift to the right by less than the size of a word. -/
def shiftRight? (w : Word) (amount : Nat) : Option Word :=
  if amount < 32 then some (w >>> amount) else none

/-- The distance of a position from the least significant bit, if the position
    lies in the word. -/
def lsbShift? (stop : UInt8) : Option Nat :=
  (difference? 31 stop).map UInt8.toNat

/-- A run of ones of a width from 1 to 32. -/
def ones? (width : Nat) : Option Word :=
  if 1 ≤ width ∧ width ≤ 32 then shiftRight? (BitVec.allOnes 32) (32 - width) else none

/-! ## §2. Fields -/

/-- The width of a declared field. -/
def width? (d : FieldDecl) : Option Nat :=
  (difference? d.stop d.start).map fun n => n.toNat + 1

/-- The mask of a declared field. -/
def mask? (d : FieldDecl) : Option Word := do
  let ones ← ones? (← width? d)
  shiftLeft? ones (← lsbShift? d.stop)

/-- The value of a declared field at the field's positions. -/
def placedValue? (d : FieldDecl) : Option Word := do
  shiftLeft? d.value (← lsbShift? d.stop)

/-- Whether the value of a declared field fits its width. -/
def valueFits? (d : FieldDecl) : Option Bool := do
  let width ← width? d
  return Word.significantBits d.value ≤ width

/-! ## §3. Matches -/

/-- Adds a declared field to a match. -/
def accumulate? (m : Match) (d : FieldDecl) : Option Match := do
  return ⟨m.mask ||| (← mask? d), m.bits ||| (← placedValue? d)⟩

/-- Whether a declared field meets what a match constrains. -/
def overlaps? (m : Match) (d : FieldDecl) : Option Bool := do
  return m.mask &&& (← mask? d) != 0

/-- Adds declared fields to a match in order, asking of each whether its value
    fits and whether it overlaps, as compilation does. -/
def compile? (m : Match) : List FieldDecl → Option (Match × List (Bool × Bool))
  | [] => some (m, [])
  | d :: rest => do
    let fits ← valueFits? d
    let overlaps ← overlaps? m d
    let (last, findings) ← compile? (← accumulate? m d) rest
    return (last, (fits, overlaps) :: findings)

/-- A reversed field has no width. -/
example : width? ⟨6, 5, 0⟩ = none := by decide

/-- The widest field and the narrowest one pass all guards. -/
example : mask? ⟨0, 31, 0⟩ = some (BitVec.allOnes 32) ∧ mask? ⟨31, 31, 0⟩ = some 1 := by
  decide

end IsaTable.Guarded
