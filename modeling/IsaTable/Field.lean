import IsaTable.Word
import IsaTable.Text.Numeral

/-! # Fields and instructions

    A field says that a run of positions of an instruction word spells a
    given number; an instruction is a name with the fields that its encoding
    fixes.  Both exist twice: as *declared* (`FieldDecl`, `InstructionDecl`,
    `TableDecl`), where any two bytes may stand for the bounds, and as
    *checked* (`Field`, `Instruction`), where the bounds are known to lie in
    the word in order.  `check` leads from the first form to the second and
    is the only way there, so no later step meets a bad range.
-/

namespace IsaTable

open Text (decimal)

/-! ## §1. Errors of compilation -/

/-- Why a table does not compile. -/
inductive CompileError where
  /-- The instruction declares no fields and would accept every word. -/
  | emptyFieldList
  /-- The bounds are reversed or leave the word. -/
  | invalidRange (start stop : UInt8)
  deriving DecidableEq, Repr

/-- The text shown for a compile error. -/
def CompileError.message : CompileError → String
  | .emptyFieldList => "instruction has no fields"
  | .invalidRange start stop =>
    "invalid bit range " ++ decimal start.toNat ++ "..=" ++ decimal stop.toNat ++
      ", expected start <= stop <= 31"

/-! ## §2. Declared and checked fields -/

/-- A field as it is written down: three numbers without a promise. -/
structure FieldDecl where
  /-- First position. -/
  start : UInt8
  /-- Last position, inclusive. -/
  stop : UInt8
  /-- The number demanded there. -/
  value : Word
  deriving DecidableEq, Repr

/-- The positions `start` to `stop` of a word must spell `value`.  The value
    is not bounded by the width: too wide a value is warned about, and
    compiled as written. -/
structure Field where
  /-- First position. -/
  start : Nat
  /-- Last position, inclusive. -/
  stop : Nat
  /-- The number demanded there, right-aligned. -/
  value : Word
  /-- The bounds stand in order. -/
  start_le_stop : start ≤ stop
  /-- The last position lies in the word. -/
  stop_le : stop ≤ 31
  deriving DecidableEq, Repr

/-- Accepts a declared field exactly when its bounds are in order and in the
    word. -/
def FieldDecl.check (d : FieldDecl) : Except CompileError Field :=
  if h : d.start.toNat ≤ d.stop.toNat ∧ d.stop.toNat ≤ 31 then
    .ok ⟨d.start.toNat, d.stop.toNat, d.value, h.1, h.2⟩
  else
    .error (.invalidRange d.start d.stop)

namespace Field

/-- How many positions the field covers. -/
def width (f : Field) : Nat :=
  f.stop - f.start + 1

/-- How far the value is moved to stand at the field's positions. -/
def shift (f : Field) : Nat :=
  Word.lsbShift f.stop

/-- The word with exactly the field's positions set. -/
def mask (f : Field) : Word :=
  Word.rangeMask f.start f.stop

/-- The value moved to the field's positions.  What it carries beyond the
    width spills towards position 0, and is lost past it. -/
def placedValue (f : Field) : Word :=
  f.value <<< f.shift

/-- Whether the value can be written in as many bits as the field is wide. -/
def valueFits (f : Field) : Bool :=
  Word.significantBits f.value ≤ f.width

/-- Whether two fields share a position. -/
def Meets (f g : Field) : Prop :=
  f.start ≤ g.stop ∧ g.start ≤ f.stop

instance (f g : Field) : Decidable (Meets f g) := by
  unfold Meets; infer_instance

/-- **Meaning of a field.**  It holds on a word when its positions, read as
    one number, spell its value. -/
def Holds (f : Field) (w : Word) : Prop :=
  w.slice f.start f.width = f.value.toNat

instance (f : Field) (w : Word) : Decidable (f.Holds w) := by
  unfold Holds; infer_instance

/-- The field as it would be declared. -/
def toDecl (f : Field) : FieldDecl :=
  ⟨UInt8.ofNat f.start, UInt8.ofNat f.stop, f.value⟩

theorem width_pos (f : Field) : 0 < f.width := by
  unfold width; omega

theorem width_le (f : Field) : f.width ≤ 32 := by
  have := f.stop_le
  unfold width; omega

theorem shift_lt (f : Field) : f.shift < 32 :=
  Word.lsbShift_lt f.stop

/-- The field's mask has the positions of its range and no others. -/
theorem getMsbD_mask (f : Field) (p : Nat) :
    f.mask.getMsbD p = decide (f.start ≤ p ∧ p ≤ f.stop) :=
  Word.getMsbD_rangeMask f.start_le_stop f.stop_le

/-- Declaring a checked field and checking it again changes nothing. -/
@[simp] theorem check_toDecl (f : Field) : f.toDecl.check = .ok f := by
  have h₁ := f.start_le_stop
  have h₂ := f.stop_le
  have hstart : f.start % 256 = f.start := Nat.mod_eq_of_lt (by omega)
  have hstop : f.stop % 256 = f.stop := Nat.mod_eq_of_lt (by omega)
  simp [toDecl, FieldDecl.check, hstart, hstop, h₁, h₂]

end Field

/-! ## §3. Declared and checked instructions -/

/-- An instruction as it is written down. -/
structure InstructionDecl where
  /-- The name, kept verbatim. -/
  opcode : String
  /-- The declared fields, in order. -/
  fields : List FieldDecl
  deriving DecidableEq, Repr

/-- A whole table as it is written down. -/
structure TableDecl where
  /-- The declared instructions, in output order. -/
  instructions : List InstructionDecl
  deriving DecidableEq, Repr

/-- A name and the fields that the encoding fixes, in declaration order. -/
structure Instruction where
  /-- The name, kept verbatim. -/
  opcode : String
  /-- The fields, in order; there may be none, but then it does not compile. -/
  fields : List Field
  deriving DecidableEq, Repr

/-- Checks the fields in order; the first bad range is the error. -/
def InstructionDecl.check (d : InstructionDecl) : Except CompileError Instruction :=
  (d.fields.mapM FieldDecl.check).map (Instruction.mk d.opcode)

/-- Checks the instructions in order, so that the first bad range of the
    whole table is the error. -/
def TableDecl.check (d : TableDecl) : Except CompileError (List Instruction) :=
  d.instructions.mapM InstructionDecl.check

/-- **Meaning of an instruction.**  It holds on a word when all its fields
    do. -/
def Instruction.Holds (i : Instruction) (w : Word) : Prop :=
  ∀ f ∈ i.fields, f.Holds w

instance (i : Instruction) (w : Word) : Decidable (i.Holds w) := by
  unfold Instruction.Holds; infer_instance

/-- The instruction as it would be declared. -/
def Instruction.toDecl (i : Instruction) : InstructionDecl :=
  ⟨i.opcode, i.fields.map Field.toDecl⟩

end IsaTable
