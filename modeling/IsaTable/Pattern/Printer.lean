import IsaTable.Pattern

/-! # Writing pattern text

    The inverse of reading: a declared table as pattern text, one instruction
    a line, numbers in decimal, one space between words.
-/

namespace IsaTable

open Text

/-- The token of a declared field: its three numbers joined by commas. -/
def FieldDecl.token (d : FieldDecl) : List Char :=
  decimalDigits d.start.toNat ++ ',' :: decimalDigits d.stop.toNat ++
    ',' :: decimalDigits d.value.toNat

/-- The line of a declared instruction, without its line end: the opcode and
    the tokens, each token after one space. -/
def InstructionDecl.line (d : InstructionDecl) : List Char :=
  d.opcode.toList ++ (d.fields.map fun f => ' ' :: f.token).flatten

/-- The pattern text of a declared table, every line ended by a line feed. -/
def TableDecl.patternText (d : TableDecl) : String :=
  String.ofList (d.instructions.map fun i => i.line ++ ['\n']).flatten

/-- An opcode that a line can begin with: it is not empty, holds no blank and
    does not look like a comment. -/
def IsOpcodeWord (opcode : String) : Prop :=
  opcode ≠ "" ∧ (∀ c ∈ opcode.toList, isBlank c = false) ∧ opcode.toList.head? ≠ some '#'

instance (opcode : String) : Decidable (IsOpcodeWord opcode) :=
  decidable_of_iff (opcode ≠ "" ∧ (opcode.toList.all fun c => !isBlank c) = true ∧
    opcode.toList.head? ≠ some '#') (by simp [IsOpcodeWord])

end IsaTable
