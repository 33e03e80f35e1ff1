import IsaTable.Field
import IsaTable.Json.Reader

/-! # Tables in JSON

    A declared table as JSON: the structure `TableDef` holds a list of
    `InstructionDefJson`, and that a list of `FieldDef`.  An instruction's
    fields may be left out and are then none; every other part must be there.

    Main definitions:
    - `TableDecl.ofJson`, a text as a declared table;
    - `TableDecl.toJson`, a declared table as its compact text.
-/

namespace IsaTable

open Json

/-! ## §1. Reading -/

/-- The parts of a field that have been read so far. -/
structure FieldDraft where
  /-- First position. -/
  start : Option UInt8
  /-- Last position. -/
  stop : Option UInt8
  /-- The number demanded there. -/
  value : Option Word

/-- The parts of an instruction that have been read so far. -/
structure InstructionDraft where
  /-- The name. -/
  opcode : Option String
  /-- The declared fields. -/
  fields : Option (List FieldDecl)

/-- A number that fits in a byte. -/
def Json.Reader.byte : Reader UInt8 :=
  (below UInt8.size .byte).map UInt8.ofNat

/-- A number that fits in a word. -/
def Json.Reader.word : Reader Word :=
  (below UInt32.size .word).map (BitVec.ofNat 32)

/-- A field has three parts, and needs them all. -/
def FieldDecl.shape : Shape FieldDraft FieldDecl where
  name := "FieldDef"
  slots :=
    [⟨"start", fun d => d.start.isSome,
      fun d => Reader.byte.map fun n => ⟨some n, d.stop, d.value⟩⟩,
     ⟨"stop", fun d => d.stop.isSome,
      fun d => Reader.byte.map fun n => ⟨d.start, some n, d.value⟩⟩,
     ⟨"value", fun d => d.value.isSome,
      fun d => Reader.word.map fun v => ⟨d.start, d.stop, some v⟩⟩]
  blank := ⟨none, none, none⟩
  finish
    | ⟨none, _, _⟩ => .error "start"
    | ⟨some _, none, _⟩ => .error "stop"
    | ⟨some _, some _, none⟩ => .error "value"
    | ⟨some start, some stop, some value⟩ => .ok ⟨start, stop, value⟩

/-- An instruction has two parts, and can do without the second. -/
def InstructionDecl.shape : Shape InstructionDraft InstructionDecl where
  name := "InstructionDefJson"
  slots :=
    [⟨"opcode", fun d => d.opcode.isSome, fun d => Reader.text.map fun t => ⟨some t, d.fields⟩⟩,
     ⟨"fields", fun d => d.fields.isSome,
      fun d => (Reader.list FieldDecl.shape.reader).map fun fs => ⟨d.opcode, some fs⟩⟩]
  blank := ⟨none, none⟩
  finish
    | ⟨none, _⟩ => .error "opcode"
    | ⟨some opcode, fields⟩ => .ok ⟨opcode, fields.getD []⟩

/-- A table has one part, and needs it. -/
def TableDecl.shape : Shape (Option (List InstructionDecl)) TableDecl where
  name := "TableDef"
  slots :=
    [⟨"instructions", fun d => d.isSome,
      fun _ => (Reader.list InstructionDecl.shape.reader).map some⟩]
  blank := none
  finish
    | none => .error "instructions"
    | some instructions => .ok ⟨instructions⟩

/-- The declared table that a text spells. -/
def TableDecl.ofJson (text : String) : Except Json.Error TableDecl :=
  TableDecl.shape.reader.document text.toList

/-! ## §2. Writing -/

/-- Items with a comma between each two. -/
def commaSeparated : List (List Char) → List Char
  | [] => []
  | [item] => item
  | item :: next :: rest => item ++ ',' :: commaSeparated (next :: rest)

/-- A text between quotes. -/
def jsonText (s : List Char) : List Char :=
  '"' :: escapeText s ++ ['"']

/-- A member of an object: the key, a colon and the value. -/
def jsonMember (key : String) (value : List Char) : List Char :=
  jsonText key.toList ++ ':' :: value

/-- An object with the given members. -/
def jsonObject (members : List (List Char)) : List Char :=
  '\x7b' :: commaSeparated members ++ ['\x7d']

/-- A list of the given values. -/
def jsonList (values : List (List Char)) : List Char :=
  '[' :: commaSeparated values ++ [']']

/-- A field as an object without blanks, its keys in order. -/
def FieldDecl.jsonChars (d : FieldDecl) : List Char :=
  jsonObject
    [jsonMember "start" (Text.decimalDigits d.start.toNat),
     jsonMember "stop" (Text.decimalDigits d.stop.toNat),
     jsonMember "value" (Text.decimalDigits d.value.toNat)]

/-- An instruction as an object without blanks; its fields are written even
    if there are none. -/
def InstructionDecl.jsonChars (d : InstructionDecl) : List Char :=
  jsonObject
    [jsonMember "opcode" (jsonText d.opcode.toList),
     jsonMember "fields" (jsonList (d.fields.map FieldDecl.jsonChars))]

/-- A table as an object without blanks. -/
def TableDecl.jsonChars (d : TableDecl) : List Char :=
  jsonObject [jsonMember "instructions" (jsonList (d.instructions.map InstructionDecl.jsonChars))]

/-- The compact text of a declared table. -/
def TableDecl.toJson (d : TableDecl) : String :=
  String.ofList d.jsonChars

end IsaTable
