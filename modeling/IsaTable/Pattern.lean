import IsaTable.Compile
import IsaTable.Text.Blank
import IsaTable.Text.Lines

/-! # Pattern text

    The line-oriented form of a table.  A line holds an opcode and any number
    of field tokens `start,stop,value`, separated by blanks; blank lines and
    lines that begin with `#` are skipped, but count when lines are numbered.

    Main definitions:
    - `FieldDecl.ofToken?`, the numbers of a token;
    - `Field.ofToken`, a token as a checked field;
    - `Instruction.ofLine`, a line as an instruction, or nothing;
    - `SourceLine.ofText`, the instruction lines of a text.
-/

namespace IsaTable

open Text

/-! ## §1. Errors -/

/-- Why a line of pattern text is refused. -/
inductive PatternError where
  /-- The token is not three numbers in range joined by commas. -/
  | malformedField (token : String)
  /-- The line can be read, but its instruction does not compile. -/
  | compile (cause : CompileError)
  deriving DecidableEq, Repr

/-- The text shown for a pattern error. -/
def PatternError.message : PatternError → String
  | .malformedField token =>
    "malformed field `" ++ token ++ "`, expected `start,stop,value`"
  | .compile cause => cause.message

/-- A pattern error and where it was found. -/
structure LineError where
  /-- The number of the line, counted from 1. -/
  line : Nat
  /-- The line, trimmed. -/
  text : String
  /-- What is wrong with it. -/
  kind : PatternError
  deriving DecidableEq, Repr

/-- The text shown for a line error. -/
def LineError.message (e : LineError) : String :=
  "line " ++ decimal e.line ++ ": " ++ e.kind.message ++ " (in `" ++ e.text ++ "`)"

/-! ## §2. Tokens -/

/-- The three numbers of a token, if they are numerals, joined by two commas,
    and each fits where it has to go. -/
def FieldDecl.ofToken? (token : List Char) : Option FieldDecl :=
  match token.splitOn ',' with
  | [start, stop, value] => do
    let start ← readDecimalBelow? UInt8.size start
    let stop ← readDecimalBelow? UInt8.size stop
    let value ← readDecimalBelow? UInt32.size value
    return ⟨UInt8.ofNat start, UInt8.ofNat stop, BitVec.ofNat 32 value⟩
  | _ => none

/-- A token as a field: first its shape is looked at, then its range. -/
def Field.ofToken (token : List Char) : Except PatternError Field :=
  match FieldDecl.ofToken? token with
  | none => .error (.malformedField (String.ofList token))
  | some d => d.check.mapError .compile

/-! ## §3. Lines -/

/-- Whether a line holds an instruction, that is, is neither blank nor a
    comment. -/
def isInstructionLine (line : List Char) : Bool :=
  match trimStart line with
  | [] => false
  | c :: _ => c != '#'

/-- The instruction on a line, if the line holds one.  The first word is the
    opcode, the others are field tokens, and the leftmost bad token is the
    error.  A line without field tokens is read, to be refused when it is
    compiled. -/
def Instruction.ofLine (line : List Char) : Except PatternError (Option Instruction) :=
  if isInstructionLine line then
    match words line with
    -- An instruction line has a character that is not blank, hence a word.
    | [] => .ok none
    | opcode :: tokens =>
      (tokens.mapM Field.ofToken).map fun fields => some ⟨String.ofList opcode, fields⟩
  else
    .ok none

/-! ## §4. Texts -/

/-- An instruction and the line that it stands on. -/
structure SourceLine where
  /-- The number of the line, counted from 1. -/
  line : Nat
  /-- The line, trimmed. -/
  text : String
  /-- What the line says. -/
  instruction : Instruction
  deriving DecidableEq, Repr

namespace SourceLine

/-- The error of a given kind at this line. -/
def error (s : SourceLine) (kind : PatternError) : LineError :=
  ⟨s.line, s.text, kind⟩

/-- The instruction line that a numbered line is, if it is one. -/
def ofNumbered (numbered : List Char × Nat) : Except LineError (Option SourceLine) :=
  let text := String.ofList (trim numbered.1)
  match Instruction.ofLine numbered.1 with
  | .ok none => .ok none
  | .ok (some i) => .ok (some ⟨numbered.2, text, i⟩)
  | .error kind => .error ⟨numbered.2, text, kind⟩

/-- The instruction lines among numbered lines, in order; the first bad line
    is the error. -/
def ofNumberedLines : List (List Char × Nat) → Except LineError (List SourceLine)
  | [] => .ok []
  | numbered :: rest =>
    match ofNumbered numbered with
    | .error e => .error e
    | .ok none => ofNumberedLines rest
    | .ok (some s) => (ofNumberedLines rest).map (s :: ·)

/-- The instruction lines of a text, numbered from 1. -/
def ofText (text : String) : Except LineError (List SourceLine) :=
  ofNumberedLines ((lines text.toList).zipIdx 1)

@[simp] theorem ofNumberedLines_nil : ofNumberedLines [] = .ok [] := rfl

end SourceLine

end IsaTable
