import IsaTable.Binary64
import IsaTable.Text.Numeral
import IsaTable.Text.Quoted

/-! # What can be wrong with a JSON text

    Three categories of error: the text is no JSON (`malformed`), it is JSON
    that does not describe what is wanted (`unsuitable`), or it stops too
    early (`ended`).  `Error.message` gives the wording.
-/

namespace IsaTable.Json

open Text (decimal quote)

/-! ## §1. The parts of a message -/

/-- What was being read when the text ended. -/
inductive Part where
  | list
  | object
  | text
  | value
  deriving DecidableEq, Repr

/-- What the reader wants at a place. -/
inductive Wanted where
  /-- A structure with a fixed number of parts. -/
  | structure (name : String) (size : Nat)
  | list
  | text
  /-- A whole number below `2 ^ 8`. -/
  | byte
  /-- A whole number below `2 ^ 32`. -/
  | word
  deriving DecidableEq, Repr

/-- What stands at a place instead. -/
inductive Found where
  | null
  | boolean (value : Bool)
  | integer (value : Int)
  /-- A number that is no integer of at most 64 bits, by sign and magnitude. -/
  | real (negative : Bool) (magnitude : Binary64)
  | text (value : String)
  | list
  | object
  deriving DecidableEq, Repr

/-- Why a JSON text is refused. -/
inductive Error where
  /-- The text stops inside a part. -/
  | ended (inside : Part)
  /-- No value can begin here. -/
  | noValue
  /-- A word other than `true`, `false` and `null`. -/
  | badWord
  /-- A numeral that breaks the grammar. -/
  | badNumber
  /-- A number past the largest double. -/
  | hugeNumber
  /-- A key that is no text. -/
  | badKey
  /-- Something other than a colon after a key. -/
  | noColon
  /-- Something other than a comma or the closing bracket after an element. -/
  | noListEnd
  /-- Something other than a comma or the closing brace after a member. -/
  | noObjectEnd
  /-- A comma before the closing bracket or brace. -/
  | trailingComma
  /-- Something after the end of the document or of a structure's list. -/
  | trailingCharacters
  /-- A backslash that begins no escape. -/
  | badEscape
  /-- The first half of a surrogate pair without a second escape. -/
  | halfPair
  /-- Half of a surrogate pair where no such half can stand. -/
  | loneSurrogate
  /-- A control character inside a text. -/
  | controlCharacter
  /-- A structure without one of its keys. -/
  | missing (key : String)
  /-- A structure with one of its keys twice. -/
  | duplicate (key : String)
  /-- A structure written as a list with too few elements. -/
  | tooShort (count : Nat) (wanted : Wanted)
  /-- A value of the wrong kind. -/
  | wrongKind (found : Found) (wanted : Wanted)
  /-- An integer outside of the wanted range. -/
  | outOfRange (value : Int) (wanted : Wanted)
  deriving DecidableEq, Repr

/-- The three kinds of failure. -/
inductive Category where
  | malformed
  | unsuitable
  | ended
  deriving DecidableEq, Repr

/-! ## §2. Category and wording -/

namespace Part

/-- The name of a part. -/
def name : Part → String
  | list => "a list"
  | object => "an object"
  | text => "a string"
  | value => "a value"

end Part

namespace Wanted

/-- The name of what is wanted. -/
def name : Wanted → String
  | «structure» name _ => "struct " ++ name
  | list => "a sequence"
  | text => "a string"
  | byte => "u8"
  | word => "u32"

/-- The name with the number of parts, where there is one. -/
def nameWithSize (w : Wanted) : String :=
  match w with
  | «structure» _ size =>
    w.name ++ " with " ++ decimal size ++ (if size = 1 then " element" else " elements")
  | _ => w.name

end Wanted

/-- An integer in decimal, with a sign if it is negative. -/
def integerText (i : Int) : String :=
  (if i < 0 then "-" else "") ++ decimal i.natAbs

/-- The description of a found value. -/
def Found.name : Found → String
  | null => "null"
  | boolean true => "boolean `true`"
  | boolean false => "boolean `false`"
  | integer i => "integer `" ++ integerText i ++ "`"
  | real negative magnitude =>
    "floating point `" ++ (if negative then "-" else "") ++ magnitude.text ++ "`"
  | text s => "string " ++ quote s
  | list => "sequence"
  | object => "map"

namespace Error

/-- The category of an error. -/
def category : Error → Category
  | ended _ => .ended
  | missing _ | duplicate _ | tooShort .. | wrongKind .. | outOfRange .. => .unsuitable
  | _ => .malformed

/-- The text shown for an error. -/
def message : Error → String
  | ended part => "EOF while parsing " ++ part.name
  | noValue => "expected value"
  | badWord => "expected ident"
  | badNumber => "invalid number"
  | hugeNumber => "number out of range"
  | badKey => "key must be a string"
  | noColon => "expected `:`"
  | noListEnd => "expected `,` or `]`"
  | noObjectEnd => "expected `,` or `\x7d`"
  | trailingComma => "trailing comma"
  | trailingCharacters => "trailing characters"
  | badEscape => "invalid escape"
  | halfPair => "unexpected end of hex escape"
  | loneSurrogate => "lone leading surrogate in hex escape"
  | controlCharacter =>
    "control character (\\u0000-\\u001F) found while parsing a string"
  | missing key => "missing field `" ++ key ++ "`"
  | duplicate key => "duplicate field `" ++ key ++ "`"
  | tooShort count wanted =>
    "invalid length " ++ decimal count ++ ", expected " ++ wanted.nameWithSize
  | wrongKind found wanted =>
    "invalid type: " ++ found.name ++ ", expected " ++ wanted.name
  | outOfRange value wanted =>
    "invalid value: integer `" ++ integerText value ++ "`, expected " ++ wanted.name

end Error

end IsaTable.Json
