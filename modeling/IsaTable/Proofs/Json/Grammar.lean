import Mathlib.Data.List.Forall2
import IsaTable.Json.Table

/-! # The grammar of JSON tables

    What a JSON text of a table looks like, said without the readers: which
    texts spell a number, a text, a list or a structure, and which values are
    well-formed though nobody looks at them.  A text is always given whole, by
    its parts joined together; nothing here speaks of what is left after it.

    Main definitions:
    - `SpellsNumeral`, `SpellsNatural` and `SpellsText`, the tokens;
    - `Items`, what stands between two brackets;
    - `WellFormed`, the values that are passed over;
    - `IsStructure`, the two spellings of a structure;
    - `TableDecl.IsSpelledBy`, the spellings of a declared table.
-/

namespace IsaTable.Json

/-! ## §1. Blanks -/

/-- A run of blanks only. -/
def Blanks (s : List Char) : Prop :=
  ∀ c ∈ s, isBlank c = true

/-! ## §2. Numbers -/

/-- A run of digits that is not empty. -/
def IsDigits (s : List Char) : Prop :=
  s ≠ [] ∧ ∀ c ∈ s, c.isDigit = true

/-- The digits before the point: a zero that is not alone may not begin
    them. -/
def IsWhole (s : List Char) : Prop :=
  IsDigits s ∧ ∀ d rest, s ≠ '0' :: d :: rest

/-- A fraction, if there is one, by its digits. -/
inductive SpellsFraction : List Char → List Char → Prop
  | absent : SpellsFraction [] []
  | digits {s : List Char} (h : IsDigits s) : SpellsFraction ('.' :: s) s

/-- The letters that begin an exponent. -/
def IsPowerMark (c : Char) : Prop :=
  c = 'e' ∨ c = 'E'

/-- An exponent, if there is one, by its sign and digits. -/
inductive SpellsPower : List Char → Option (Bool × List Char) → Prop
  | absent : SpellsPower [] none
  | unsigned {mark : Char} {s : List Char} (hmark : IsPowerMark mark) (h : IsDigits s) :
      SpellsPower (mark :: s) (some (false, s))
  | plus {mark : Char} {s : List Char} (hmark : IsPowerMark mark) (h : IsDigits s) :
      SpellsPower (mark :: '+' :: s) (some (false, s))
  | minus {mark : Char} {s : List Char} (hmark : IsPowerMark mark) (h : IsDigits s) :
      SpellsPower (mark :: '-' :: s) (some (true, s))

/-- The sign of a number. -/
def signText (negative : Bool) : List Char :=
  if negative then ['-'] else []

/-- The text of a number is its four parts in a row. -/
inductive SpellsNumeral : List Char → Numeral → Prop
  | parts {negative : Bool} {whole fraction fractionText powerText : List Char}
      {power : Option (Bool × List Char)} (hwhole : IsWhole whole)
      (hfraction : SpellsFraction fractionText fraction) (hpower : SpellsPower powerText power) :
      SpellsNumeral (signText negative ++ whole ++ fractionText ++ powerText)
        ⟨negative, whole, fraction, power⟩

/-- An integer literal of a natural number: digits alone, so that neither a
    sign nor a fraction nor an exponent stands there. -/
def SpellsNatural (s : List Char) (n : Nat) : Prop :=
  IsWhole s ∧ digitsValue s = n

/-! ## §3. Texts -/

/-- Four hexadecimal digits of a code unit. -/
inductive SpellsUnit : List Char → Nat → Prop
  | digits {a b c d : Char} {n : Nat} (h : hexValue4? a b c d = some n) :
      SpellsUnit [a, b, c, d] n

/-- A character that may stand for itself between quotes. -/
def IsPlain (c : Char) : Prop :=
  c ≠ '"' ∧ c ≠ '\\' ∧ isControl c = false

/-- The spellings of a character: itself, a one-letter escape, its code point,
    or, past `U+FFFF`, its surrogate pair. -/
inductive SpellsChar : List Char → Char → Prop
  | plain {c : Char} (h : IsPlain c) : SpellsChar [c] c
  | letter {e c : Char} (h : simpleEscape? e = some c) : SpellsChar ['\\', e] c
  | unit {s : List Char} {c : Char} (h : SpellsUnit s c.toNat) :
      SpellsChar ('\\' :: 'u' :: s) c
  | pair {s t : List Char} {high low : Nat} {c : Char} (hs : SpellsUnit s high)
      (ht : SpellsUnit t low) (hhigh : 0xD800 ≤ high ∧ high ≤ 0xDBFF)
      (hlow : 0xDC00 ≤ low ∧ low ≤ 0xDFFF)
      (hc : c.toNat = 0x10000 + (high - 0xD800) * 0x400 + (low - 0xDC00)) :
      SpellsChar ('\\' :: 'u' :: (s ++ '\\' :: 'u' :: t)) c

/-- The spellings of one character each, joined together. -/
def SpellsChars (s : List Char) (text : List Char) : Prop :=
  ∃ pieces : List (List Char), List.Forall₂ SpellsChar pieces text ∧ s = pieces.flatten

/-- A text between quotes, every character in any of its spellings. -/
def SpellsText (s : List Char) (text : String) : Prop :=
  ∃ inner, SpellsChars inner text.toList ∧ s = '"' :: (inner ++ ['"'])

/-- A character of a text that nobody looks at.  An escape may name any code
    unit there, half a surrogate pair included. -/
inductive IsTextPiece : List Char → Prop
  | plain {c : Char} (h : IsPlain c) : IsTextPiece [c]
  | letter {e c : Char} (h : simpleEscape? e = some c) : IsTextPiece ['\\', e]
  | unit {s : List Char} {n : Nat} (h : SpellsUnit s n) : IsTextPiece ('\\' :: 'u' :: s)

/-- A text between quotes that nobody looks at. -/
def IsText (s : List Char) : Prop :=
  ∃ pieces : List (List Char), (∀ piece ∈ pieces, IsTextPiece piece) ∧
    s = '"' :: (pieces.flatten ++ ['"'])

/-! ## §4. Brackets -/

/-- The character that opens the bracket. -/
def Bracket.opening : Bracket → Char
  | list => '['
  | object => '\x7b'

/-- What stands in front of an item: blanks, with a comma among them unless it
    is the first. -/
inductive Lead : Bool → List Char → Prop
  | first {b : List Char} (hb : Blanks b) : Lead true b
  | comma {b b' : List Char} (hb : Blanks b) (hb' : Blanks b') : Lead false (b ++ ',' :: b')

/-- What stands between two brackets: any number of items, and blanks before
    the closing one.  `first` tells that no item stands before this text. -/
inductive Items {α : Type*} (Item : List Char → α → Prop) : Bool → List Char → List α → Prop
  | none {first : Bool} {b : List Char} (hb : Blanks b) : Items Item first b []
  | item {first : Bool} {lead s t : List Char} {a : α} {as : List α} (hlead : Lead first lead)
      (hitem : Item s a) (hrest : Items Item false t as) :
      Items Item first (lead ++ s ++ t) (a :: as)

/-- A list of values. -/
def SpellsList {α : Type} (Item : List Char → α → Prop) (s : List Char) (as : List α) : Prop :=
  ∃ inner, Items Item true inner as ∧ s = '[' :: (inner ++ [']'])

/-! ## §5. Values that nobody looks at -/

/-- What the grammar of values speaks of. -/
inductive Production where
  | value
  /-- A key with its value. -/
  | member
  /-- What stands inside a bracket, behind an item or not. -/
  | items (bracket : Bracket) (first : Bool)

/-- What a bracket holds. -/
def Production.item : Bracket → Production
  | .list => value
  | .object => member

/-- **Well-formed values**, at any depth of nesting.  Numbers may be of any
    size, and keys may repeat. -/
inductive WellFormed : Production → List Char → Prop
  | nullWord : WellFormed .value ['n', 'u', 'l', 'l']
  | trueWord : WellFormed .value ['t', 'r', 'u', 'e']
  | falseWord : WellFormed .value ['f', 'a', 'l', 's', 'e']
  | number {s : List Char} {n : Numeral} (h : SpellsNumeral s n) : WellFormed .value s
  | text {s : List Char} (h : IsText s) : WellFormed .value s
  | bracketed {bracket : Bracket} {s : List Char} (h : WellFormed (.items bracket true) s) :
      WellFormed .value (bracket.opening :: (s ++ [bracket.closing]))
  | member {key b b' s : List Char} (hkey : IsText key) (hb : Blanks b) (hb' : Blanks b')
      (hvalue : WellFormed .value s) : WellFormed .member (key ++ b ++ ':' :: (b' ++ s))
  | noItem {bracket : Bracket} {first : Bool} {b : List Char} (hb : Blanks b) :
      WellFormed (.items bracket first) b
  | item {bracket : Bracket} {first : Bool} {lead s t : List Char} (hlead : Lead first lead)
      (hitem : WellFormed (.item bracket) s) (hrest : WellFormed (.items bracket false) t) :
      WellFormed (.items bracket first) (lead ++ s ++ t)

/-! ## §6. Structures -/

/-- A member of an object: its key, and the text of its value. -/
structure Member where
  /-- What the key says, however it is escaped. -/
  key : String
  /-- The text of the value. -/
  value : List Char

/-- A member is written as key, colon and value. -/
inductive SpellsMember : List Char → Member → Prop
  | parts {keyText b b' : List Char} {m : Member} (hkey : SpellsText keyText m.key)
      (hb : Blanks b) (hb' : Blanks b') :
      SpellsMember (keyText ++ b ++ ':' :: (b' ++ m.value)) m

/-- One part of a structure that holds a certain value. -/
structure Component where
  /-- The key of the part in an object. -/
  key : String
  /-- The texts that spell its value. -/
  IsSpelledBy : List Char → Prop
  /-- Whether the part may be left out. -/
  Optional : Prop

/-- The members of a list that have the given key. -/
def membersOf (key : String) (members : List Member) : List Member :=
  members.filter fun m => m.key == key

/-- An object gives a part by exactly one member with its key, which spells its
    value; if the part may be left out, by no member. -/
def Component.IsGivenBy (c : Component) (members : List Member) : Prop :=
  (∃ m, membersOf c.key members = [m] ∧ c.IsSpelledBy m.value) ∨
    (c.Optional ∧ membersOf c.key members = [])

/-- **The two spellings of a structure.**  An object gives every part, in any
    order and among members with other keys, whose values are well-formed.  A
    list has the parts in order, and may stop short of parts that can be left
    out. -/
inductive IsStructure (components : List Component) : List Char → Prop
  | object {inner : List Char} {members : List Member}
      (hitems : Items SpellsMember true inner members)
      (hgiven : ∀ c ∈ components, c.IsGivenBy members)
      (hothers : ∀ m ∈ members, (∀ c ∈ components, m.key ≠ c.key) → WellFormed .value m.value) :
      IsStructure components ('\x7b' :: (inner ++ ['\x7d']))
  | list {inner : List Char} {given missing : List Component}
      (hsplit : components = given ++ missing)
      (hitems : Items (fun s (c : Component) => c.IsSpelledBy s) true inner given)
      (hmissing : ∀ c ∈ missing, c.Optional) :
      IsStructure components ('[' :: (inner ++ [']']))

end IsaTable.Json

/-! ## §7. Declared tables -/

namespace IsaTable

open Json

/-- A field is three numbers, all of which must be there. -/
def FieldDecl.components (d : FieldDecl) : List Component :=
  [⟨"start", (SpellsNatural · d.start.toNat), False⟩,
   ⟨"stop", (SpellsNatural · d.stop.toNat), False⟩,
   ⟨"value", (SpellsNatural · d.value.toNat), False⟩]

/-- The spellings of a field. -/
def FieldDecl.IsSpelledBy (d : FieldDecl) (s : List Char) : Prop :=
  IsStructure d.components s

/-- An instruction is a text and a list of fields, which may be left out if it
    is empty. -/
def InstructionDecl.components (d : InstructionDecl) : List Component :=
  [⟨"opcode", (SpellsText · d.opcode), False⟩,
   ⟨"fields", (SpellsList (fun s f => FieldDecl.IsSpelledBy f s) · d.fields), d.fields = []⟩]

/-- The spellings of an instruction. -/
def InstructionDecl.IsSpelledBy (d : InstructionDecl) (s : List Char) : Prop :=
  IsStructure d.components s

/-- A table is a list of instructions. -/
def TableDecl.components (d : TableDecl) : List Component :=
  [⟨"instructions",
    (SpellsList (fun s i => InstructionDecl.IsSpelledBy i s) · d.instructions), False⟩]

/-- The spellings of a table. -/
def TableDecl.IsSpelledBy (d : TableDecl) (s : List Char) : Prop :=
  IsStructure d.components s

end IsaTable
