/-! # Numerals

    Decimal numerals are read as runs of ASCII digits of any length, with any
    number of leading zeros, and the value is a natural number: no digit
    string wraps.  Decimal and hexadecimal numerals are written without
    leading zeros, unless a width is asked for.
-/

namespace IsaTable.Text

/-! ## §1. Reading -/

/-- The number that a non-empty run of ASCII digits denotes; anything else is
    no numeral. -/
def readDecimal? (digits : List Char) : Option Nat :=
  if !digits.isEmpty && digits.all Char.isDigit then
    some (Nat.ofDigitChars 10 digits 0)
  else
    none

/-- A numeral whose value is below `bound`. -/
def readDecimalBelow? (bound : Nat) (digits : List Char) : Option Nat :=
  (readDecimal? digits).filter (· < bound)

@[simp] theorem readDecimal?_nil : readDecimal? [] = none := rfl

/-! ## §2. Writing -/

/-- The decimal digits of a number, `0` for zero. -/
def decimalDigits (n : Nat) : List Char :=
  Nat.toDigits 10 n

/-- The decimal numeral of a number. -/
def decimal (n : Nat) : String :=
  String.ofList (decimalDigits n)

/-- The lowercase hexadecimal numeral of a number, marked by `0x`. -/
def hexadecimal (n : Nat) : String :=
  "0x" ++ String.ofList (Nat.toDigits 16 n)

/-- Like `hexadecimal`, with zeros in front up to `width` digits. -/
def hexadecimalPadded (width n : Nat) : String :=
  "0x" ++ String.ofList ((Nat.toDigits 16 n).leftpad width '0')

/-- A decimal numeral is never empty. -/
theorem decimalDigits_ne_nil (n : Nat) : decimalDigits n ≠ [] :=
  Nat.toDigits_ne_nil

/-- A decimal numeral holds digits only. -/
theorem isDigit_of_mem_decimalDigits {n : Nat} {c : Char}
    (h : c ∈ decimalDigits n) : c.isDigit = true :=
  Nat.isDigit_of_mem_toDigits (by omega) (by omega) h

/-- Reading a written number gives it back. -/
@[simp] theorem readDecimal?_decimalDigits (n : Nat) :
    readDecimal? (decimalDigits n) = some n := by
  have hall : ∀ c ∈ Nat.toDigits 10 n, c.isDigit = true := fun c hc =>
    isDigit_of_mem_decimalDigits hc
  simpa [readDecimal?, decimalDigits, Nat.ofDigitChars_toDigits] using hall

end IsaTable.Text
