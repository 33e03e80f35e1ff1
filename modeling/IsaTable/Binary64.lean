/-! # Double precision magnitudes

    The non-negative finite values of the 64-bit binary format, each as
    `mantissa * 2 ^ exponent`, with arithmetic in exact naturals and one
    rounding at the end, to the nearest value and on a tie to the even
    mantissa.  The sign is kept elsewhere, since rounding is symmetric.

    Main definitions:
    - `Binary64.ofRatio?`, the value nearest to a quotient;
    - `Binary64.mul?` and `Binary64.div?`, the rounded operations;
    - `Decimal` and `Binary64.shortest`, the fewest digits that read back.
-/

namespace IsaTable

/-- The value `mantissa * 2 ^ exponent`, with a mantissa below `2 ^ 53` and an
    exponent from -1074 to 971; below the least exponent's binade the
    mantissa has fewer bits. -/
structure Binary64 where
  /-- The significant bits. -/
  mantissa : Nat
  /-- The power of two that they are scaled by. -/
  exponent : Int
  deriving DecidableEq, Repr

namespace Binary64

/-! ## §1. Rounding -/

/-- Zero. -/
def zero : Binary64 :=
  ⟨0, -1074⟩

/-- Whether the value is zero. -/
def isZero (x : Binary64) : Bool :=
  x.mantissa == 0

/-- The natural number nearest to `num / den`, on a tie the even one. -/
def roundDiv (num den : Nat) : Nat :=
  let quotient := num / den
  let twice := 2 * (num % den)
  if twice < den then quotient
  else if den < twice then quotient + 1
  else quotient + quotient % 2

/-- The least mantissa of 53 bits, `2 ^ 52`. -/
def leastMantissa : Nat :=
  0x10000000000000

/-- The quotient `num / den` as a ratio with the power `2 ^ exponent` taken
    out. -/
def scaled (num den : Nat) (exponent : Int) : Nat × Nat :=
  if exponent < 0 then (num * Nat.pow 2 (-exponent).toNat, den)
  else (num, den * Nat.pow 2 exponent.toNat)

/-- The exponent at which the quotient has a mantissa of 53 bits, or the least
    exponent if that is larger. -/
def exponentOf (num den : Nat) : Int :=
  -- The logarithms leave the quotient open by a factor of two, so the guess is
  -- right or one too small.
  let guess : Int := (Nat.log2 num : Int) - (Nat.log2 den : Int) - 53
  let ratio := scaled num den guess
  max (if ratio.1 < 2 * leastMantissa * ratio.2 then guess else guess + 1) (-1074)

/-- The value nearest to `num / den`; none if that lies past the largest. -/
def ofRatio? (num den : Nat) : Option Binary64 :=
  if num = 0 then
    some zero
  else
    let exponent := exponentOf num den
    let ratio := scaled num den exponent
    let mantissa := roundDiv ratio.1 ratio.2
    let rounded : Binary64 :=
      if mantissa = 2 * leastMantissa then ⟨leastMantissa, exponent + 1⟩ else ⟨mantissa, exponent⟩
    if rounded.exponent > 971 then none else some rounded

/-- The value as a ratio of naturals. -/
def toRatio (x : Binary64) : Nat × Nat :=
  if x.exponent < 0 then (x.mantissa, Nat.pow 2 (-x.exponent).toNat)
  else (x.mantissa * Nat.pow 2 x.exponent.toNat, 1)

/-- The rounded product; none if it overflows. -/
def mul? (x y : Binary64) : Option Binary64 :=
  ofRatio? (x.toRatio.1 * y.toRatio.1) (x.toRatio.2 * y.toRatio.2)

/-- The rounded quotient; none if it overflows. -/
def div? (x y : Binary64) : Option Binary64 :=
  ofRatio? (x.toRatio.1 * y.toRatio.2) (x.toRatio.2 * y.toRatio.1)

/-- The value nearest to `10 ^ k`; none if that overflows. -/
def tenPow? (k : Nat) : Option Binary64 :=
  ofRatio? (Nat.pow 10 k) 1

end Binary64

/-! ## §2. Decimals -/

/-- The number `digits * 10 ^ exponent`. -/
structure Decimal where
  /-- The digits, read as one number. -/
  digits : Nat
  /-- The power of ten that they are scaled by. -/
  exponent : Int
  deriving DecidableEq, Repr

namespace Decimal

/-- The decimal as a ratio of naturals. -/
def toRatio (d : Decimal) : Nat × Nat :=
  if d.exponent < 0 then (d.digits, Nat.pow 10 (-d.exponent).toNat)
  else (d.digits * Nat.pow 10 d.exponent.toNat, 1)

/-- The same number without zeros at the end of its digits; `fuel` bounds how
    many are taken. -/
def trimZeros (d : Decimal) : (fuel : Nat) → Decimal
  | 0 => d
  | fuel + 1 =>
    if d.digits ≠ 0 ∧ d.digits % 10 = 0 then trimZeros ⟨d.digits / 10, d.exponent + 1⟩ fuel
    else d

end Decimal

namespace Binary64

/-! ## §3. Shortest digits -/

/-- Whether a decimal rounds to the value: it lies between the midpoints to
    the two neighbours, the midpoints themselves counting when the mantissa
    is even.  The lower neighbour of a power of two is half as far away. -/
def readsBack (x : Binary64) (d : Decimal) : Bool :=
  -- In quarters of the last place all bounds are whole numbers.
  let quarter : Binary64 := ⟨1, x.exponent - 2⟩
  let unit := quarter.toRatio
  let below := if x.mantissa = leastMantissa ∧ -1074 < x.exponent then 1 else 2
  let given := d.toRatio
  let low := (4 * x.mantissa - below) * unit.1 * given.2
  let high := (4 * x.mantissa + 2) * unit.1 * given.2
  let point := given.1 * unit.2
  if x.mantissa % 2 = 0 then low ≤ point && point ≤ high else low < point && point < high

/-- The exponent of the power of ten at or below a positive quotient. -/
def decimalExponent (num den : Nat) : Int :=
  -- Below one, `(den - 1) / num` is one less than `den / num` rounded up, and has
  -- as many digits as the first digit has places behind the point.
  if den ≤ num then ((Nat.toDigits 10 (num / den)).length : Int) - 1
  else -((Nat.toDigits 10 ((den - 1) / num)).length : Int)

/-- The decimals of `count` digits on either side of the value. -/
def neighbours (x : Binary64) (count : Nat) : Decimal × Decimal :=
  let ratio := x.toRatio
  let exponent := decimalExponent ratio.1 ratio.2 - (count : Int) + 1
  let floor :=
    if exponent < 0 then ratio.1 * Nat.pow 10 (-exponent).toNat / ratio.2
    else ratio.1 / (ratio.2 * Nat.pow 10 exponent.toNat)
  (⟨floor, exponent⟩, ⟨floor + 1, exponent⟩)

/-- Whether the lower of two neighbouring decimals is the better one: the
    nearer to the value, and on a tie the one whose last digit is even. -/
def prefersLower (x : Binary64) (lower upper : Decimal) : Bool :=
  let value := x.toRatio
  let low := lower.toRatio
  let high := upper.toRatio
  let twice := 2 * value.1 * low.2 * high.2
  let sum := (low.1 * high.2 + high.1 * low.2) * value.2
  if twice = sum then lower.digits % 2 = 0 else twice < sum

/-- The decimal of `count` digits that rounds to the value and lies nearest to
    it, if there is one. -/
def nearest? (x : Binary64) (count : Nat) : Option Decimal :=
  let pair := x.neighbours count
  match x.readsBack pair.1, x.readsBack pair.2 with
  | true, true => some (if x.prefersLower pair.1 pair.2 then pair.1 else pair.2)
  | true, false => some pair.1
  | false, true => some pair.2
  | false, false => none

/-- The decimal with the fewest digits that rounds to the value, and the
    nearest of those.  Seventeen digits always suffice. -/
def shortest (x : Binary64) : Decimal :=
  match (List.range 17).findSome? fun i => x.nearest? (i + 1) with
  | some d => d.trimZeros 20
  | none => (x.neighbours 17).1

end Binary64

/-! ## §4. Text -/

namespace Decimal

/-- Whether a number with this exponent of its leading digit is written
    without an exponent. -/
def isPositional (leading : Int) : Bool :=
  -5 ≤ leading && leading ≤ 15

/-- A positive decimal as text: positionally with a point and at least one
    digit after it, or with one digit before the point and a signed exponent
    of ten. -/
def text (d : Decimal) : String :=
  let digits := Nat.toDigits 10 d.digits
  let leading : Int := d.exponent + (digits.length : Int) - 1
  if isPositional leading then
    if leading < 0 then
      "0." ++ String.ofList (List.replicate (-leading - 1).toNat '0' ++ digits)
    else
      let whole := leading.toNat + 1
      let fraction := digits.drop whole
      String.ofList ((digits.take whole).rightpad whole '0') ++ "." ++
        String.ofList (if fraction.isEmpty then ['0'] else fraction)
  else
    let fraction := digits.drop 1
    String.ofList (digits.take 1) ++
      (if fraction.isEmpty then "" else "." ++ String.ofList fraction) ++
      (if leading < 0 then "e-" else "e+") ++
      String.ofList (Nat.toDigits 10 leading.natAbs)

end Decimal

/-- A value as text: its shortest digits, with `0.0` for zero. -/
def Binary64.text (x : Binary64) : String :=
  if x.isZero then "0.0" else x.shortest.text

end IsaTable
