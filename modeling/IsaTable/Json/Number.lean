import IsaTable.Json.Blank

/-! # JSON numbers

    A numeral is first cut off the text by its grammar, then evaluated.  It is
    an integer if it has neither fraction nor exponent, is not `-0`, and fits
    in 64 bits, the sign included if there is one; otherwise it is a double.

    The double is reached in two steps: the leading digits that fit in 64
    bits are taken as one integer, and the remaining power of ten is applied
    with one rounding at a time.
-/

namespace IsaTable.Json

/-! ## §1. Numerals -/

/-- The parts of a numeral. -/
structure Numeral where
  /-- Whether it begins with a minus. -/
  negative : Bool
  /-- The digits before the point; a leading zero stands alone. -/
  whole : List Char
  /-- The digits after the point, none if there is no point. -/
  fraction : List Char
  /-- The exponent's sign (true for minus) and digits, if there is one. -/
  power : Option (Bool × List Char)
  deriving DecidableEq, Repr

/-- Why no numeral can be cut off. -/
inductive NumeralFault where
  /-- The text ends where a digit is due. -/
  | ended
  /-- Something else stands there, or a digit follows a leading zero. -/
  | malformed
  deriving DecidableEq, Repr

/-- The run of digits at the start of a text, which must not be empty. -/
def takeDigits (s : List Char) : Except NumeralFault (List Char × List Char) :=
  match s.takeWhile Char.isDigit with
  | [] => if s.isEmpty then .error .ended else .error .malformed
  | d :: ds => .ok (d :: ds, s.dropWhile Char.isDigit)

/-- The digits before the point: a single zero, or a run without a leading
    one. -/
def takeWhole (s : List Char) : Except NumeralFault (List Char × List Char) :=
  match takeDigits s with
  | .ok ('0' :: _ :: _, _) => .error .malformed
  | r => r

/-- The digits after the point, if there is a point. -/
def takeFraction (s : List Char) : Except NumeralFault (List Char × List Char) :=
  match s with
  | '.' :: rest => takeDigits rest
  | _ => .ok ([], s)

/-- The sign of an exponent, if there is one; true for minus. -/
def takeSign (s : List Char) : Bool × List Char :=
  match s with
  | '-' :: rest => (true, rest)
  | '+' :: rest => (false, rest)
  | _ => (false, s)

/-- The exponent, if there is one. -/
def takePower (s : List Char) :
    Except NumeralFault (Option (Bool × List Char) × List Char) :=
  match s with
  | c :: rest =>
    if c = 'e' ∨ c = 'E' then
      match takeDigits (takeSign rest).2 with
      | .ok (digits, rest') => .ok (some ((takeSign rest).1, digits), rest')
      | .error fault => .error fault
    else
      .ok (none, s)
  | [] => .ok (none, s)

/-- The numeral at the start of a text. -/
def takeUnsigned (negative : Bool) (s : List Char) :
    Except NumeralFault (Numeral × List Char) :=
  match takeWhole s with
  | .error fault => .error fault
  | .ok (whole, afterWhole) =>
    match takeFraction afterWhole with
    | .error fault => .error fault
    | .ok (fraction, afterFraction) =>
      match takePower afterFraction with
      | .error fault => .error fault
      | .ok (power, rest) => .ok (⟨negative, whole, fraction, power⟩, rest)

/-- The numeral at the start of a text, with its sign. -/
def takeNumeral (s : List Char) : Except NumeralFault (Numeral × List Char) :=
  match s with
  | '-' :: rest => takeUnsigned true rest
  | _ => takeUnsigned false s

/-! ### What is left is shorter -/

theorem length_lt_of_takeDigits {s d r : List Char} (h : takeDigits s = .ok (d, r)) :
    r.length < s.length := by
  unfold takeDigits at h
  have hsplit := congrArg List.length (List.takeWhile_append_dropWhile (p := Char.isDigit) (l := s))
  split at h
  · split at h <;> cases h
  · next hd =>
    cases h
    simp only [hd, List.length_append, List.length_cons] at hsplit
    omega

theorem length_lt_of_takeWhole {s d r : List Char} (h : takeWhole s = .ok (d, r)) :
    r.length < s.length := by
  unfold takeWhole at h
  split at h
  · cases h
  · exact length_lt_of_takeDigits h

theorem length_le_of_takeFraction {s d r : List Char} (h : takeFraction s = .ok (d, r)) :
    r.length ≤ s.length := by
  unfold takeFraction at h
  split at h
  · have := length_lt_of_takeDigits h
    simp only [List.length_cons]
    omega
  · cases h; omega

theorem length_takeSign_le (s : List Char) : (takeSign s).2.length ≤ s.length := by
  unfold takeSign
  split <;> simp

theorem length_le_of_takePower {s r : List Char} {p : Option (Bool × List Char)}
    (h : takePower s = .ok (p, r)) : r.length ≤ s.length := by
  unfold takePower at h
  split at h
  · next c rest =>
    split at h
    · split at h
      · next hd =>
        cases h
        have h₁ := length_lt_of_takeDigits hd
        have h₂ := length_takeSign_le rest
        simp only [List.length_cons]
        omega
      · cases h
    · cases h; omega
  · cases h; omega

theorem length_lt_of_takeUnsigned {s r : List Char} {negative : Bool} {n : Numeral}
    (h : takeUnsigned negative s = .ok (n, r)) : r.length < s.length := by
  unfold takeUnsigned at h
  split at h
  · cases h
  · next hw =>
    split at h
    · cases h
    · next hf =>
      split at h
      · cases h
      · next hp =>
        cases h
        have := length_lt_of_takeWhole hw
        have := length_le_of_takeFraction hf
        have := length_le_of_takePower hp
        omega

theorem length_lt_of_takeNumeral {s r : List Char} {n : Numeral}
    (h : takeNumeral s = .ok (n, r)) : r.length < s.length := by
  unfold takeNumeral at h
  split at h
  · have := length_lt_of_takeUnsigned h
    simp only [List.length_cons]
    omega
  · exact length_lt_of_takeUnsigned h

/-! ## §2. Integers -/

/-- The number that a run of digits denotes. -/
def digitsValue (digits : List Char) : Nat :=
  Nat.ofDigitChars 10 digits 0

/-- The integer that a numeral denotes, if it is one of at most 64 bits. -/
def Numeral.integer? (n : Numeral) : Option Int :=
  let value := digitsValue n.whole
  if !n.fraction.isEmpty || n.power.isSome then none
  else if n.negative then
    if value = 0 ∨ 0x8000000000000000 < value then none else some (-(value : Int))
  else if value < UInt64.size then some value else none

/-! ## §3. Doubles -/

/-- Takes digits into a significand for as long as it stays below `2 ^ 64`,
    and returns it with the digits that are left over. -/
def fillSignificand (significand : Nat) : List Char → Nat × List Char
  | [] => (significand, [])
  | d :: ds =>
    let next := significand * 10 + (d.toNat - '0'.toNat)
    if next < UInt64.size then fillSignificand next ds else (significand, d :: ds)

/-- The significand and the power of ten that belongs to it.  A whole digit
    that is left over counts in the power; a digit after the point that is
    left over is dropped. -/
def Numeral.significand (n : Numeral) : Nat × Int :=
  let whole := fillSignificand 0 n.whole
  let all := fillSignificand whole.1 n.fraction
  (all.1, (whole.2.length : Int) - ((n.fraction.length : Int) - (all.2.length : Int)))

/-- The largest power of ten that a double can hold. -/
def largestStep : Nat :=
  308

/-- Divides a value by the largest step a number of times, rounding after each
    division; zero stays zero. -/
def divideSteps (x : Binary64) : (count : Nat) → Option Binary64
  | 0 => some x
  | count + 1 =>
    if x.isZero then some x
    else ((Binary64.tenPow? largestStep).bind x.div?).bind (divideSteps · count)

/-- Applies a power of ten to a value, in steps of at most `largestStep`;
    none if the result overflows. -/
def scaleByTen (x : Binary64) (power : Int) : Option Binary64 :=
  let size := power.natAbs
  if x.isZero then some x
  else if 0 ≤ power then
    if size ≤ largestStep then (Binary64.tenPow? size).bind x.mul? else none
  else
    let steps := (size - 1) / largestStep
    (divideSteps x steps).bind fun y =>
      (Binary64.tenPow? (size - steps * largestStep)).bind y.div?

/-- The magnitude of a numeral as a double; none if it overflows.  An exponent
    of 31 bits or more decides at once. -/
def Numeral.magnitude? (n : Numeral) : Option Binary64 :=
  let (significand, shift) := n.significand
  match n.power with
  | none => (Binary64.ofRatio? significand 1).bind (scaleByTen · shift)
  | some (negative, digits) =>
    let power := digitsValue digits
    if 0x80000000 ≤ power then
      if significand = 0 ∨ negative then some Binary64.zero else none
    else
      (Binary64.ofRatio? significand 1).bind
        (scaleByTen · (if negative then shift - power else shift + power))

/-! ## §4. Reading -/

/-- The value of a numeral, as it is found where something else is wanted. -/
def Numeral.found (n : Numeral) : Except Error Found :=
  match n.integer? with
  | some i => .ok (.integer i)
  | none =>
    match n.magnitude? with
    | some magnitude => .ok (.real n.negative magnitude)
    | none => .error .hugeNumber

/-- The error of a fault in a number whose value matters. -/
def NumeralFault.error : NumeralFault → Error
  | .ended => .ended .value
  | .malformed => .badNumber

/-- The number at the start of a text. -/
def readNumber (s : List Char) : Result Found :=
  match takeNumeral s with
  | .error fault => .error fault.error
  | .ok (n, rest) => n.found.map (·, rest)

/-- Passes over the number at the start of a text.  Its value does not matter,
    so it may be of any size, and all faults are alike. -/
def skipNumber (s : List Char) : Except Error (List Char) :=
  match takeNumeral s with
  | .error _ => .error .badNumber
  | .ok (_, rest) => .ok rest

/-- Whether a number can begin with the character. -/
def beginsNumber (c : Char) : Bool :=
  c == '-' || c.isDigit

theorem length_lt_of_readNumber {s r : List Char} {n : Found}
    (h : readNumber s = .ok (n, r)) : r.length < s.length := by
  unfold readNumber at h
  split at h
  · cases h
  · next n _ hn =>
    cases hf : n.found <;> simp only [hf, Except.map] at h <;> cases h
    exact length_lt_of_takeNumeral hn

theorem length_lt_of_skipNumber {s r : List Char} (h : skipNumber s = .ok r) :
    r.length < s.length := by
  unfold skipNumber at h
  split at h
  · cases h
  · next hn =>
    cases h
    exact length_lt_of_takeNumeral hn

end IsaTable.Json
