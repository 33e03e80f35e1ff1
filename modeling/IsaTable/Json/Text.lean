import IsaTable.Json.Blank

/-! # JSON texts

    A text stands between double quotes.  Inside, a backslash begins an
    escape; a code point past `U+FFFF` may be escaped as a surrogate pair, and
    half a pair is an error wherever the text's content matters.

    Main definitions:
    - `readText` and `skipText`, from after the opening quote to after the
      closing one, with and without the content;
    - `escapeText`, the content as it is written between the quotes.
-/

namespace IsaTable.Json

/-! ## §1. Escapes -/

/-- The character that a one-letter escape stands for. -/
def simpleEscape? : Char → Option Char
  | '"' => some '"'
  | '\\' => some '\\'
  | '/' => some '/'
  | 'b' => some '\x08'
  | 'f' => some '\x0c'
  | 'n' => some '\n'
  | 'r' => some '\r'
  | 't' => some '\t'
  | _ => none

/-- The value of a hexadecimal digit in either case. -/
def hexValue? (c : Char) : Option Nat :=
  if '0' ≤ c ∧ c ≤ '9' then some (c.toNat - '0'.toNat)
  else if 'a' ≤ c ∧ c ≤ 'f' then some (c.toNat - 'a'.toNat + 10)
  else if 'A' ≤ c ∧ c ≤ 'F' then some (c.toNat - 'A'.toNat + 10)
  else none

/-- The value of four hexadecimal digits. -/
def hexValue4? (a b c d : Char) : Option Nat := do
  return (((← hexValue? a) * 16 + (← hexValue? b)) * 16 + (← hexValue? c)) * 16 + (← hexValue? d)

/-- The size of a text in UTF-8. -/
def utf8Length (s : List Char) : Nat :=
  (String.ofList s).utf8ByteSize

/-- Reads four hexadecimal digits.  They are looked for in four bytes of
    UTF-8: fewer bytes are the end of the text, any other four bytes are a
    bad escape. -/
def readHex4 (s : List Char) : Result Nat :=
  match s with
  | a :: b :: c :: d :: rest =>
    match hexValue4? a b c d with
    | some n => .ok (n, rest)
    | none => .error .badEscape
  | _ => if utf8Length s < 4 then .error (.ended .text) else .error .badEscape

/-- Whether a code unit is the first half of a surrogate pair. -/
def isHighSurrogate (n : Nat) : Bool :=
  0xD800 ≤ n && n ≤ 0xDBFF

/-- Whether a code unit is the second half of a surrogate pair. -/
def isLowSurrogate (n : Nat) : Bool :=
  0xDC00 ≤ n && n ≤ 0xDFFF

/-- The character of a surrogate pair. -/
def pairChar (high low : Nat) : Char :=
  Char.ofNat (0x10000 + (high - 0xD800) * 0x400 + (low - 0xDC00))

/-- Reads the second half of a pair, which must be escaped too. -/
def readSecondHalf (high : Nat) (s : List Char) : Result Char :=
  match s with
  | [] => .error (.ended .text)
  | ['\\'] => .error (.ended .text)
  | '\\' :: 'u' :: rest =>
    match readHex4 rest with
    | .error e => .error e
    | .ok (low, rest') =>
      if isLowSurrogate low then .ok (pairChar high low, rest') else .error .loneSurrogate
  | _ => .error .halfPair

/-- Reads an escape by code unit, from after its `u`. -/
def readUnitEscape (s : List Char) : Result Char :=
  match readHex4 s with
  | .error e => .error e
  | .ok (n, rest) =>
    if isLowSurrogate n then .error .loneSurrogate
    else if isHighSurrogate n then readSecondHalf n rest
    else .ok (Char.ofNat n, rest)

/-- Reads an escape, from after its backslash. -/
def readEscape (s : List Char) : Result Char :=
  match s with
  | [] => .error (.ended .text)
  | 'u' :: rest => readUnitEscape rest
  | c :: rest =>
    match simpleEscape? c with
    | some d => .ok (d, rest)
    | none => .error .badEscape

/-- Passes over an escape, from after its backslash; half a surrogate pair is
    let through. -/
def skipEscape (s : List Char) : Except Error (List Char) :=
  match s with
  | [] => .error (.ended .text)
  | 'u' :: rest => (readHex4 rest).map Prod.snd
  | c :: rest =>
    match simpleEscape? c with
    | some _ => .ok rest
    | none => .error .badEscape

/-! ### What is left is shorter -/

theorem length_lt_of_readHex4 {s r : List Char} {n : Nat} (h : readHex4 s = .ok (n, r)) :
    r.length < s.length := by
  unfold readHex4 at h
  split at h
  · split at h
    · cases h; simp only [List.length_cons]; omega
    · cases h
  · split at h <;> cases h

theorem length_lt_of_readSecondHalf {high : Nat} {s r : List Char} {c : Char}
    (h : readSecondHalf high s = .ok (c, r)) : r.length < s.length := by
  unfold readSecondHalf at h
  split at h
  · cases h
  · cases h
  · split at h
    · cases h
    · next hx =>
      have := length_lt_of_readHex4 hx
      split at h
      · simp only [Except.ok.injEq, Prod.mk.injEq] at h
        simp only [List.length_cons, ← h.2]; omega
      · cases h
  · cases h

theorem length_lt_of_readUnitEscape {s r : List Char} {c : Char}
    (h : readUnitEscape s = .ok (c, r)) : r.length < s.length := by
  unfold readUnitEscape at h
  split at h
  · cases h
  · next hx =>
    have := length_lt_of_readHex4 hx
    split at h
    · cases h
    · split at h
      · have := length_lt_of_readSecondHalf h; omega
      · cases h; omega

theorem length_lt_of_readEscape {s r : List Char} {c : Char}
    (h : readEscape s = .ok (c, r)) : r.length < s.length := by
  unfold readEscape at h
  split at h
  · cases h
  · have := length_lt_of_readUnitEscape h
    simp only [List.length_cons]; omega
  · split at h <;> cases h
    simp

theorem length_lt_of_skipEscape {s r : List Char} (h : skipEscape s = .ok r) :
    r.length < s.length := by
  unfold skipEscape at h
  split at h
  · cases h
  · next rest =>
    cases hx : readHex4 rest with
    | error e => simp [hx, Except.map] at h
    | ok p =>
      have := length_lt_of_readHex4 (s := rest) (n := p.1) (r := p.2) hx
      simp only [hx, Except.map, Except.ok.injEq] at h
      simp only [List.length_cons, ← h]; omega
  · split at h <;> cases h
    simp

/-! ## §2. Reading and skipping -/

/-- Control characters may not stand in a text unescaped. -/
def isControl (c : Char) : Bool :=
  c.toNat < 0x20

/-- Reads a text, from after its opening quote to after its closing one. -/
def readText (s : List Char) : Result (List Char) :=
  match s with
  | [] => .error (.ended .text)
  | c :: rest =>
    if c = '"' then
      .ok ([], rest)
    else if c = '\\' then
      match _h : readEscape rest with
      | .error e => .error e
      | .ok (d, rest') =>
        match readText rest' with
        | .error e => .error e
        | .ok (ds, r) => .ok (d :: ds, r)
    else if isControl c then
      .error .controlCharacter
    else
      match readText rest with
      | .error e => .error e
      | .ok (ds, r) => .ok (c :: ds, r)
termination_by s.length
decreasing_by
  · have := length_lt_of_readEscape ‹_›
    simp only [List.length_cons]; omega
  · simp only [List.length_cons]; omega

/-- Passes over a text, from after its opening quote to after its closing
    one. -/
def skipText (s : List Char) : Except Error (List Char) :=
  match s with
  | [] => .error (.ended .text)
  | c :: rest =>
    if c = '"' then
      .ok rest
    else if c = '\\' then
      match _h : skipEscape rest with
      | .error e => .error e
      | .ok rest' => skipText rest'
    else if isControl c then
      .error .controlCharacter
    else
      skipText rest
termination_by s.length
decreasing_by
  · have := length_lt_of_skipEscape ‹_›
    simp only [List.length_cons]; omega
  · simp only [List.length_cons]; omega

theorem length_lt_of_readText {s t r : List Char} (h : readText s = .ok (t, r)) :
    r.length < s.length := by
  fun_induction readText s generalizing t with
  | case1 => cases h
  | case2 => cases h; simp
  | case3 => cases h
  | case4 => cases h
  | case5 rest d rest' he ds r' hr hne ih =>
    cases h
    have h₁ := length_lt_of_readEscape he
    have h₂ := ih hr
    simp only [List.length_cons]; omega
  | case6 => cases h
  | case7 => cases h
  | case8 c rest _ _ _ ds r' hr ih =>
    cases h
    have h₂ := ih hr
    simp only [List.length_cons]; omega

theorem length_lt_of_skipText {s r : List Char} (h : skipText s = .ok r) :
    r.length < s.length := by
  fun_induction skipText s with
  | case1 => cases h
  | case2 => cases h; simp
  | case3 => cases h
  | case4 rest rest' he hne ih =>
    have h₁ := length_lt_of_skipEscape he
    have h₂ := ih h
    simp only [List.length_cons]; omega
  | case5 => cases h
  | case6 c rest _ _ _ ih =>
    have h₂ := ih h
    simp only [List.length_cons]; omega

/-! ## §3. Writing -/

/-- A character as it is written in a text.  The quote, the backslash and the
    control characters are escaped, five of the latter by a letter and the
    others by their code unit; all else stands for itself. -/
def escapeChar (c : Char) : List Char :=
  if c = '"' then ['\\', '"']
  else if c = '\\' then ['\\', '\\']
  else if c = '\x08' then ['\\', 'b']
  else if c = '\x0c' then ['\\', 'f']
  else if c = '\n' then ['\\', 'n']
  else if c = '\r' then ['\\', 'r']
  else if c = '\t' then ['\\', 't']
  else if isControl c then
    ['\\', 'u', '0', '0', Nat.digitChar (c.toNat / 16), Nat.digitChar (c.toNat % 16)]
  else [c]

/-- A text as it is written between quotes. -/
def escapeText (s : List Char) : List Char :=
  s.flatMap escapeChar

@[simp] theorem escapeText_nil : escapeText [] = [] := rfl

@[simp] theorem escapeText_cons (c : Char) (s : List Char) :
    escapeText (c :: s) = escapeChar c ++ escapeText s := rfl

end IsaTable.Json
