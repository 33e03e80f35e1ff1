import IsaTable.Json.Text

/-! # String literals

    The rendered block puts each opcode between double quotes, where the macro
    reads a string literal.  `Reads` says which text the characters between the
    quotes denote:

    * **One constructor for each way to write a character**, the plain one and
      the escapes; a double quote is never plain, so the literal ends at the
      first one that is not escaped.
    * **Escapes are longer than what they denote** (`Reads.plain_of_length_le`).
      So a text denotes itself exactly when all its characters are plain
      (`reads_self_iff`), and written verbatim it is lost otherwise.
-/

namespace IsaTable.Text.Literal

open Json (hexValue?)

/-! ## §1. Characters -/

/-- A character that stands for itself: neither a quote nor the start of an
    escape, and no carriage return, which may only stand in a line end. -/
def IsPlain (c : Char) : Prop :=
  c ≠ '"' ∧ c ≠ '\\' ∧ c ≠ '\r'

instance (c : Char) : Decidable (IsPlain c) := by
  unfold IsPlain; infer_instance

/-- The character that a letter behind a backslash denotes. -/
def escapeLetter? (letter : Char) : Option Char :=
  if letter = 'n' then some '\n'
  else if letter = 'r' then some '\r'
  else if letter = 't' then some '\t'
  else if letter = '0' then some '\x00'
  else if letter = '\\' ∨ letter = '\'' ∨ letter = '"' then some letter
  else none

/-- Between braces, the number of `count` hexadecimal digits; there may be
    underscores anywhere but in front. -/
inductive SpellsCode : List Char → Nat → Nat → Prop where
  /-- The first digit. -/
  | first {c : Char} {k : Nat} (hc : hexValue? c = some k) : SpellsCode [c] 1 k
  /-- One more digit. -/
  | digit {digits : List Char} {count n : Nat} {c : Char} {k : Nat}
      (h : SpellsCode digits count n) (hc : hexValue? c = some k) :
      SpellsCode (digits ++ [c]) (count + 1) (16 * n + k)
  /-- An underscore, which means nothing. -/
  | underscore {digits : List Char} {count n : Nat} (h : SpellsCode digits count n) :
      SpellsCode (digits ++ ['_']) count n

/-- A line end: a line feed, with or without a carriage return. -/
def IsLineEnd (text : List Char) : Prop :=
  text = ['\n'] ∨ text = ['\r', '\n']

/-- A character that is skipped at the start of a continued line. -/
def IsSkipped (c : Char) : Prop :=
  c = ' ' ∨ c = '\t' ∨ c = '\n' ∨ c = '\r'

/-! ## §2. What a literal denotes -/

/-- Between its quotes, the literal `raw` denotes `text`. -/
inductive Reads : List Char → List Char → Prop where
  /-- The empty literal. -/
  | nil : Reads [] []
  /-- A character that stands for itself. -/
  | plain {c : Char} {raw text : List Char} (hc : IsPlain c) (h : Reads raw text) :
      Reads (c :: raw) (c :: text)
  /-- A line end of two characters, which is read as one. -/
  | lineEnd {raw text : List Char} (h : Reads raw text) :
      Reads ('\r' :: '\n' :: raw) ('\n' :: text)
  /-- An escape by one letter. -/
  | letter {letter c : Char} {raw text : List Char} (hc : escapeLetter? letter = some c)
      (h : Reads raw text) : Reads ('\\' :: letter :: raw) (c :: text)
  /-- An ASCII character by its code, in two digits. -/
  | ascii {high low c : Char} {a b : Nat} {raw text : List Char} (ha : hexValue? high = some a)
      (hb : hexValue? low = some b) (hc : c.toNat = 16 * a + b) (hascii : c.toNat < 128)
      (h : Reads raw text) : Reads ('\\' :: 'x' :: high :: low :: raw) (c :: text)
  /-- A character by its code point, in up to six digits between braces. -/
  | code {digits : List Char} {count : Nat} {c : Char} {raw text : List Char}
      (hdigits : SpellsCode digits count c.toNat) (hcount : count ≤ 6) (h : Reads raw text) :
      Reads ('\\' :: 'u' :: '\x7b' :: (digits ++ '\x7d' :: raw)) (c :: text)
  /-- A line that is continued on the next one, behind what is skipped there. -/
  | continued {ending skipped raw text : List Char} (hending : IsLineEnd ending)
      (hskipped : ∀ c ∈ skipped, IsSkipped c) (hraw : ∀ c, raw.head? = some c → ¬ IsSkipped c)
      (h : Reads raw text) : Reads ('\\' :: (ending ++ (skipped ++ raw))) text

namespace Reads

variable {raw text : List Char}

/-- A literal is never shorter than its text. -/
theorem length_le (h : Reads raw text) : text.length ≤ raw.length := by
  induction h with
  | nil => exact Nat.le_refl _
  | plain _ _ ih | lineEnd _ ih | letter _ _ ih | ascii _ _ _ _ _ ih | code _ _ _ ih
  | continued _ _ _ _ ih =>
    simp only [List.length_cons, List.length_append]
    omega

/-- **Escapes are longer than what they denote.**  A literal that is not longer
    than its text consists of plain characters. -/
theorem plain_of_length_le (h : Reads raw text) (hlength : raw.length ≤ text.length) :
    ∀ c ∈ raw, IsPlain c := by
  induction h with
  | nil => exact List.forall_mem_nil _
  | plain hc _ ih =>
    exact List.forall_mem_cons.2 ⟨hc, ih (Nat.le_of_succ_le_succ hlength)⟩
  -- What follows the escape cannot make up for its length.
  | lineEnd h _ | letter _ h _ | ascii _ _ _ _ h _ | code _ _ h _ | continued _ _ _ h _ =>
    have hrest := h.length_le
    simp only [List.length_cons, List.length_append] at hlength
    omega

end Reads

/-- **Verbatim texts.**  A text denotes itself when all its characters are
    plain, and only then. -/
theorem reads_self_iff {text : List Char} : Reads text text ↔ ∀ c ∈ text, IsPlain c := by
  constructor
  · intro h
    exact h.plain_of_length_le (Nat.le_refl _)
  · intro h
    induction text with
    | nil => exact .nil
    | cons c rest ih =>
      obtain ⟨hc, hrest⟩ := List.forall_mem_cons.1 h
      exact .plain hc (ih hrest)

/-- A quote is written behind a backslash, or by its code point. -/
example : Reads ['\\', '"', '\\', 'u', '\x7b', '2', '_', '2', '\x7d'] ['"', '"'] := by
  have hdigit : hexValue? '2' = some 2 := by decide
  have hcode : SpellsCode ['2', '_', '2'] 2 '"'.toNat :=
    (SpellsCode.first hdigit).underscore.digit hdigit
  exact .letter rfl (.code hcode (by decide) .nil)

end IsaTable.Text.Literal
