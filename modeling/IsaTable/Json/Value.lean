import IsaTable.Json.Number
import IsaTable.Json.Text

/-! # Any JSON value

    A value whose content does not matter is passed over (`skipValue`), at any
    depth of nesting; a value of the wrong kind is described (`describe`), so
    that the error can name it.  Passing over keeps the open brackets in a
    list of its own, so its recursion is on what is left of the text.
-/

namespace IsaTable.Json

/-! ## §1. Literal words -/

/-- The rest of a text after the rest of a literal word. -/
def readWord (word s : List Char) : Except Error (List Char) :=
  match word, s with
  | [], _ => .ok s
  | _ :: _, [] => .error (.ended .value)
  | w :: ws, c :: rest => if c = w then readWord ws rest else .error .badWord

theorem length_le_of_readWord {word s r : List Char} (h : readWord word s = .ok r) :
    r.length ≤ s.length := by
  fun_induction readWord word s with
  | case1 => cases h; omega
  | case2 => cases h
  | case3 ws c rest ih =>
    have := ih h
    simp only [List.length_cons]; omega
  | case4 => cases h

/-! ## §2. Describing a value -/

/-- What stands at the start of a text.  A list or an object is named without
    being read; any other value is read to its end first, and is described
    only if it is well-formed. -/
def describe (s : List Char) : Except Error Found :=
  match s with
  | [] => .error (.ended .value)
  | c :: rest =>
    if c = 'n' then (readWord ['u', 'l', 'l'] rest).map fun _ => .null
    else if c = 't' then (readWord ['r', 'u', 'e'] rest).map fun _ => .boolean true
    else if c = 'f' then (readWord ['a', 'l', 's', 'e'] rest).map fun _ => .boolean false
    else if beginsNumber c then (readNumber s).map Prod.fst
    else if c = '"' then (readText rest).map fun p => .text (String.ofList p.1)
    else if c = '[' then .ok .list
    else if c = '\x7b' then .ok .object
    else .error .noValue

/-- The error of finding something else than what is wanted. -/
def mismatch (wanted : Wanted) (s : List Char) : Error :=
  match describe s with
  | .ok found => .wrongKind found wanted
  | .error e => e

/-! ## §3. Passing over a value -/

/-- Passes over a value that is neither a list nor an object. -/
def skipScalar (s : List Char) : Except Error (List Char) :=
  match s with
  | [] => .error (.ended .value)
  | c :: rest =>
    if c = 'n' then readWord ['u', 'l', 'l'] rest
    else if c = 't' then readWord ['r', 'u', 'e'] rest
    else if c = 'f' then readWord ['a', 'l', 's', 'e'] rest
    else if beginsNumber c then skipNumber s
    else if c = '"' then skipText rest
    else .error .noValue

theorem length_lt_of_skipScalar {s r : List Char} (h : skipScalar s = .ok r) :
    r.length < s.length := by
  unfold skipScalar at h
  split at h
  · cases h
  · next c rest =>
    simp only [List.length_cons]
    repeat' split at h
    · have := length_le_of_readWord h; omega
    · have := length_le_of_readWord h; omega
    · have := length_le_of_readWord h; omega
    · have := length_lt_of_skipNumber h
      simpa using this
    · have := length_lt_of_skipText h; omega
    · cases h

/-- A bracket that has been opened. -/
inductive Bracket where
  | list
  | object
  deriving DecidableEq, Repr

namespace Bracket

/-- The character that closes the bracket. -/
def closing : Bracket → Char
  | list => ']'
  | object => '\x7d'

/-- What the text ends inside of when the bracket stays open. -/
def part : Bracket → Part
  | list => .list
  | object => .object

/-- The error of something that neither continues nor closes the bracket. -/
def noEnd : Bracket → Error
  | list => .noListEnd
  | object => .noObjectEnd

end Bracket

/-- Where in a value the passing over stands. -/
inductive SkipState where
  /-- A value is due. -/
  | value
  /-- A key is due. -/
  | key
  /-- The innermost bracket has just been opened. -/
  | opened
  /-- A value has just ended. -/
  | closed
  deriving DecidableEq, Repr

namespace SkipState

/-- What is due inside a bracket. -/
def item : Bracket → SkipState
  | .list => value
  | .object => key

/-- Orders the states at one place of the text: an opened bracket is looked
    at before its first item. -/
def rank : SkipState → Nat
  | opened => 1
  | _ => 0

theorem rank_item (b : Bracket) : (item b).rank = 0 := by
  cases b <;> rfl

end SkipState

/-- Passes over a key and the colon after it, from where the key is due. -/
def skipKey (s : List Char) : Except Error (List Char) :=
  match skipBlank s with
  | [] => .error (.ended .object)
  | c :: rest =>
    if c = '"' then
      match skipText rest with
      | .error e => .error e
      | .ok rest' =>
        match skipBlank rest' with
        | [] => .error (.ended .object)
        | d :: rest'' => if d = ':' then .ok rest'' else .error .noColon
    else
      .error .badKey

theorem length_lt_of_skipKey {s r : List Char} (h : skipKey s = .ok r) :
    r.length < s.length := by
  unfold skipKey at h
  split at h
  · cases h
  · next hs =>
    have h₁ := length_lt_of_skipBlank hs
    split at h
    · split at h
      · cases h
      · next ht =>
        have h₂ := length_lt_of_skipText ht
        split at h
        · cases h
        · next hc =>
          have h₃ := length_lt_of_skipBlank hc
          split at h <;> cases h
          omega
    · cases h

/-- Passes over what is left of a value, inside the brackets that are open,
    innermost first. -/
def skipIn (state : SkipState) (brackets : List Bracket) (s : List Char) :
    Except Error (List Char) :=
  match state, brackets with
  | .value, _ =>
    match _h : skipBlank s with
    | [] => .error (.ended .value)
    | c :: rest =>
      if c = '[' then skipIn .opened (.list :: brackets) rest
      else if c = '\x7b' then skipIn .opened (.object :: brackets) rest
      else
        match _h' : skipScalar (c :: rest) with
        | .error e => .error e
        | .ok rest' => skipIn .closed brackets rest'
  | .key, _ =>
    match _h : skipKey s with
    | .error e => .error e
    | .ok rest => skipIn .value brackets rest
  | .opened, [] | .closed, [] => .ok s
  | .opened, b :: outer =>
    match _h : skipBlank s with
    | [] => .error (.ended b.part)
    | c :: rest =>
      if c = b.closing then skipIn .closed outer rest
      -- Nothing has been taken here: the item is looked for from the same place.
      else skipIn (.item b) (b :: outer) s
  | .closed, b :: outer =>
    match _h : skipBlank s with
    | [] => .error (.ended b.part)
    | c :: rest =>
      if c = ',' then skipIn (.item b) (b :: outer) rest
      else if c = b.closing then skipIn .closed outer rest
      else .error b.noEnd
termination_by (s.length, state.rank)
decreasing_by
  · exact Prod.Lex.left _ _ (length_lt_of_skipBlank ‹_›)
  · exact Prod.Lex.left _ _ (length_lt_of_skipBlank ‹_›)
  · have h₁ := length_lt_of_skipScalar ‹skipScalar _ = _›
    have h₂ := length_lt_of_skipBlank ‹skipBlank _ = _›
    simp only [List.length_cons] at h₁
    exact Prod.Lex.left _ _ (by omega)
  · exact Prod.Lex.left _ _ (length_lt_of_skipKey ‹_›)
  · exact Prod.Lex.left _ _ (length_lt_of_skipBlank ‹_›)
  · exact Prod.Lex.right _ (by rw [SkipState.rank_item]; decide)
  · exact Prod.Lex.left _ _ (length_lt_of_skipBlank ‹_›)
  · exact Prod.Lex.left _ _ (length_lt_of_skipBlank ‹_›)

theorem length_le_of_skipIn {state : SkipState} {brackets : List Bracket} {s r : List Char}
    (h : skipIn state brackets s = .ok r) : r.length ≤ s.length := by
  fun_induction skipIn state brackets s with
  | case1 | case4 | case6 | case10 | case13 | case16 => cases h
  | case8 | case9 => cases h; exact Nat.le_refl _
  | case2 brackets s rest hs ih =>
    exact Nat.le_of_lt (Nat.lt_of_le_of_lt (ih h) (length_lt_of_skipBlank hs))
  | case3 brackets s rest hs _ ih =>
    exact Nat.le_of_lt (Nat.lt_of_le_of_lt (ih h) (length_lt_of_skipBlank hs))
  | case5 brackets s c rest hs _ _ rest' hr ih =>
    have h₁ := ih h
    have h₂ := length_lt_of_skipScalar hr
    have h₃ := length_lt_of_skipBlank hs
    simp only [List.length_cons] at h₂
    omega
  | case7 brackets s rest hk ih =>
    exact Nat.le_of_lt (Nat.lt_of_le_of_lt (ih h) (length_lt_of_skipKey hk))
  | case11 s b outer rest hs ih =>
    exact Nat.le_of_lt (Nat.lt_of_le_of_lt (ih h) (length_lt_of_skipBlank hs))
  | case12 s b outer c rest _ _ ih => exact ih h
  | case14 s b outer rest hs ih =>
    exact Nat.le_of_lt (Nat.lt_of_le_of_lt (ih h) (length_lt_of_skipBlank hs))
  | case15 s b outer rest hs _ ih =>
    exact Nat.le_of_lt (Nat.lt_of_le_of_lt (ih h) (length_lt_of_skipBlank hs))

/-- Passes over one value. -/
def skipValue (s : List Char) : Except Error (List Char) :=
  skipIn .value [] s

theorem length_le_of_skipValue {s r : List Char} (h : skipValue s = .ok r) :
    r.length ≤ s.length :=
  length_le_of_skipIn h

end IsaTable.Json
