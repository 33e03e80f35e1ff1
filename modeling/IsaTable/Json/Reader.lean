import IsaTable.Json.Value

/-! # Readers of typed values

    A reader takes one value of a wanted type off the start of a text and
    always leaves less than it was given; that promise is part of the type,
    and is what lists and structures of unbounded size are read by.

    Errors are found in the order of the text: the first one wins, and what
    stands after a value of the wrong kind is not looked at.

    Main definitions:
    - `Reader.text`, `Reader.below`, `Reader.list`, the readers of texts,
      bounded numbers and lists;
    - `Shape` and `Shape.reader`, a structure and how it is read from either
      of its two spellings;
    - `Reader.document`, a value that is the whole text.
-/

namespace IsaTable.Json

/-- Takes a value off the start of a text. -/
structure Reader (α : Type) where
  /-- The value and the text that is left. -/
  run : List Char → Result α
  /-- Less is left than was given. -/
  shorter : ∀ {s a r}, run s = .ok (a, r) → r.length < s.length

namespace Reader

variable {α β : Type}

/-! ## §1. Texts and numbers -/

/-- Applies a function to the value. -/
def map (f : α → β) (reader : Reader α) : Reader β where
  run s :=
    match reader.run s with
    | .error e => .error e
    | .ok (a, rest) => .ok (f a, rest)
  shorter := by
    intro s b r h
    split at h
    · cases h
    · next hr =>
      simp only [Except.ok.injEq, Prod.mk.injEq] at h
      exact h.2 ▸ reader.shorter hr

/-- Takes a text in quotes off the start. -/
def takeText (s : List Char) : Result String :=
  match skipBlank s with
  | [] => .error (.ended .value)
  | c :: rest =>
    if c = '"' then
      match readText rest with
      | .error e => .error e
      | .ok (t, r) => .ok (String.ofList t, r)
    else
      .error (mismatch .text (c :: rest))

theorem length_lt_of_takeText {s r : List Char} {t : String} (h : takeText s = .ok (t, r)) :
    r.length < s.length := by
  unfold takeText at h
  split at h
  · cases h
  · next hs =>
    have h₁ := length_lt_of_skipBlank hs
    split at h
    · split at h
      · cases h
      · next ht =>
        have h₂ := length_lt_of_readText ht
        cases h
        omega
    · cases h

/-- A text. -/
def text : Reader String :=
  ⟨takeText, length_lt_of_takeText⟩

/-- The number that was found, if it is a natural number below a bound. -/
def natural (bound : Nat) (wanted : Wanted) : Found → Except Error Nat
  | .integer (.ofNat n) =>
    if n < bound then .ok n else .error (.outOfRange n wanted)
  | .integer i => .error (.outOfRange i wanted)
  | found => .error (.wrongKind found wanted)

/-- A natural number below a bound.  It must be written as an integer: a
    number with a fraction or an exponent is of another kind, whatever its
    value, and so is one that needs more than 64 bits. -/
def below (bound : Nat) (wanted : Wanted) : Reader Nat where
  run s :=
    match skipBlank s with
    | [] => .error (.ended .value)
    | c :: rest =>
      if beginsNumber c then
        match readNumber (c :: rest) with
        | .error e => .error e
        | .ok (found, r) => (natural bound wanted found).map (·, r)
      else
        .error (mismatch wanted (c :: rest))
  shorter := by
    intro s a r h
    split at h
    · cases h
    · next hs =>
      have h₁ := length_lt_of_skipBlank hs
      split at h
      · split at h
        · cases h
        · next found _ hn =>
          have h₂ := length_lt_of_readNumber hn
          cases hf : natural bound wanted found <;>
            simp only [hf, Except.map] at h <;> cases h
          simp only [List.length_cons] at h₂
          omega
      · cases h

/-! ## §2. Lists -/

end Reader

/-- What follows inside a list or an object. -/
inductive Next where
  /-- The closing bracket; what is left comes after it. -/
  | close (rest : List Char)
  /-- A further item; what is left begins with it, or, for a member of an
      object, with the inside of its key. -/
  | item (rest : List Char)

/-- What follows in a list, given whether anything has been read in it.  A
    comma promises a further element. -/
def nextElement (first : Bool) (s : List Char) : Except Error Next :=
  match skipBlank s with
  | [] => .error (.ended .list)
  | c :: rest =>
    if c = ']' then .ok (.close rest)
    else if first then .ok (.item (c :: rest))
    else if c = ',' then
      match skipBlank rest with
      | [] => .error (.ended .value)
      | d :: rest' => if d = ']' then .error .trailingComma else .ok (.item (d :: rest'))
    else .error .noListEnd

theorem length_le_of_nextElement_item {first : Bool} {s r : List Char}
    (h : nextElement first s = .ok (.item r)) : r.length ≤ s.length := by
  unfold nextElement at h
  have h₀ := length_skipBlank_le s
  split at h
  · cases h
  · next hs =>
    rw [hs, List.length_cons] at h₀
    split at h
    · cases h
    · split at h
      · cases h; simpa using h₀
      · split at h
        · split at h
          · cases h
          · next hd =>
            have h₁ := length_lt_of_skipBlank hd
            split at h <;> cases h
            simp only [List.length_cons]; omega
        · cases h

theorem length_lt_of_nextElement_close {first : Bool} {s r : List Char}
    (h : nextElement first s = .ok (.close r)) : r.length < s.length := by
  unfold nextElement at h
  split at h
  · cases h
  · next hs =>
    have h₀ := length_lt_of_skipBlank hs
    split at h
    · cases h; exact h₀
    · split at h
      · cases h
      · split at h
        · split at h
          · cases h
          · split at h <;> cases h
        · cases h

namespace Reader

variable {α : Type}

/-- Reads the elements of a list, from after its opening bracket, or after an
    element, to after its closing one. -/
def elements (element : Reader α) (first : Bool) (s : List Char) : Result (List α) :=
  match _h : nextElement first s with
  | .error e => .error e
  | .ok (.close rest) => .ok ([], rest)
  | .ok (.item rest) =>
    match _h' : element.run rest with
    | .error e => .error e
    | .ok (a, rest') =>
      match elements element false rest' with
      | .error e => .error e
      | .ok (as, r) => .ok (a :: as, r)
termination_by s.length
decreasing_by
  have h₁ := length_le_of_nextElement_item ‹nextElement _ _ = _›
  have h₂ := element.shorter ‹element.run _ = _›
  omega

theorem length_lt_of_elements {element : Reader α} {first : Bool} {s r : List Char}
    {as : List α} (h : elements element first s = .ok (as, r)) : r.length < s.length := by
  fun_induction elements element first s generalizing as with
  | case1 | case3 | case4 => cases h
  | case2 first s rest hn =>
    cases h
    exact length_lt_of_nextElement_close hn
  | case5 first s rest hn a rest' hr as' r' hs ih =>
    cases h
    have h₁ := length_le_of_nextElement_item hn
    have h₂ := element.shorter hr
    have h₃ := ih hs
    omega

/-- A list of values of one type. -/
def list (element : Reader α) : Reader (List α) where
  run s :=
    match skipBlank s with
    | [] => .error (.ended .value)
    | c :: rest =>
      if c = '[' then elements element true rest
      else .error (mismatch .list (c :: rest))
  shorter := by
    intro s a r h
    split at h
    · cases h
    · next hs =>
      have h₁ := length_lt_of_skipBlank hs
      split at h
      · have h₂ := length_lt_of_elements h
        omega
      · cases h

end Reader

/-! ## §3. Structures -/

/-- One part of a structure, read into a draft of type `δ`. -/
structure Slot (δ : Type) where
  /-- The key that the part has when the structure is written as an object. -/
  key : String
  /-- Whether the draft holds the part already. -/
  filled : δ → Bool
  /-- Reads the part into the draft. -/
  fill : δ → Reader δ

/-- A structure with its parts in order.  It is written as an object that has
    each key at most once, in any order and among unknown keys, or as a list
    of its parts in order. -/
structure Shape (δ α : Type) where
  /-- The name of the structure. -/
  name : String
  /-- Its parts in order. -/
  slots : List (Slot δ)
  /-- The draft without any part. -/
  blank : δ
  /-- The structure that a draft is, or the first key that it lacks. -/
  finish : δ → Except String α

/-- What follows in an object, given whether anything has been read in it.  A
    comma promises a further key. -/
def nextMember (first : Bool) (s : List Char) : Except Error Next :=
  match skipBlank s with
  | [] => .error (.ended .object)
  | c :: rest =>
    if c = '\x7d' then .ok (.close rest)
    else if first then
      if c = '"' then .ok (.item rest) else .error .badKey
    else if c = ',' then
      match skipBlank rest with
      | [] => .error (.ended .value)
      | d :: rest' =>
        if d = '"' then .ok (.item rest')
        else if d = '\x7d' then .error .trailingComma
        else .error .badKey
    else .error .noObjectEnd

/-- Takes the colon after a key. -/
def takeColon (s : List Char) : Except Error (List Char) :=
  match skipBlank s with
  | [] => .error (.ended .object)
  | c :: rest => if c = ':' then .ok rest else .error .noColon

/-- Takes the closing bracket of a structure that is written as a list and has
    all its parts. -/
def takeListEnd (s : List Char) : Except Error (List Char) :=
  match skipBlank s with
  | [] => .error (.ended .list)
  | c :: rest =>
    if c = ']' then .ok rest
    else if c = ',' ∧ (skipBlank rest).head? = some ']' then .error .trailingComma
    else .error .trailingCharacters

theorem length_lt_of_nextMember {first : Bool} {s r : List Char} {n : Next}
    (h : nextMember first s = .ok n) (hn : n = .close r ∨ n = .item r) :
    r.length < s.length := by
  unfold nextMember at h
  split at h
  · cases h
  · next hs =>
    have h₀ := length_lt_of_skipBlank hs
    split at h
    · cases h; rcases hn with hn | hn <;> cases hn; exact h₀
    · split at h
      · split at h
        · cases h; rcases hn with hn | hn <;> cases hn; exact h₀
        · cases h
      · split at h
        · split at h
          · cases h
          · next hd =>
            have h₁ := length_lt_of_skipBlank hd
            split at h
            · cases h; rcases hn with hn | hn <;> cases hn; omega
            · split at h <;> cases h
        · cases h

theorem length_lt_of_takeColon {s r : List Char} (h : takeColon s = .ok r) :
    r.length < s.length := by
  unfold takeColon at h
  split at h
  · cases h
  · next hs =>
    have h₀ := length_lt_of_skipBlank hs
    split at h <;> cases h
    exact h₀

theorem length_lt_of_takeListEnd {s r : List Char} (h : takeListEnd s = .ok r) :
    r.length < s.length := by
  unfold takeListEnd at h
  split at h
  · cases h
  · next hs =>
    have h₀ := length_lt_of_skipBlank hs
    split at h
    · cases h; exact h₀
    · split at h <;> cases h

namespace Shape

variable {δ α : Type}

/-- What is wanted where the structure is due. -/
def wanted (shape : Shape δ α) : Wanted :=
  .structure shape.name shape.slots.length

/-- Reads the parts that `slots` lists, in order, after `count` parts have
    been read, to after the closing bracket.  Fewer parts will do if the
    others can be done without. -/
def readParts (shape : Shape δ α) (slots : List (Slot δ)) (count : Nat) (draft : δ)
    (s : List Char) : Result α :=
  match slots with
  | [] =>
    match shape.finish draft with
    | .error _ => .error (.tooShort count shape.wanted)
    | .ok a => (takeListEnd s).map (a, ·)
  | slot :: others =>
    match nextElement (count == 0) s with
    | .error e => .error e
    | .ok (.close rest) =>
      match shape.finish draft with
      | .error _ => .error (.tooShort count shape.wanted)
      | .ok a => .ok (a, rest)
    | .ok (.item rest) =>
      match (slot.fill draft).run rest with
      | .error e => .error e
      | .ok (draft', rest') => readParts shape others (count + 1) draft' rest'

/-- Reads one member, from inside its key, into the draft.  A known key is
    looked at before its value, an unknown one is passed over with it. -/
def readMember (shape : Shape δ α) (draft : δ) (s : List Char) : Result δ :=
  match readText s with
  | .error e => .error e
  | .ok (key, afterKey) =>
    -- Keys are compared by content, however they are escaped.
    match shape.slots.find? fun slot => slot.key.toList == key with
    | some slot =>
      if slot.filled draft then
        .error (.duplicate slot.key)
      else
        match takeColon afterKey with
        | .error e => .error e
        | .ok rest => (slot.fill draft).run rest
    | none =>
      match takeColon afterKey with
      | .error e => .error e
      | .ok rest => (skipValue rest).map (draft, ·)

theorem length_lt_of_readMember {shape : Shape δ α} {draft draft' : δ} {s r : List Char}
    (h : shape.readMember draft s = .ok (draft', r)) : r.length < s.length := by
  unfold readMember at h
  split at h
  · cases h
  · next hk =>
    have h₀ := length_lt_of_readText hk
    split at h
    · split at h
      · cases h
      · split at h
        · cases h
        · next hc =>
          have h₁ := length_lt_of_takeColon hc
          have h₂ := (Slot.fill _ draft).shorter h
          omega
    · split at h
      · cases h
      · next rest hc =>
        have h₁ := length_lt_of_takeColon hc
        cases hv : skipValue rest with
        | error e => simp only [hv, Except.map] at h; cases h
        | ok r' =>
          have h₂ := length_le_of_skipValue hv
          simp only [hv, Except.map] at h
          cases h
          omega

/-- Reads the members of an object into the draft, from after its opening
    brace, or after a member, to after its closing one.  What is missing is
    noticed at the end. -/
def readMembers (shape : Shape δ α) (first : Bool) (draft : δ) (s : List Char) : Result α :=
  match _h : nextMember first s with
  | .error e => .error e
  | .ok (.close rest) =>
    match shape.finish draft with
    | .error key => .error (.missing key)
    | .ok a => .ok (a, rest)
  | .ok (.item rest) =>
    match _h' : shape.readMember draft rest with
    | .error e => .error e
    | .ok (draft', rest') => readMembers shape false draft' rest'
termination_by s.length
decreasing_by
  have h₁ := length_lt_of_nextMember ‹nextMember _ _ = _› (.inr rfl)
  have h₂ := length_lt_of_readMember ‹shape.readMember _ _ = _›
  omega

theorem length_lt_of_readParts {shape : Shape δ α} {slots : List (Slot δ)} {count : Nat}
    {draft : δ} {s r : List Char} {a : α}
    (h : shape.readParts slots count draft s = .ok (a, r)) : r.length < s.length := by
  induction slots generalizing count draft s with
  | nil =>
    unfold readParts at h
    split at h
    · cases h
    · cases ht : takeListEnd s with
      | error e => simp only [ht, Except.map] at h; cases h
      | ok r' =>
        simp only [ht, Except.map] at h
        cases h
        exact length_lt_of_takeListEnd ht
  | cons slot others ih =>
    unfold readParts at h
    split at h
    · cases h
    · next hn =>
      split at h
      · cases h
      · cases h; exact length_lt_of_nextElement_close hn
    · next hn =>
      have h₁ := length_le_of_nextElement_item hn
      split at h
      · cases h
      · next hr =>
        have h₂ := (slot.fill draft).shorter hr
        have h₃ := ih h
        omega

theorem length_lt_of_readMembers {shape : Shape δ α} {first : Bool} {draft : δ}
    {s r : List Char} {a : α} (h : shape.readMembers first draft s = .ok (a, r)) :
    r.length < s.length := by
  fun_induction readMembers shape first draft s with
  | case1 | case2 | case4 => cases h
  | case3 first draft s rest hn a' _ =>
    cases h
    exact length_lt_of_nextMember hn (.inl rfl)
  | case5 first draft s rest hn draft' rest' hm ih =>
    have h₁ := length_lt_of_nextMember hn (.inr rfl)
    have h₂ := length_lt_of_readMember hm
    have h₃ := ih h
    omega

/-- Reads the structure from either of its spellings. -/
def reader (shape : Shape δ α) : Reader α where
  run s :=
    match skipBlank s with
    | [] => .error (.ended .value)
    | c :: rest =>
      if c = '[' then shape.readParts shape.slots 0 shape.blank rest
      else if c = '\x7b' then shape.readMembers true shape.blank rest
      else .error (mismatch shape.wanted (c :: rest))
  shorter := by
    intro s a r h
    split at h
    · cases h
    · next hs =>
      have h₁ := length_lt_of_skipBlank hs
      split at h
      · have h₂ := length_lt_of_readParts h
        omega
      · split at h
        · have h₂ := length_lt_of_readMembers h
          omega
        · cases h

end Shape

/-! ## §4. Documents -/

/-- The value that the whole text spells, blanks around it apart. -/
def Reader.document {α : Type} (reader : Reader α) (s : List Char) : Except Error α :=
  match reader.run s with
  | .error e => .error e
  | .ok (a, rest) =>
    match skipBlank rest with
    | [] => .ok a
    | _ :: _ => .error .trailingCharacters

end IsaTable.Json
