import IsaTable.Proofs.FirstFailure
import IsaTable.Proofs.Pattern.Tokens
import IsaTable.Proofs.Text.Trimming

/-! # The instruction lines of a text

    What there is to read in a pattern text, said without its reader: cut the
    text at every line feed, number the pieces from 1, trim them, and keep
    those that are neither empty nor comments (`instructionLines`).  Reading a
    text is reading these lines in order (`SourceLine.ofText_eq_mapM`), so

    * a text of **readable** lines is read as the fields that its tokens spell
      (`SourceLine.ofText_of_readable`), and
    * the **first unreadable** line is the error of any other text
      (`SourceLine.ofText_of_firstFailure`).
-/

namespace IsaTable

open Text

/-! ## §1. Lines as they are written -/

/-- A line of a text: its number, and what is on it between blanks. -/
structure WrittenLine where
  /-- The number of the line, counted from 1. -/
  number : Nat
  /-- The line, trimmed. -/
  text : List Char
  deriving DecidableEq, Repr

namespace WrittenLine

/-- A numbered piece of a text, trimmed. -/
def ofNumbered (numbered : List Char × Nat) : WrittenLine :=
  ⟨numbered.2, trim numbered.1⟩

/-- Whether there is an instruction on the line, and not nothing or a
    comment. -/
def isInstruction (l : WrittenLine) : Bool :=
  decide (l.text ≠ [] ∧ l.text.head? ≠ some '#')

/-- The first word of the line. -/
def opcode (l : WrittenLine) : String :=
  String.ofList ((words l.text).headD [])

/-- The other words of the line. -/
def tokens (l : WrittenLine) : List (List Char) :=
  (words l.text).tail

/-- Whether a token spells a field. -/
def IsFieldToken (token : List Char) : Prop :=
  ∃ f : Field, Spells token f.start f.stop f.value.toNat

/-- Whether every token of the line spells a field. -/
def Readable (l : WrittenLine) : Prop :=
  ∀ token ∈ l.tokens, IsFieldToken token

/-- The fields that the tokens of the line spell. -/
def fields (l : WrittenLine) : List Field :=
  l.tokens.filterMap fun token => (Field.ofToken token).toOption

/-- The line as it is read when it is readable. -/
def source (l : WrittenLine) : SourceLine :=
  ⟨l.number, String.ofList l.text, ⟨l.opcode, l.fields⟩⟩

/-- The error of a given kind at this line. -/
def error (l : WrittenLine) (kind : PatternError) : LineError :=
  ⟨l.number, String.ofList l.text, kind⟩

/-- Reads the tokens of the line. -/
def read (l : WrittenLine) : Except LineError SourceLine :=
  match l.tokens.mapM Field.ofToken with
  | .ok fields => .ok ⟨l.number, String.ofList l.text, ⟨l.opcode, fields⟩⟩
  | .error kind => .error (l.error kind)

end WrittenLine

/-- **What there is to read in a text.**  The pieces between line feeds,
    numbered from 1 and trimmed, without those that are empty or begin with
    `#`. -/
def instructionLines (text : String) : List WrittenLine :=
  (((text.toList.splitOn '\n').zipIdx 1).map WrittenLine.ofNumbered).filter
    WrittenLine.isInstruction

/-- Comments and blank lines are counted, and a line is known by its trimmed
    text. -/
example : instructionLines "# a\n\n  b 0,5,1\r\nc" =
    [⟨3, ['b', ' ', '0', ',', '5', ',', '1']⟩, ⟨4, ['c']⟩] := by decide

/-! ## §2. Reading line by line -/

namespace WrittenLine

/-- Whether a line holds an instruction shows in its trimmed form. -/
theorem isInstruction_ofNumbered (line : List Char) (n : Nat) :
    (ofNumbered (line, n)).isInstruction = isInstructionLine line := by
  have hhead := head?_trim line
  unfold isInstructionLine
  cases hstart : trimStart line with
  | nil =>
    rw [hstart, List.head?_nil, List.head?_eq_none_iff] at hhead
    simp [isInstruction, ofNumbered, hhead]
  | cons c rest =>
    rw [hstart, List.head?_cons] at hhead
    have hne : trim line ≠ [] := by
      intro hnil
      rw [hnil] at hhead
      exact nomatch hhead
    by_cases hc : c = '#' <;> simp [isInstruction, ofNumbered, hne, hhead, hc]

/-- Reading a numbered line is reading its trimmed form, if that holds an
    instruction. -/
theorem ofNumbered_eq_read (line : List Char) (n : Nat) :
    SourceLine.ofNumbered (line, n) =
      if (ofNumbered (line, n)).isInstruction then
        (ofNumbered (line, n)).read.map some
      else
        .ok none := by
  rw [isInstruction_ofNumbered]
  cases hline : isInstructionLine line with
  | false => simp [SourceLine.ofNumbered, Instruction.ofLine, hline]
  | true =>
    -- The match on the words has a first one, since the line is not blank.
    have hblank : ¬ AllBlank line := by
      intro hall
      rw [← trimStart_eq_nil_iff] at hall
      simp [isInstructionLine, hall] at hline
    obtain ⟨opcode, tokens, hwords⟩ := List.exists_cons_of_ne_nil (words_ne_nil hblank)
    have hwords' : words (ofNumbered (line, n)).text = opcode :: tokens := by
      rw [← hwords]
      exact words_trim line
    simp only [SourceLine.ofNumbered, Instruction.ofLine, hline, hwords, read, error,
      WrittenLine.tokens, WrittenLine.opcode, hwords', if_true, List.tail_cons, List.headD_cons]
    cases tokens.mapM Field.ofToken <;> rfl

end WrittenLine

/-- The instruction lines among numbered pieces of a text. -/
def instructionsAmong (numbered : List (List Char × Nat)) : List WrittenLine :=
  (numbered.map WrittenLine.ofNumbered).filter WrittenLine.isInstruction

theorem instructionLines_eq_among_pieces (text : String) :
    instructionLines text = instructionsAmong ((text.toList.splitOn '\n').zipIdx 1) :=
  rfl

theorem instructionsAmong_append (front back : List (List Char × Nat)) :
    instructionsAmong (front ++ back) = instructionsAmong front ++ instructionsAmong back := by
  unfold instructionsAmong
  rw [List.map_append, List.filter_append]

/-- A line without an instruction is passed over. -/
theorem instructionsAmong_cons_of_skipped {line : List Char} {n : Nat}
    (h : isInstructionLine line = false) (rest : List (List Char × Nat)) :
    instructionsAmong ((line, n) :: rest) = instructionsAmong rest := by
  unfold instructionsAmong
  rw [List.map_cons, List.filter_cons_of_neg]
  rw [WrittenLine.isInstruction_ofNumbered, h]
  exact Bool.false_ne_true

/-- Any other line comes first. -/
theorem instructionsAmong_cons_of_instruction {line : List Char} {n : Nat}
    (h : isInstructionLine line = true) (rest : List (List Char × Nat)) :
    instructionsAmong ((line, n) :: rest) =
      WrittenLine.ofNumbered (line, n) :: instructionsAmong rest := by
  unfold instructionsAmong
  rw [List.map_cons, List.filter_cons_of_pos]
  rw [WrittenLine.isInstruction_ofNumbered, h]

/-- Reading numbered lines is reading those that hold an instruction. -/
theorem SourceLine.ofNumberedLines_eq_mapM (numbered : List (List Char × Nat)) :
    ofNumberedLines numbered = (instructionsAmong numbered).mapM WrittenLine.read := by
  induction numbered with
  | nil => rfl
  | cons p rest ih =>
    obtain ⟨line, n⟩ := p
    rw [ofNumberedLines, WrittenLine.ofNumbered_eq_read, WrittenLine.isInstruction_ofNumbered]
    -- A line without an instruction is dropped on both sides.
    cases hl : isInstructionLine line with
    | false =>
      rw [instructionsAmong_cons_of_skipped hl, ← ih]
      rfl
    | true =>
      rw [instructionsAmong_cons_of_instruction hl]
      cases hread : (WrittenLine.ofNumbered (line, n)).read with
      | error e =>
        rw [mapM_cons_of_error hread]
        rfl
      | ok s =>
        rw [mapM_cons_of_ok hread, ← ih]
        rfl

/-- The line ends make no difference to what there is to read: not the
    carriage returns before them, and not whether the last one is there. -/
theorem instructionsAmong_linesOfPieces (first : Nat) (pieces : List (List Char)) :
    instructionsAmong ((linesOfPieces pieces).zipIdx first) =
      instructionsAmong (pieces.zipIdx first) := by
  -- Only the last piece is treated differently from the others, hence the
  -- second case split.
  induction pieces generalizing first with
  | nil => rfl
  | cons piece rest ih =>
    cases rest with
    | nil =>
      cases piece with
      | nil => rfl
      | cons c cs => rfl
    | cons next rest =>
      have hpiece : WrittenLine.ofNumbered (dropReturn piece, first) =
          WrittenLine.ofNumbered (piece, first) := by
        simp [WrittenLine.ofNumbered, trim_dropReturn]
      rw [linesOfPieces, List.zipIdx_cons, List.zipIdx_cons]
      unfold instructionsAmong at ih ⊢
      rw [List.map_cons, List.map_cons, List.filter_cons, List.filter_cons, hpiece,
        ih (first + 1)]

/-- **Reading a text** is reading its instruction lines in order. -/
theorem SourceLine.ofText_eq_mapM (text : String) :
    SourceLine.ofText text = (instructionLines text).mapM WrittenLine.read := by
  rw [SourceLine.ofText, ofNumberedLines_eq_mapM, Text.lines, instructionsAmong_linesOfPieces]
  rfl

/-! ## §3. Readable and unreadable lines -/

namespace WrittenLine

theorem isFieldToken_iff {token : List Char} :
    IsFieldToken token ↔ ∃ f, Field.ofToken token = .ok f := by
  simp only [IsFieldToken, Field.ofToken_eq_ok_iff]

/-- The tokens of a readable line are read one by one as its fields. -/
theorem forall₂_fields {l : WrittenLine} (h : l.Readable) :
    List.Forall₂ (fun token f => Field.ofToken token = .ok f) l.tokens l.fields := by
  unfold Readable at h
  unfold fields
  generalize l.tokens = tokens at h ⊢
  induction tokens with
  | nil => exact .nil
  | cons token rest ih =>
    obtain ⟨f, hf⟩ := isFieldToken_iff.1 (h token List.mem_cons_self)
    rw [List.filterMap_cons_some (by rw [hf]; rfl)]
    exact .cons hf (ih fun t ht => h t (List.mem_cons_of_mem token ht))

/-- A readable line is read as it stands. -/
theorem read_of_readable {l : WrittenLine} (h : l.Readable) : l.read = .ok l.source := by
  rw [read, mapM_eq_ok_iff.2 (forall₂_fields h)]
  rfl

/-- The leftmost token that is no field is the error of a line. -/
theorem read_of_firstFailure {l : WrittenLine} {before : List (List Char)}
    {token : List Char} {e : PatternError}
    (h : FirstFailure IsFieldToken l.tokens before token) (he : Field.ofToken token = .error e) :
    l.read = .error (l.error e) := by
  have htokens : l.tokens.mapM Field.ofToken = .error e :=
    mapM_eq_error ⟨h.split, fun t ht => isFieldToken_iff.1 (h.passed t ht),
      fun hok => h.failed (isFieldToken_iff.2 hok)⟩ he
  rw [read, htokens]

/-- An unreadable line has a leftmost token that is no field, and its error is
    the error of the line. -/
theorem exists_read_error {l : WrittenLine} (h : ¬ l.Readable) :
    ∃ before token e, FirstFailure IsFieldToken l.tokens before token ∧
      Field.ofToken token = .error e ∧ l.read = .error (l.error e) := by
  obtain ⟨before, token, hfirst⟩ := exists_firstFailure h
  cases he : Field.ofToken token with
  | ok f => exact absurd (isFieldToken_iff.2 ⟨f, he⟩) hfirst.failed
  | error e => exact ⟨before, token, e, hfirst, he, read_of_firstFailure hfirst he⟩

theorem readable_iff {l : WrittenLine} : l.Readable ↔ ∃ s, l.read = .ok s := by
  constructor
  · intro h
    exact ⟨l.source, read_of_readable h⟩
  · intro hs
    obtain ⟨s, hs⟩ := hs
    by_contra h
    obtain ⟨_, _, _, _, _, herror⟩ := exists_read_error h
    rw [hs] at herror
    exact nomatch herror

end WrittenLine

namespace SourceLine

/-- A text of readable lines is read as it stands. -/
theorem ofText_of_readable {text : String} (h : ∀ l ∈ instructionLines text, l.Readable) :
    ofText text = .ok ((instructionLines text).map WrittenLine.source) := by
  rw [ofText_eq_mapM, mapM_eq_ok_iff, List.forall₂_map_right_iff]
  exact List.forall₂_same.2 fun l hl => WrittenLine.read_of_readable (h l hl)

/-- The first unreadable line is the error of a text. -/
theorem ofText_of_firstFailure {text : String} {before : List WrittenLine} {l : WrittenLine}
    {e : LineError} (h : FirstFailure WrittenLine.Readable (instructionLines text) before l)
    (he : l.read = .error e) : ofText text = .error e := by
  rw [ofText_eq_mapM]
  exact mapM_eq_error ⟨h.split, fun k hk => WrittenLine.readable_iff.1 (h.passed k hk),
    fun hok => h.failed (WrittenLine.readable_iff.2 hok)⟩ he

end SourceLine

end IsaTable
