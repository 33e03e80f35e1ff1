import IsaTable.Proofs.Pattern.InstructionLines
import IsaTable.Proofs.Text.LineEnds

/-! # The numbers of instruction lines

    Lines are counted with those that hold no instruction, so the number of an
    instruction line is its place among all lines of the text:

    * it is **found there** (`exists_line_of_mem`), and it stands alone in its
      own text, so that it can be read again from there
      (`instructionLines_of_mem`);
    * numbers **increase** from one instruction line to the next
      (`pairwise_number_instructionLines`).

    Nothing else hangs on the number: a line with another one is read as before,
    and its error is located there (`WrittenLine.read_renumber`).
-/

namespace IsaTable

open Text

/-! ## §1. Instruction lines among numbered pieces -/

/-- Whether a line holds an instruction shows in its words. -/
theorem isInstructionLine_congr {line line' : List Char} (h : words line = words line') :
    isInstructionLine line = isInstructionLine line' := by
  -- What decides is the first character of the first word, if there is one.
  have hfirst : ∀ line : List Char, isInstructionLine line =
      ((words line).head?.bind List.head?).any (· != '#') := by
    intro line
    by_cases hblank : AllBlank line
    · rw [isInstructionLine, trimStart_eq_nil_iff.2 hblank, words_eq_nil hblank]
      rfl
    · obtain ⟨front, word, rest, hfront, hword, hrest, rfl⟩ := exists_first_word hblank
      obtain ⟨c, cs, rfl⟩ := List.exists_cons_of_ne_nil hword.1
      have hc : isBlank c = false := hword.2 c List.mem_cons_self
      rw [isInstructionLine, words_append_front hfront, words_word_append hword hrest,
        trimStart_append hfront, List.cons_append, trimStart,
        List.dropWhile_cons_of_neg (by simp [hc])]
      rfl
  rw [hfirst, hfirst, h]

/-- The lines of a text, cut off at their line ends, serve as well as its
    pieces. -/
theorem instructionLines_eq_among_lines (text : String) :
    instructionLines text = instructionsAmong ((lines text.toList).zipIdx 1) :=
  (instructionsAmong_linesOfPieces 1 (text.toList.splitOn '\n')).symm

/-- A last line without an instruction might as well not be there. -/
theorem instructionsAmong_concat_of_skipped {line : List Char}
    (h : isInstructionLine line = false) (first : Nat) (pieces : List (List Char)) :
    instructionsAmong ((pieces ++ [line]).zipIdx first) =
      instructionsAmong (pieces.zipIdx first) := by
  rw [List.zipIdx_append, instructionsAmong_append, List.zipIdx_singleton,
    instructionsAmong_cons_of_skipped h]
  exact List.append_nil _

/-- An instruction line is the trimmed form of one of the pieces. -/
theorem exists_of_mem_instructionsAmong {numbered : List (List Char × Nat)} {l : WrittenLine}
    (h : l ∈ instructionsAmong numbered) :
    ∃ line, (line, l.number) ∈ numbered ∧ l.text = trim line ∧ isInstructionLine line = true := by
  obtain ⟨hmem, hl⟩ := List.mem_filter.1 h
  obtain ⟨⟨line, n⟩, hline, rfl⟩ := List.mem_map.1 hmem
  rw [WrittenLine.isInstruction_ofNumbered] at hl
  exact ⟨line, hline, rfl, hl⟩

/-! ## §2. Lines with other numbers -/

/-- The line with another number. -/
def WrittenLine.renumber (f : Nat → Nat) (l : WrittenLine) : WrittenLine :=
  ⟨f l.number, l.text⟩

/-- The source line with another number. -/
def SourceLine.renumber (f : Nat → Nat) (s : SourceLine) : SourceLine :=
  ⟨f s.line, s.text, s.instruction⟩

/-- The error at another number. -/
def LineError.renumber (f : Nat → Nat) (e : LineError) : LineError :=
  ⟨f e.line, e.text, e.kind⟩

/-- A line with another number is read as before. -/
theorem WrittenLine.read_renumber (f : Nat → Nat) (l : WrittenLine) :
    (l.renumber f).read =
      (l.read.map (SourceLine.renumber f)).mapError (LineError.renumber f) := by
  have htokens : (l.renumber f).tokens = l.tokens := rfl
  rw [read, read, htokens]
  cases l.tokens.mapM Field.ofToken with
  | ok fields => rfl
  | error kind => rfl

/-- So are any number of lines. -/
theorem WrittenLine.mapM_read_renumber (f : Nat → Nat) (ls : List WrittenLine) :
    (ls.map (renumber f)).mapM read =
      ((ls.mapM read).map (List.map (SourceLine.renumber f))).mapError
        (LineError.renumber f) := by
  induction ls with
  | nil => rfl
  | cons l rest ih =>
    have hl := read_renumber f l
    rw [List.map_cons]
    cases hread : l.read with
    | error e =>
      rw [hread] at hl
      rw [mapM_cons_of_error hread, mapM_cons_of_error hl]
      rfl
    | ok s =>
      rw [hread] at hl
      rw [mapM_cons_of_ok hread, mapM_cons_of_ok hl, ih]
      cases rest.mapM read <;> rfl

/-- The instruction lines among renumbered pieces are renumbered. -/
theorem instructionsAmong_renumber (f : Nat → Nat) (numbered : List (List Char × Nat)) :
    instructionsAmong (numbered.map (Prod.map id f)) =
      (instructionsAmong numbered).map (WrittenLine.renumber f) := by
  have hwritten : (numbered.map (Prod.map id f)).map WrittenLine.ofNumbered =
      (numbered.map WrittenLine.ofNumbered).map (WrittenLine.renumber f) := by
    rw [List.map_map, List.map_map]
    rfl
  unfold instructionsAmong
  rw [hwritten, List.filter_map]
  rfl

/-- Counting from further on moves the instruction lines down. -/
theorem instructionsAmong_zipIdx_add (pieces : List (List Char)) (first k : Nat) :
    instructionsAmong (pieces.zipIdx (first + k)) =
      (instructionsAmong (pieces.zipIdx first)).map (WrittenLine.renumber (· + k)) := by
  rw [← instructionsAmong_renumber, List.map_snd_add_zipIdx_eq_zipIdx, Nat.add_comm]

/-! ## §3. Where an instruction line stands -/

variable {text : String} {l : WrittenLine}

/-- **An instruction line is found at its number**, trimmed. -/
theorem exists_line_of_mem (h : l ∈ instructionLines text) :
    ∃ i line, l.number = i + 1 ∧ (lines text.toList)[i]? = some line ∧ l.text = trim line := by
  rw [instructionLines_eq_among_lines] at h
  obtain ⟨line, hline, htext, -⟩ := exists_of_mem_instructionsAmong h
  obtain ⟨hfirst, hat⟩ := List.mk_mem_zipIdx_iff_le_and_getElem?_sub.1 hline
  exact ⟨l.number - 1, line, by omega, hat, htext⟩

/-- **Numbers increase.** -/
theorem pairwise_number_instructionLines (text : String) :
    (instructionLines text).Pairwise fun k l => k.number < l.number := by
  have hnumbers : (((text.toList.splitOn '\n').zipIdx 1).map Prod.snd).Pairwise (· < ·) := by
    rw [List.zipIdx_map_snd]
    exact List.pairwise_lt_range'
  apply List.Pairwise.filter
  rw [List.pairwise_map] at hnumbers ⊢
  exact hnumbers

/-- **An instruction line stands alone in its own text**, on the first line. -/
theorem instructionLines_of_mem (h : l ∈ instructionLines text) :
    instructionLines (String.ofList l.text) = [l.renumber fun _ => 1] := by
  obtain ⟨line, hline, htext, hinstruction⟩ := exists_of_mem_instructionsAmong h
  -- Trimming puts no line feed where there was none.
  have hnewline : '\n' ∉ l.text := by
    obtain ⟨front, back, -, -, hsplit⟩ := exists_blank_trim_blank line
    intro hmem
    have hmem : '\n' ∈ line := by
      rw [hsplit, ← htext]
      simp [hmem]
    simpa using not_separator_of_mem_splitOnP (List.fst_mem_of_mem_zipIdx hline) '\n' hmem
  have hagain : isInstructionLine l.text = true := by
    rw [← hinstruction]
    apply isInstructionLine_congr
    rw [htext, words_trim]
  rw [instructionLines_eq_among_pieces, String.toList_ofList, List.splitOn_eq_singleton hnewline]
  show instructionsAmong [(l.text, 1)] = _
  rw [instructionsAmong_cons_of_instruction hagain, WrittenLine.ofNumbered, WrittenLine.renumber,
    htext, trim_trim]
  rfl

end IsaTable
