import IsaTable.Proofs.Pattern.PrintedText

/-! # The grammar of a line

    A line of pattern text is of one of two kinds, said without cutting it up:

    * it is **skipped**, when it is blank or its first character that is not
      blank is `#` (`IsSkippedLine`);
    * it is **laid out** as an opcode and tokens, with any blanks around and
      between them.

    Every line is of one of these kinds (`skipped_or_laidOut`), and reading a
    laid out line is reading its tokens (`Instruction.ofLine_of_laidOut`).  The
    two together say what comes of any line (`Instruction.ofLine_grammar`).
-/

namespace IsaTable

open Text

/-! ## §1. The two kinds of lines -/

/-- A line on which nothing is read: it is blank, or its first character that
    is not blank is `#`. -/
def IsSkippedLine (line : List Char) : Prop :=
  AllBlank line ∨ ∃ front rest, AllBlank front ∧ line = front ++ '#' :: rest

theorem isInstructionLine_of_skipped {line : List Char} (h : IsSkippedLine line) :
    isInstructionLine line = false := by
  unfold isInstructionLine
  rcases h with hblank | ⟨front, rest, hfront, rfl⟩
  · rw [trimStart_eq_nil_iff.2 hblank]
  · rw [trimStart_append hfront, trimStart, List.dropWhile_cons_of_neg (by simp)]
    rfl

theorem isInstructionLine_of_laidOut {line : List Char} {opcode : String}
    {tokens : List (List Char)} (hopcode : IsOpcodeWord opcode)
    (hline : LaidOut line opcode.toList tokens) : isInstructionLine line = true := by
  obtain ⟨front, rest, hfront, ⟨hne, hword⟩, -, rfl⟩ := hline
  have hhash := hopcode.2.2
  cases hchars : opcode.toList with
  | nil => exact absurd hchars hne
  | cons c cs =>
    rw [hchars] at hword hhash
    have hc : isBlank c = false := hword c List.mem_cons_self
    unfold isInstructionLine
    rw [trimStart_append hfront, List.cons_append, trimStart,
      List.dropWhile_cons_of_neg (by simp [hc])]
    simpa using hhash

/-- Every line is of one of the two kinds. -/
theorem skipped_or_laidOut (line : List Char) :
    IsSkippedLine line ∨
      ∃ opcode tokens, IsOpcodeWord opcode ∧ LaidOut line opcode.toList tokens := by
  by_cases hblank : AllBlank line
  · exact .inl (.inl hblank)
  obtain ⟨front, word, rest, hfront, hword, hrest, rfl⟩ := exists_first_word hblank
  by_cases hhash : word.head? = some '#'
  · obtain ⟨cs, rfl⟩ := List.head?_eq_some_iff.1 hhash
    exact .inl (.inr ⟨front, cs ++ rest, hfront, rfl⟩)
  · have hopcode : IsOpcodeWord (String.ofList word) := by
      refine ⟨?_, ?_, ?_⟩
      · simpa using hword.1
      · simpa using hword.2
      · simpa using hhash
    refine .inr ⟨String.ofList word, words rest, hopcode, ?_⟩
    rw [String.toList_ofList]
    exact ⟨front, rest, hfront, hword, spaced_words hrest, rfl⟩

/-! ## §2. Reading a line -/

namespace Instruction

theorem ofLine_of_skipped {line : List Char} (h : IsSkippedLine line) :
    ofLine line = .ok none := by
  rw [ofLine, isInstructionLine_of_skipped h]
  rfl

/-- **Reading a laid out line is reading its tokens**, wherever the blanks
    stand. -/
theorem ofLine_of_laidOut {line : List Char} {opcode : String} {tokens : List (List Char)}
    (hopcode : IsOpcodeWord opcode) (hline : LaidOut line opcode.toList tokens) :
    ofLine line = (tokens.mapM Field.ofToken).map fun fields => some ⟨opcode, fields⟩ := by
  rw [ofLine, isInstructionLine_of_laidOut hopcode hline, words_eq_cons_iff.2 hline]
  simp only [if_true, String.ofList_toList]

theorem ofLine_eq_none_iff {line : List Char} :
    ofLine line = .ok none ↔ IsSkippedLine line := by
  constructor
  · intro h
    rcases skipped_or_laidOut line with hskip | ⟨opcode, tokens, hopcode, hline⟩
    · exact hskip
    · rw [ofLine_of_laidOut hopcode hline, map_eq_ok_iff] at h
      obtain ⟨_, _, hsome⟩ := h
      exact nomatch hsome
  · exact ofLine_of_skipped

theorem ofLine_eq_some_iff {line : List Char} {i : Instruction} :
    ofLine line = .ok (some i) ↔
      IsOpcodeWord i.opcode ∧
        ∃ tokens, LaidOut line i.opcode.toList tokens ∧
          List.Forall₂ (fun token f => Field.ofToken token = .ok f) tokens i.fields := by
  constructor
  · intro h
    rcases skipped_or_laidOut line with hskip | ⟨opcode, tokens, hopcode, hline⟩
    · rw [ofLine_of_skipped hskip] at h
      exact nomatch h
    · rw [ofLine_of_laidOut hopcode hline, map_eq_ok_iff] at h
      obtain ⟨fields, hread, hsome⟩ := h
      obtain rfl : ⟨opcode, fields⟩ = i := Option.some.inj hsome
      exact ⟨hopcode, tokens, hline, mapM_eq_ok_iff.1 hread⟩
  · intro h
    obtain ⟨hopcode, tokens, hline, hfields⟩ := h
    rw [ofLine_of_laidOut hopcode hline, mapM_eq_ok_iff.2 hfields]
    rfl

theorem ofLine_eq_error_iff {line : List Char} {e : PatternError} :
    ofLine line = .error e ↔
      ∃ opcode tokens, IsOpcodeWord opcode ∧ LaidOut line opcode.toList tokens ∧
        ∃ before token,
          FirstFailure (fun token => ∃ f, Field.ofToken token = .ok f) tokens before token ∧
            Field.ofToken token = .error e := by
  constructor
  · intro h
    rcases skipped_or_laidOut line with hskip | ⟨opcode, tokens, hopcode, hline⟩
    · rw [ofLine_of_skipped hskip] at h
      exact nomatch h
    · rw [ofLine_of_laidOut hopcode hline, map_eq_error_iff] at h
      exact ⟨opcode, tokens, hopcode, hline, mapM_eq_error_iff.1 h⟩
  · intro h
    obtain ⟨opcode, tokens, hopcode, hline, hfails⟩ := h
    rw [ofLine_of_laidOut hopcode hline, map_eq_error_iff]
    exact mapM_eq_error_iff.2 hfails

/-- **Printing is undone by reading**, with any blanks between the printed
    words and around them. -/
theorem ofLine_of_printed {line : List Char} {i : Instruction} (hopcode : IsOpcodeWord i.opcode)
    (hline : LaidOut line i.opcode.toList i.toDecl.tokens) : ofLine line = .ok (some i) := by
  refine ofLine_eq_some_iff.2 ⟨hopcode, i.toDecl.tokens, hline, ?_⟩
  rw [InstructionDecl.tokens, toDecl, List.map_map, List.forall₂_map_left_iff]
  apply List.forall₂_same.2
  intro f _
  show Field.ofToken f.toDecl.token = .ok f
  rw [Field.ofToken_token, Field.check_toDecl]
  rfl

/-- **The grammar of a line.**  Nothing is read on a line exactly when it is
    blank or its first character that is not blank is `#`; an instruction is
    read exactly when the line is laid out as its opcode and tokens that are
    read as its fields, in order; and the error is that of the leftmost token
    that is not read as a field.  So a printed instruction is read back, with
    any blanks between the words and around them. -/
theorem ofLine_grammar (line : List Char) :
    (ofLine line = .ok none ↔
        AllBlank line ∨ ∃ front rest, AllBlank front ∧ line = front ++ '#' :: rest) ∧
      (∀ i : Instruction, ofLine line = .ok (some i) ↔
        IsOpcodeWord i.opcode ∧
          ∃ tokens, LaidOut line i.opcode.toList tokens ∧
            List.Forall₂ (fun token f => Field.ofToken token = .ok f) tokens i.fields) ∧
      (∀ e, ofLine line = .error e ↔
        ∃ opcode tokens, IsOpcodeWord opcode ∧ LaidOut line opcode.toList tokens ∧
          ∃ before token,
            FirstFailure (fun token => ∃ f, Field.ofToken token = .ok f) tokens before token ∧
              Field.ofToken token = .error e) ∧
      ∀ i : Instruction, IsOpcodeWord i.opcode →
        LaidOut line i.opcode.toList i.toDecl.tokens → ofLine line = .ok (some i) := by
  refine ⟨ofLine_eq_none_iff, fun i => ofLine_eq_some_iff, fun e => ofLine_eq_error_iff, ?_⟩
  intro i hopcode hline
  exact ofLine_of_printed hopcode hline

/-- Two printed fields behind an ideographic space, a tab with a no-break
    space, and a line separator, before the carriage return of a line end. -/
theorem ofLine_grammar_anyBlanks :
    let i : Instruction :=
      ⟨"b#", [⟨0, 5, 18#32, by decide, by decide⟩, ⟨31, 31, 1#32, by decide, by decide⟩]⟩
    let line := "\u3000b#\t\u00a00,5,18\u202831,31,1 \r".toList
    IsOpcodeWord i.opcode ∧ LaidOut line i.opcode.toList i.toDecl.tokens ∧
      ofLine line = .ok (some i) := by
  intro i line
  have hopcode : IsOpcodeWord i.opcode := by decide
  have hlast : Spaced ("\u2028".toList ++ ("31,31,1".toList ++ " \r".toList))
      ["31,31,1".toList] :=
    .gap (by decide) (by decide) (by decide) (.blanks (by decide))
  have hrest : Spaced ("\t\u00a0".toList ++ ("0,5,18".toList ++
      ("\u2028".toList ++ ("31,31,1".toList ++ " \r".toList))))
      ["0,5,18".toList, "31,31,1".toList] :=
    .gap (by decide) (by decide) (by decide) hlast
  have htokens : i.toDecl.tokens = ["0,5,18".toList, "31,31,1".toList] := by decide
  have hline : LaidOut line i.opcode.toList i.toDecl.tokens := by
    rw [htokens]
    exact ⟨"\u3000".toList, _, by decide, by decide, hrest, by decide⟩
  exact ⟨hopcode, hline, (ofLine_grammar line).2.2.2 i hopcode hline⟩

end Instruction

end IsaTable
