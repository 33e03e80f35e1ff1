import IsaTable.Proofs.Json.Table
import IsaTable.Proofs.Json.WellFormed
import IsaTable.Proofs.Pattern.LineGrammar
import IsaTable.Proofs.Pattern.LineNumbers
import IsaTable.Proofs.Table.Loading

/-! # The two formats

    A table is declared in JSON or written as pattern text, and **no text is
    both** (`Table.ofPatterns_of_ofJson`).  What tells them apart is the line
    that a JSON table ends on:

    * **It is an instruction line**, since it does not begin with `#`
      (`exists_closing_line`).
    * **It ends in a bracket**, whereas a line of pattern text ends in the last
      digit of a field (`WrittenLine.isDigit_of_words`).
-/

namespace IsaTable

open Text

/-! ## §1. How a line of pattern text ends -/

/-- The last word of a text ends in the last character of the text, unless that
    is a blank. -/
theorem Text.words_concat {c : Char} (h : isBlank c = false) (text : List Char) :
    ∃ front word, words (text ++ [c]) = front ++ [word ++ [c]] := by
  have hcut : text.rdropWhile (!isBlank ·) ++ text.rtakeWhile (!isBlank ·) = text :=
    List.rdropWhile_append_rtakeWhile
  have hword : words (text.rtakeWhile (!isBlank ·) ++ [c]) =
      [text.rtakeWhile (!isBlank ·) ++ [c]] := by
    apply words_of_no_blank (by simp)
    intro d hd
    rcases List.mem_append.1 hd with hd | hd
    · simpa using List.mem_rtakeWhile_imp hd
    · rwa [List.mem_singleton.1 hd]
  rcases List.eq_nil_or_concat (text.rdropWhile (!isBlank ·)) with hnil | ⟨front, b, hfront⟩
  · rw [hnil, List.nil_append] at hcut
    refine ⟨[], text.rtakeWhile (!isBlank ·), ?_⟩
    conv_lhs => rw [← hcut]
    exact hword
  · -- The word stands behind the last blank.
    have hne : text.rdropWhile (!isBlank ·) ≠ [] := by simp [hfront]
    have hb : isBlank b = true := by
      have hlast := List.rdropWhile_last_not (!isBlank ·) text hne
      simpa [hfront] using hlast
    rw [hfront, List.concat_eq_append] at hcut
    refine ⟨words front, text.rtakeWhile (!isBlank ·), ?_⟩
    conv_lhs => rw [← hcut]
    rw [List.append_assoc, List.append_assoc, List.singleton_append, words_append_blank hb, hword]

/-- A token that spells a field ends in a digit. -/
theorem Spells.isDigit_of_concat {word : List Char} {c : Char} {start stop value : Nat}
    (h : Spells (word ++ [c]) start stop value) : c.isDigit = true := by
  obtain ⟨a, b, digits, hjoin, -, -, hdigits⟩ := h
  obtain ⟨front, last, rfl⟩ := (List.eq_nil_or_concat digits).resolve_left hdigits.ne_nil
  have hjoin : word ++ [c] = (a ++ ',' :: (b ++ ',' :: front)) ++ [last] := by
    simpa using hjoin
  obtain ⟨-, hlast⟩ := List.append_inj' hjoin rfl
  rw [List.singleton_inj.1 hlast]
  exact hdigits.isDigit last (by simp)

/-- A readable line with tokens ends in a digit. -/
theorem WrittenLine.isDigit_of_words {l : WrittenLine} (hread : l.Readable) (htokens : l.tokens ≠ [])
    {front : List (List Char)} {word : List Char} {c : Char}
    (hwords : words l.text = front ++ [word ++ [c]]) : c.isDigit = true := by
  have hlast : word ++ [c] ∈ l.tokens := by
    rw [tokens, hwords] at htokens ⊢
    cases front with
    | nil => exact absurd rfl htokens
    | cons opcode others => simp
  obtain ⟨f, hf⟩ := hread _ hlast
  exact hf.isDigit_of_concat

/-! ## §2. How a JSON table ends -/

/-- A piece that holds an instruction is an instruction line. -/
theorem exists_mem_instructionLines {text : String} {line : List Char}
    (hline : line ∈ text.toList.splitOn '\n') (h : isInstructionLine line = true) :
    ∃ l ∈ instructionLines text, l.text = trim line := by
  obtain ⟨i, hi⟩ := List.mem_iff_getElem?.1 hline
  have hnumbered : (line, 1 + i) ∈ (text.toList.splitOn '\n').zipIdx 1 :=
    List.mk_add_mem_zipIdx_iff_getElem?.2 hi
  refine ⟨WrittenLine.ofNumbered (line, 1 + i), List.mem_filter.2 ⟨?_, ?_⟩, rfl⟩
  · exact List.mem_map_of_mem hnumbered
  · rw [WrittenLine.isInstruction_ofNumbered, h]

/-- A line that is neither blank nor a comment holds an instruction. -/
theorem isInstructionLine_of_not_comment {line : List Char} (hblank : ¬ AllBlank line)
    (hcomment : ∀ blanks rest, AllBlank blanks → line ≠ blanks ++ '#' :: rest) :
    isInstructionLine line = true := by
  rcases skipped_or_laidOut line with
    (hall | ⟨blanks, rest, hblanks, hline⟩) | ⟨opcode, tokens, hopcode, hline⟩
  · exact absurd hall hblank
  · exact absurd hline (hcomment blanks rest hblanks)
  · exact isInstructionLine_of_laidOut hopcode hline

/-- The blanks of JSON are blanks. -/
theorem Json.Blanks.allBlank {b : List Char} (h : Json.Blanks b) : AllBlank b := by
  intro c hc
  have hblank := h c hc
  simp only [Json.isBlank, Bool.or_eq_true, beq_iff_eq] at hblank
  rcases hblank with ((rfl | rfl) | rfl) | rfl <;> decide

/-- Where every `#` is quoted, no line is a comment. -/
theorem Json.HashesQuoted.line_ne_comment {front back : List Char}
    (h : Json.HashesQuoted (front ++ back)) {blanks rest : List Char} (hblanks : AllBlank blanks) :
    lineBefore front ++ lineAfter back ≠ blanks ++ '#' :: rest := by
  intro hline
  obtain ⟨start, hstart, hfront⟩ := exists_lineStart front
  have hback : lineAfter back ++ back.dropWhile (· ≠ '\n') = back :=
    List.takeWhile_append_dropWhile
  have htext : front ++ back =
      (start ++ blanks) ++ '#' :: (rest ++ back.dropWhile (· ≠ '\n')) := by
    calc front ++ back
        = (start ++ lineBefore front) ++ (lineAfter back ++ back.dropWhile (· ≠ '\n')) := by
          rw [← hfront, hback]
      _ = start ++ ((lineBefore front ++ lineAfter back) ++ back.dropWhile (· ≠ '\n')) := by
          simp only [List.append_assoc]
      _ = (start ++ blanks) ++ '#' :: (rest ++ back.dropWhile (· ≠ '\n')) := by
          rw [hline]
          simp only [List.append_assoc, List.cons_append]
  have hnewline : '\n' ∉ blanks := by
    intro hmem
    have hmem : '\n' ∈ lineBefore front ++ lineAfter back := by
      rw [hline]
      exact List.mem_append_left _ hmem
    exact (List.mem_append.1 hmem).elim (newline_not_mem_lineBefore front)
      (newline_not_mem_lineAfter back)
  -- The quote in front of the `#` would be one of the blanks.
  have hquote := h _ _ htext
  rw [hstart.lineBefore_append hnewline] at hquote
  exact absurd (hblanks _ hquote) (by decide)

theorem Json.hashesQuoted_of_ofJson {text : String} {d : TableDecl}
    (h : TableDecl.ofJson text = .ok d) : Json.HashesQuoted text.toList := by
  obtain ⟨b, s, b', hb, hb', hs, htext⟩ := TableDecl.reads.document_eq_ok_iff.1 h
  have hvalue := (TableDecl.IsSpelledBy.wellFormed hs).hashesQuoted
  rw [htext]
  exact ((Json.HashesQuoted.of_not_mem hb.hash_not_mem).append hvalue).append
    (.of_not_mem hb'.hash_not_mem)

/-- **A JSON table ends on an instruction line**, in a bracket. -/
theorem exists_closing_line {text : String} {d : TableDecl} (h : TableDecl.ofJson text = .ok d) :
    ∃ l ∈ instructionLines text, ∃ (bracket : Json.Bracket) (front : List (List Char))
      (word : List Char), words l.text = front ++ [word ++ [bracket.closing]] := by
  have hquoted := Json.hashesQuoted_of_ofJson h
  obtain ⟨b, s, b', hb, hb', hs, htext⟩ := TableDecl.reads.document_eq_ok_iff.1 h
  obtain ⟨bracket, inner, rfl⟩ := Json.IsStructure.exists_closing hs
  have hclosing : bracket.closing ≠ '\n' ∧ isBlank bracket.closing = false := by
    cases bracket <;> decide
  have hsplit : text.toList = (b ++ inner) ++ bracket.closing :: b' := by
    rw [htext]
    simp only [List.append_assoc, List.singleton_append]
  rw [hsplit] at hquoted
  -- The last line is what stands around the place before the bracket.
  have hline := line_mem_splitOn (b ++ inner) (bracket.closing :: b')
  have hafter : lineAfter (bracket.closing :: b') = [bracket.closing] ++ lineAfter b' :=
    List.takeWhile_cons_of_pos (by simpa using hclosing.1)
  have hblank : ¬ AllBlank (lineBefore (b ++ inner) ++ lineAfter (bracket.closing :: b')) := by
    intro hall
    have hbracket := hall bracket.closing (by simp [hafter])
    exact absurd hbracket (by simp [hclosing.2])
  have hinstruction := isInstructionLine_of_not_comment hblank
    fun blanks rest hblanks => hquoted.line_ne_comment hblanks
  rw [← hsplit] at hline
  obtain ⟨l, hl, hltext⟩ := exists_mem_instructionLines hline hinstruction
  have hback : AllBlank (lineAfter b') := by
    intro c hc
    exact hb'.allBlank c ((List.takeWhile_prefix _).subset hc)
  obtain ⟨front, word, hwords⟩ := words_concat hclosing.2 (lineBefore (b ++ inner))
  refine ⟨l, hl, bracket, front, word, ?_⟩
  rw [hltext, words_trim, hafter, ← List.append_assoc, words_append_back hback, hwords]

/-- **No text is of both formats.** -/
theorem Table.ofPatterns_of_ofJson {text : String} {d : TableDecl}
    (h : TableDecl.ofJson text = .ok d) : ∃ e, (ofPatterns text).outcome = .error e := by
  cases hload : (ofPatterns text).outcome with
  | error e => exact ⟨e, rfl⟩
  | ok t =>
    obtain ⟨l, hl, bracket, front, word, hwords⟩ := exists_closing_line h
    obtain ⟨htokens, hread⟩ := complete_of_ofPatterns hload l hl
    have hdigit := WrittenLine.isDigit_of_words hread htokens hwords
    cases bracket <;> exact absurd hdigit (by decide)

end IsaTable
