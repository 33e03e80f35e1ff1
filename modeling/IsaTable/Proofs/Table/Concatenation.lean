import IsaTable.Proofs.Pattern.LineNumbers
import IsaTable.Proofs.Table.Loading

/-! # Pattern texts one after the other

    A text that ends in a line feed may be followed by another: neither touches
    the lines of the other, and those of the second are moved down by the number
    of line feeds in the first (`instructionLines_append`).  The number is all
    that moving down changes, in a line, an error or a record, so the two texts
    are loaded as their tables one after the other (`Table.ofPatterns_append`).
-/

namespace IsaTable

open Text

/-! ## §1. Records -/

/-- The record with another number.  Warnings do not say where they stand. -/
def Record.renumber (f : Nat → Nat) : Record → Record
  | .warning opcode what => .warning opcode what
  | .compiled line entry => .compiled (f line) entry

/-- Only the record of the compiled line says where it stands. -/
theorem SourceLine.records_renumber (f : Nat → Nat) (s : SourceLine) :
    (s.renumber f).records = s.records.map (Record.renumber f) := by
  have hwarnings : s.instruction.records.map (Record.renumber f) = s.instruction.records := by
    rw [Instruction.records, List.map_map]
    rfl
  rw [records, records, List.map_append, hwarnings]
  rfl

/-! ## §2. Lines -/

/-- **Lines do not touch.**  Behind a text that is empty or ends in a line feed
    stand the lines of any other text, moved down. -/
theorem instructionLines_append {a : String} (h : AtLineStart a.toList) (b : String) :
    instructionLines (a ++ b) =
      instructionLines a ++
        (instructionLines b).map (WrittenLine.renumber (· + a.toList.count '\n')) := by
  obtain ⟨before, hlength, halone, hpieces⟩ := h.exists_pieces_before
  -- The piece behind the last line feed of `a` is empty and holds no instruction.
  have hfirst : instructionLines a = instructionsAmong (before.zipIdx 1) := by
    rw [instructionLines_eq_among_pieces, halone]
    exact instructionsAmong_concat_of_skipped rfl 1 before
  rw [hfirst, instructionLines_eq_among_pieces, String.toList_append, hpieces,
    List.zipIdx_append, instructionsAmong_append, hlength, instructionsAmong_zipIdx_add,
    ← instructionLines_eq_among_pieces]

/-! ## §3. Reading and loading -/

/-- Reading goes through the lines of the first text, and then through those of
    the second. -/
theorem SourceLine.ofText_append {a : String} (h : AtLineStart a.toList) (b : String) :
    ofText (a ++ b) = (do
      let front ← ofText a
      let back ← ((ofText b).map (List.map (renumber (· + a.toList.count '\n')))).mapError
        (LineError.renumber (· + a.toList.count '\n'))
      return front ++ back) := by
  rw [ofText_eq_mapM, instructionLines_append h, List.mapM_append,
    WrittenLine.mapM_read_renumber, ofText_eq_mapM, ofText_eq_mapM]

namespace Table

/-- **Texts one after the other give tables one after the other.**  Behind a
    text `a` that is empty or ends in a line feed, a text `b` is read as if it
    stood alone, with all line numbers increased by the number of line feeds in
    `a`.  An error of `a` comes first, then one of `b`.  Where both texts are
    loaded, the entries of `a` are followed by those of `b`, and so are the
    records. -/
theorem ofPatterns_append {a : String} (h : AtLineStart a.toList) (b : String) :
    let k := a.toList.count '\n'
    (∀ e, SourceLine.ofText a = .error e → SourceLine.ofText (a ++ b) = .error e) ∧
    (∀ front e, SourceLine.ofText a = .ok front → SourceLine.ofText b = .error e →
      SourceLine.ofText (a ++ b) = .error ⟨e.line + k, e.text, e.kind⟩) ∧
    (∀ front back, SourceLine.ofText a = .ok front → SourceLine.ofText b = .ok back →
      SourceLine.ofText (a ++ b) =
        .ok (front ++ back.map fun s => ⟨s.line + k, s.text, s.instruction⟩)) ∧
    ∀ t u, (ofPatterns a).outcome = .ok t → (ofPatterns b).outcome = .ok u →
      (ofPatterns (a ++ b)).outcome = .ok ⟨t.entries ++ u.entries⟩ ∧
        (ofPatterns (a ++ b)).log =
          (ofPatterns a).log ++ (ofPatterns b).log.map (Record.renumber (· + k)) := by
  intro k
  refine ⟨?_, ?_, ?_, ?_⟩
  · intro e ha
    rw [SourceLine.ofText_append h, ha]
    rfl
  · intro front e ha hb
    rw [SourceLine.ofText_append h, ha, hb]
    rfl
  · intro front back ha hb
    rw [SourceLine.ofText_append h, ha, hb]
    rfl
  · intro t u ht hu
    have hcomplete : ∀ l ∈ instructionLines (a ++ b), l.tokens ≠ [] ∧ l.Readable := by
      intro l hl
      rw [instructionLines_append h] at hl
      rcases List.mem_append.1 hl with hl | hl
      · exact complete_of_ofPatterns ht l hl
      · obtain ⟨l', hl', rfl⟩ := List.mem_map.1 hl
        exact complete_of_ofPatterns hu l' hl'
    obtain ⟨hentries, hlog⟩ := ofPatterns_of_ok ht
    obtain ⟨hentries', hlog'⟩ := ofPatterns_of_ok hu
    have hload := ofPatterns_of_complete (fun l hl => (hcomplete l hl).2)
      fun l hl => (hcomplete l hl).1
    rw [hload, instructionLines_append h, hentries, hentries', hlog, hlog']
    constructor
    · rw [List.map_append, List.map_map]
      rfl
    · show List.flatMap _ _ = _
      rw [List.flatMap_append, List.flatMap_map, List.map_flatMap]
      simp only [← SourceLine.records_renumber]
      rfl

/-- The second text has a blank line in front and no line feed at the end; its
    instruction comes to stand on line 4, and is warned about without a
    number. -/
theorem ofPatterns_append_unended :
    AtLineStart "# isa\r\nadd 0,5,31\n".toList ∧
      (ofPatterns ("# isa\r\nadd 0,5,31\n" ++ "\nsync 0,0,1 0,1,2\r")).log =
        [.compiled 2 ⟨"add", ⟨0xfc000000#32, 0x7c000000#32⟩⟩,
         .warning "sync" (.overlap ⟨0, 1, 2#32, by decide, by decide⟩),
         .compiled 4 ⟨"sync", ⟨0xc0000000#32, 0x80000000#32⟩⟩] := by
  have hstart : AtLineStart "# isa\r\nadd 0,5,31\n".toList := by decide
  have hfirst : (ofPatterns "# isa\r\nadd 0,5,31\n").outcome =
      .ok ⟨[⟨"add", ⟨0xfc000000#32, 0x7c000000#32⟩⟩]⟩ := by rfl
  have hsecond : (ofPatterns "\nsync 0,0,1 0,1,2\r").outcome =
      .ok ⟨[⟨"sync", ⟨0xc0000000#32, 0x80000000#32⟩⟩]⟩ := by rfl
  obtain ⟨-, -, -, hload⟩ := ofPatterns_append hstart "\nsync 0,0,1 0,1,2\r"
  obtain ⟨-, hlog⟩ := hload _ _ hfirst hsecond
  exact ⟨hstart, hlog.trans (by rfl)⟩

end Table

end IsaTable
